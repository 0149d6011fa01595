import LuspUpload.Hash.Window
import LuspUpload.MQ.Codec
import LuspUpload.MQ.Restart

/-!
# MQ.Checksum — the index file with its `CRC32`

With the checksum of the hash library in the place of the parameter, an index file is its bytes and their hash.
`load_disk_index` takes no saved file in which up to four bytes in a row were changed, unless the change lowers
the message count or is the one that `getHash`'s byte order hides (`damaged_index_iff`).  What it does not take
is scanned for in the data file, and the queue comes up as it would have (`damaged_index_restart`).
-/

namespace LuspUpload.MQ

open Lib Hash

/-- The checksum of the index file: `getHash`'s four bytes, read as a `uint32_t`. -/
def crc32 (content : List UInt8) : UInt32 :=
  .ofNat (leNat (CRC32.getHashBytes (CRC32.add CRC32.reset content)))

/-- The message count in the header of an index file. -/
def messageCount (file : List UInt8) : ℕ := leNat ((file.drop 8).take 8)

theorem leBytes_crc32 (content : List UInt8) :
    leBytes 4 (crc32 content).toNat = CRC32.getHashBytes (CRC32.add CRC32.reset content) := by
  set digest := CRC32.getHashBytes (CRC32.add CRC32.reset content) with hdigest
  have hfour : digest.length = 4 := rfl
  have hlt := leNat_lt digest
  rw [hfour] at hlt
  rw [crc32, ← hdigest, UInt32.toNat_ofNat_of_lt' hlt, ← hfour]
  exact leBytes_leNat digest

section Files

variable {idx : List Entry} {total : UInt64}

theorem savedIndex_sealed (idx : List Entry) (total : UInt64) :
    savedIndex crc32 idx total = CRC32.sealed (indexContent idx total) := by
  rw [savedIndex, leBytes_crc32, CRC32.sealed]

theorem length_indexContent : (indexContent idx total).length = 24 + 12 * idx.length := by
  simp only [indexContent, List.length_append, leBytes_length, length_flatMap_entryBytes]

theorem length_savedIndex {crc : List UInt8 → UInt32} :
    (savedIndex crc idx total).length = 28 + 12 * idx.length := by
  rw [savedIndex, List.length_append, length_indexContent, leBytes_length]
  omega

/-- Any bytes are entries. -/
theorem exists_entries (n : ℕ) {bs : List UInt8} (h : bs.length = 12 * n) :
    ∃ idx : List Entry, idx.length = n ∧ (∀ e ∈ idx, e.1 < 2 ^ 64 ∧ e.2 < 2 ^ 32) ∧
      idx.flatMap entryBytes = bs := by
  induction n generalizing bs with
  | zero => exact ⟨[], rfl, by simp, (List.length_eq_zero_iff.mp h).symm⟩
  | succ n ih =>
    have hrest : (bs.drop 12).length = 12 * n := by
      rw [List.length_drop]
      omega
    obtain ⟨idx, hlen, hlt, hbytes⟩ := ih hrest
    refine ⟨(leNat (bs.take 8), leNat ((bs.drop 8).take 4)) :: idx, by rw [List.length_cons, hlen], ?_, ?_⟩
    · rintro e he
      rcases List.mem_cons.mp he with rfl | he
      · exact ⟨leNat_take_lt bs, leNat_take_lt (bs.drop 8)⟩
      · exact hlt e he
    · rw [List.flatMap_cons, entryBytes, leBytes_leNat_take (by omega),
        leBytes_leNat_take (by rw [List.length_drop]; omega), hbytes, ← List.take_add, List.take_append_drop]

/-- Bytes with the header of an index are an index. -/
theorem exists_indexContent {bs : List UInt8} (hlen : bs.length = (indexContent idx total).length)
    (hhead : bs.take 24 = (indexContent idx total).take 24) (hidx : idx.length < 2 ^ 64) :
    ∃ idx', Representable idx' ∧ bs = indexContent idx' total := by
  rw [length_indexContent] at hlen
  have hentries : (bs.drop 24).length = 12 * idx.length := by
    rw [List.length_drop]
    omega
  obtain ⟨idx', hcount, hlt, hbytes⟩ := exists_entries idx.length hentries
  refine ⟨idx', ⟨hcount ▸ hidx, hlt⟩, ?_⟩
  have hfront : (leBytes 4 MAGIC_NUMBER ++ leBytes 4 VERSION ++ leBytes 8 idx.length ++
      leBytes 8 total.toNat).length = 24 := by
    simp only [List.length_append, leBytes_length]
  rw [indexContent, List.take_left' hfront] at hhead
  rw [indexContent, hcount, hbytes, ← hhead, List.take_append_drop]

end Files

namespace PersistentMessageQueue

section Load

variable {N : ℕ} {t : PersistentMessageQueue N} {idx : List Entry} {total : UInt64} {file' : List UInt8} {k : ℕ}

theorem messageCount_savedIndex {crc : List UInt8 → UInt32} {rest : List UInt8} (h : idx.length < 2 ^ 64) :
    messageCount (savedIndex crc idx total ++ rest) = idx.length := by
  rw [savedIndex, List.append_assoc, messageCount, indexContent_fields.2.2.2.1, Nat.mod_eq_of_lt h]

/-- What is taken of a file as long as a saved one, if it has no fewer messages. -/
theorem accepted_savedIndex (hindex : t.dir.index = some file')
    (hlen : file'.length = (savedIndex crc32 idx total).length) (hcount : idx.length ≤ messageCount file')
    (h : (t.loadDiskIndex crc32).2 = true) :
    ∃ idx' total', idx'.length = idx.length ∧ file' = savedIndex crc32 idx' total' ∧
      t.dir.data.map List.length = some total'.toNat := by
  obtain ⟨idx', total', rest, data, ⟨hlt, -⟩, hfile, hdata, hsize⟩ := loadDiskIndex_true h
  obtain rfl := Option.some.inj (hindex.symm.trans hfile)
  rw [messageCount_savedIndex hlt] at hcount
  rw [List.length_append, length_savedIndex, length_savedIndex] at hlen
  have hrest : rest = [] := List.length_eq_zero_iff.mp (by omega)
  refine ⟨idx', total', by omega, by rw [hrest, List.append_nil], ?_⟩
  rw [hdata, Option.map_some, hsize]

/-- The header of an index tells the size of the data file. -/
theorem total_of_take {idx' : List Entry} {total' : UInt64} {crc : List UInt8 → UInt32}
    (h : (savedIndex crc idx' total').take 24 = (savedIndex crc idx total).take 24) : total' = total := by
  have hfield : ∀ (i : List Entry) (s : UInt64), leNat ((((savedIndex crc i s).take 24).drop 16).take 8) = s.toNat := by
    intro i s
    rw [List.drop_take, List.take_take]
    exact (@indexContent_fields i s _).2.2.2.2.1
  have hboth := hfield idx' total'
  rw [h, hfield idx total] at hboth
  exact UInt64.toNat_inj.mp hboth.symm

/-- A file in the place of a saved one that differs from it in at most four bytes in a row. -/
theorem loadDiskIndex_window_iff (hidx : Representable idx) (hne : idx ≠ []) (hindex : t.dir.index = some file')
    (hlen : file'.length = (savedIndex crc32 idx total).length)
    (htake : file'.take k = (savedIndex crc32 idx total).take k)
    (hdrop : file'.drop (k + 4) = (savedIndex crc32 idx total).drop (k + 4))
    (hcount : idx.length ≤ messageCount file') :
    (t.loadDiskIndex crc32).2 = true ↔ t.dir.data.map List.length = some total.toNat ∧
      (file' = savedIndex crc32 idx total ∨ file' = CRC32.unseen (savedIndex crc32 idx total)) := by
  have hpos : 0 < idx.length := List.length_pos_iff.mpr hne
  have hhead : (CRC32.unseen (savedIndex crc32 idx total)).take 24 = (savedIndex crc32 idx total).take 24 := by
    refine CRC32.take_unseen ?_
    rw [length_savedIndex]
    omega
  constructor
  · intro h
    obtain ⟨idx', total', hsame, rfl, hdata⟩ := accepted_savedIndex hindex hlen hcount h
    have hcontent : (indexContent idx total).length = (indexContent idx' total').length := by
      rw [length_indexContent, length_indexContent, hsame]
    simp only [savedIndex_sealed] at htake hdrop hhead ⊢
    rcases CRC32.sealed_window hcontent htake.symm hdrop.symm with heq | ⟨-, heq⟩
    · have htotal : total' = total := by
        refine @total_of_take idx total idx' total' crc32 ?_
        rw [savedIndex_sealed, savedIndex_sealed, heq]
      exact ⟨htotal ▸ hdata, Or.inl (congrArg CRC32.sealed heq.symm)⟩
    · have htotal : total' = total := by
        refine @total_of_take idx total idx' total' crc32 ?_
        rw [savedIndex_sealed, savedIndex_sealed, heq, hhead]
      exact ⟨htotal ▸ hdata, Or.inr heq⟩
  · rintro ⟨hdata, hfile⟩
    obtain ⟨data, hdata, hsize⟩ := Option.map_eq_some_iff.mp hdata
    rcases hfile with rfl | rfl
    · exact loadDiskIndex_iff.mpr ⟨idx, total, [], data, hidx, by rw [List.append_nil, hindex], hdata, hsize⟩
    · rw [savedIndex_sealed] at hindex hhead
      have hlong : 36 ≤ (indexContent idx total).length := by
        rw [length_indexContent]
        omega
      obtain ⟨bs, hbs, hfront, hsealed⟩ := CRC32.exists_sealed_unseen (show 2 ≤ (indexContent idx total).length by omega)
      have hhead' : bs.take 24 = (indexContent idx total).take 24 := by
        have := congrArg (List.take 24) hfront
        rwa [List.take_take, List.take_take, min_eq_left (by omega)] at this
      obtain ⟨idx', hidx', rfl⟩ := exists_indexContent hbs hhead' hidx.1
      refine loadDiskIndex_iff.mpr ⟨idx', total, [], data, hidx', ?_, hdata, hsize⟩
      rw [List.append_nil, savedIndex_sealed, hsealed, hindex]

end Load

/-- **A damaged index file**: a file that differs from a saved one in at most four bytes in a row, and whose
message count is not lower, is loaded exactly when the data file has the size that was saved and the file is the
saved one, or the one whose last two bytes of the last entry and first two bytes of the checksum are changed by
61 D8 F4 EE. -/
theorem damaged_index_iff {N M : ℕ} (s : PersistentMessageQueue N) (t : PersistentMessageQueue M)
    {file file' : List UInt8} {k : ℕ} (hidx : Representable s.diskIndex) (hsaved : savedFile crc32 s = some file)
    (hindex : t.dir.index = some file') (hlen : file'.length = file.length) (htake : file'.take k = file.take k)
    (hdrop : file'.drop (k + 4) = file.drop (k + 4)) (hcount : messageCount file ≤ messageCount file') :
    (t.loadDiskIndex crc32).2 = true ↔ t.dir.data.map List.length = some s.currentDiskSize.toNat ∧
      (file' = file ∨ file' = CRC32.unseen file) := by
  have hne : s.diskIndex ≠ [] := by
    intro hempty
    rw [savedFile_of_eq hempty] at hsaved
    cases hsaved
  rw [savedFile_of_ne hne] at hsaved
  obtain rfl := Option.some.inj hsaved
  rw [← List.append_nil (savedIndex _ _ _), messageCount_savedIndex hidx.1] at hcount
  exact loadDiskIndex_window_iff hidx hne hindex hlen htake hdrop hcount

/-- The index of one record, and its file with a bit of the entry turned over. -/
def oneFile : List UInt8 := savedIndex crc32 [(0, 3)] 3

def turnedFile : List UInt8 := Crc.xorAt 24 [1] oneFile

theorem damaged_index_iff_turned :
    ((initial 2 1000 { data := some [1, 2, 3], index := some turnedFile }).loadDiskIndex crc32).2 = true ↔
      some 3 = some 3 ∧ (turnedFile = oneFile ∨ turnedFile = CRC32.unseen oneFile) :=
  @damaged_index_iff 2 2 oneRecord (initial 2 1000 { data := some [1, 2, 3], index := some turnedFile })
    oneFile turnedFile 24 (by decide) rfl rfl (by decide +kernel) (by decide +kernel) (by decide +kernel)
    (by decide +kernel)

/-! ### The restart on a damaged index file -/

section Restart

variable {N : ℕ} {s : PersistentMessageQueue N} {a : TwoTier IpcMessage} {log : List IpcMessage}
  {crc : List UInt8 → UInt32}

/-- The directory that the destructor leaves: a log, with its index unless nothing is left unread. -/
structure Left (crc : List UInt8 → UInt32) (dir : Dir) (log : List IpcMessage) : Prop where
  fits : ∀ x ∈ log, x.Fits
  data : dir.data = some (records log) ∨ dir.data = none ∧ log = []
  index : dir.index = none ∨ log ≠ [] ∧ ∃ total, dir.index = some (savedIndex crc (layout 0 log) total)

theorem Rep.data_or (h : Rep s a) : s.dir.data = some (records a.log) ∨ s.dir.data = none ∧ a.log = [] := by
  have hbytes := h.bytes
  rcases hfile : s.dir.data with _ | bytes
  · rw [Dir.bytes, hfile] at hbytes
    have hle := length_layout_le h.fits_log
    rw [← hbytes] at hle
    exact Or.inr ⟨rfl, List.length_eq_zero_iff.mp (Nat.le_zero.mp hle)⟩
  · rw [Dir.bytes, hfile] at hbytes
    exact Or.inl (congrArg some hbytes)

theorem Rep.left (h : Rep s a) (hindex : s.dir.index = none) :
    ∃ dir log, s.destroy crc = some dir ∧ Left crc dir log := by
  obtain ⟨s₁, a₁, hs₁, hrep, hnone⟩ : ∃ s₁ a₁,
      (if 0 < s.getStatistics.memorySize then s.flushToDisk.map (·.1) else some s) = some s₁ ∧ Rep s₁ a₁ ∧
        s₁.dir.index = none := by
    obtain ⟨m, t, u⟩ := a
    by_cases hpos : 0 < s.getStatistics.memorySize
    · obtain ⟨s₁, k, m', u', hs₁, hrep, -⟩ := h.flushToDisk
      exact ⟨s₁, _, by rw [if_pos hpos, hs₁]; rfl, hrep, keeps_noIndex.flushLoop hindex hs₁⟩
    · exact ⟨s, _, if_neg hpos, h, hindex⟩
  rw [PersistentMessageQueue.destroy, hs₁, Option.map_some]
  by_cases hdisk : 0 < s₁.getStatistics.diskSize
  · have hne : s₁.diskIndex ≠ [] := by
      intro hnil
      simp [getStatistics, hnil] at hdisk
    refine ⟨_, a₁.log, rfl, hrep.fits_log, ?_, Or.inr ⟨?_, s₁.currentDiskSize, ?_⟩⟩
    · rw [if_pos hdisk, saveDiskIndex_data]
      exact hrep.data_or
    · intro hlog
      rw [hrep.index, hlog] at hne
      exact hne rfl
    · rw [if_pos hdisk, ← hrep.index]
      exact savedFile_of_ne hne
  · exact ⟨_, a₁.log, by rw [if_neg hdisk], hrep.fits_log, hrep.data_or, Or.inl hnone⟩

/-- The queue that comes up on a log: all of it, unread. -/
def onLog (N : ℕ) [NeZero N] (maxDiskSize : UInt64) (dir : Dir) (log : List IpcMessage) :
    PersistentMessageQueue N :=
  { initial N maxDiskSize dir with diskIndex := layout 0 log, currentDiskSize := .ofNat (records log).length }

/-- The constructor on a log, if no other index than that of the log is loaded. -/
theorem construct_onLog [NeZero N] {maxDiskSize : UInt64} {dir : Dir} (hfits : ∀ x ∈ log, x.Fits)
    (hdata : dir.data = some (records log) ∨ dir.data = none ∧ log = [])
    (hload : ((initial N maxDiskSize dir).loadDiskIndex crc).2 = true →
      ∃ total, dir.index = some (savedIndex crc (layout 0 log) total)) :
    construct crc N maxDiskSize dir = some (onLog N maxDiskSize dir log) := by
  rcases hdata with hdata | ⟨hdata, rfl⟩
  · have hsome : dir.data.isSome = true := by rw [hdata]; rfl
    rw [construct, if_pos hsome, rebuildDiskIndex]
    cases hres : ((initial N maxDiskSize dir).loadDiskIndex crc).2 with
    | true =>
      obtain ⟨total, hindex⟩ := hload hres
      have hsize : (records log).length = total.toNat := by
        by_contra hne
        rw [loadDiskIndex_mismatch (s := initial N maxDiskSize dir) hdata hindex hne] at hres
        cases hres
      have hlt : (records log).length < 2 ^ 64 := hsize ▸ total.toNat_lt
      have hloaded := loadDiskIndex_saved (s := initial N maxDiskSize dir) hdata hindex hsize
        (by rw [layout_length]; exact (length_layout_le hfits).trans_lt hlt)
        (fun e he => ⟨by have := (layout_bounds hfits e he).1; omega, (layout_bounds hfits e he).2⟩)
      rw [hloaded, onLog, hsize, UInt64.ofNat_toNat]
      rfl
    | false =>
      have hsame : ((initial N maxDiskSize dir).loadDiskIndex crc).1 = initial N maxDiskSize dir := by
        rcases loadDiskIndex_cases crc (initial N maxDiskSize dir) with htrue | hsame | hcleared
        · rw [hres] at htrue
          cases htrue
        · exact hsame
        · exact hcleared
      rw [hsame]
      exact rebuildDiskIndexFromData_records (s := initial N maxDiskSize dir) hdata hfits
  · rw [construct, hdata]
    rfl

end Restart

/-- **The restart on a damaged index file**: after any calls but `clear`, and whatever up to four bytes in a row
of the index file are changed to, but for a lower message count and the one change that is not seen, the
constructor makes the queue that it makes on the index file as it was. -/
theorem damaged_index_restart (N N' : ℕ) [NeZero N] [NeZero N'] (maxDiskSize maxDiskSize' : UInt64)
    (ops : List Op) (hops : ∀ op ∈ ops, op.Fits ∧ op ≠ .clear) :
    ∃ s h dir, (machine N).run (fresh N maxDiskSize) ops = some (s, h) ∧ s.destroy crc32 = some dir ∧
      ∀ file file' k, dir.index = some file → file'.length = file.length → file'.take k = file.take k →
        file'.drop (k + 4) = file.drop (k + 4) → messageCount file ≤ messageCount file' →
        file' ≠ CRC32.unseen file →
        ∃ q : PersistentMessageQueue N', construct crc32 N' maxDiskSize' dir = some q ∧
          construct crc32 N' maxDiskSize' { dir with index := some file' } =
            some { q with dir := { dir with index := some file' } } := by
  obtain ⟨s, h, a, hrun, hrep, -⟩ := run_refines (rep_initial (N := N) maxDiskSize) hops
  obtain ⟨dir, log, hdir, hleft⟩ := @Rep.left N s a crc32 hrep (run_noIndex hrun rfl)
  refine ⟨s, h, dir, hrun, hdir, ?_⟩
  intro file file' k hfile hlen htake hdrop hcount hseen
  obtain ⟨hlog, total, hindex⟩ := hleft.index.resolve_left (by rw [hfile]; simp)
  obtain rfl := Option.some.inj (hfile.symm.trans hindex)
  refine ⟨onLog N' maxDiskSize' dir log, construct_onLog hleft.fits hleft.data fun _ => ⟨total, hindex⟩, ?_⟩
  refine construct_onLog hleft.fits hleft.data fun haccepted => ⟨total, ?_⟩
  obtain ⟨idx, total', rest, data, -, -, hdata, hsize⟩ := loadDiskIndex_true haccepted
  have hlt : (records log).length < 2 ^ 64 := by
    rcases hleft.data with hrecords | ⟨-, hnil⟩
    · obtain rfl := Option.some.inj (hrecords.symm.trans hdata)
      rw [hsize]
      exact total'.toNat_lt
    · exact absurd hnil hlog
  have hidx : Representable (layout 0 log) := by
    refine ⟨by rw [layout_length]; exact (length_layout_le hleft.fits).trans_lt hlt, fun e he => ?_⟩
    have hbounds := layout_bounds hleft.fits e he
    exact ⟨by omega, hbounds.2⟩
  have hne : layout 0 log ≠ [] := by
    rw [← List.length_pos_iff, layout_length]
    exact List.length_pos_iff.mpr hlog
  rw [← List.append_nil (savedIndex _ _ _), messageCount_savedIndex hidx.1] at hcount
  rcases ((loadDiskIndex_window_iff hidx hne rfl hlen htake hdrop hcount).mp haccepted).2 with rfl | heq
  · rfl
  · exact absurd heq hseen

/-- Two messages, one of them on disk, and an index file whose magic number is damaged. -/
theorem damaged_index_restart_spilled : ∃ s h dir,
    (machine 2).run (fresh 2 1000) [.enqueue ⟨1, 0, 0, [65]⟩, .enqueue ⟨2, 0, 0, [66]⟩] = some (s, h) ∧
      s.destroy crc32 = some dir ∧ ∃ file, dir.index = some file ∧
        ∃ q : PersistentMessageQueue 3, construct crc32 3 1000 dir = some q ∧
          construct crc32 3 1000 { dir with index := some (Crc.xorAt 0 [1, 2] file) } =
            some { q with dir := { dir with index := some (Crc.xorAt 0 [1, 2] file) } } := by
  obtain ⟨s, h, dir, hrun, hdir, hall⟩ := damaged_index_restart 2 3 1000 1000
    [.enqueue ⟨1, 0, 0, [65]⟩, .enqueue ⟨2, 0, 0, [66]⟩] (by decide)
  have hfile : (((machine 2).run (fresh 2 1000) [.enqueue ⟨1, 0, 0, [65]⟩, .enqueue ⟨2, 0, 0, [66]⟩]).bind
      fun r => r.1.destroy crc32).map (·.index) = some (some (savedIndex crc32 [(0, 25), (25, 25)] 50)) := by
    decide +kernel
  rw [hrun, Option.bind_some, hdir, Option.map_some] at hfile
  have hindex := Option.some.inj hfile
  exact ⟨s, h, dir, hrun, hdir, _, hindex, hall _ _ 0 hindex (by decide +kernel) (by decide +kernel)
    (by decide +kernel) (by decide +kernel) (by decide +kernel)⟩

end PersistentMessageQueue

end LuspUpload.MQ
