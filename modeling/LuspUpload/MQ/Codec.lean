import LuspUpload.MQ.Recovery

/-!
# MQ.Codec — what the readers of the two files accept

`deserialize_message` and `load_disk_index` are the inverses of the writers: what they accept is the image of
what they return.  A record is the whole buffer; an index may have bytes behind its checksum.

`save_disk_index` removes the file of an empty index.  `load_disk_index` accepts a file without entries all
the same, which no call of `save_disk_index` writes (`entryless_not_saved`).
-/

namespace LuspUpload.MQ

open Lib

/-- A field that is read gives its bytes back. -/
theorem leBytes_leNat_take {w : ℕ} {bs : List UInt8} (h : w ≤ bs.length) :
    leBytes w (leNat (bs.take w)) = bs.take w := by
  have := leBytes_leNat (bs.take w)
  rwa [List.length_take_of_le h] at this

theorem leNat_take_lt {w : ℕ} (bs : List UInt8) : leNat (bs.take w) < 256 ^ w := by
  refine (leNat_lt (bs.take w)).trans_le (Nat.pow_le_pow_right (by omega) ?_)
  rw [List.length_take]
  omega

/-! ### Records -/

section Records

variable {b : List UInt8} {m : IpcMessage}

/-- What an accepted buffer is. -/
theorem deserializeMessage_eq_some (h : deserializeMessage b = some m) :
    24 ≤ b.length ∧ leNat ((b.drop 20).take 4) = m.data.length ∧ leNat (b.take 8) = m.id.toNat ∧
      leNat ((b.drop 8).take 8) = m.timestamp.toNat ∧ leNat ((b.drop 16).take 4) = m.priority.toNat ∧
      b.drop 24 = m.data := by
  rw [deserializeMessage] at h
  by_cases hshort : b.length < HEADER_SIZE
  · rw [if_pos hshort] at h
    cases h
  rw [if_neg hshort] at h
  by_cases hsize : HEADER_SIZE + leNat ((b.drop 20).take 4) ≠ b.length
  · rw [if_pos hsize] at h
    cases h
  rw [if_neg hsize] at h
  obtain rfl := Option.some.inj h
  unfold HEADER_SIZE at hshort hsize
  refine ⟨by omega, ?_, ?_, ?_, ?_, rfl⟩
  · show _ = (b.drop 24).length
    rw [List.length_drop]
    omega
  · exact (UInt64.toNat_ofNat_of_lt' (leNat_take_lt b)).symm
  · exact (UInt64.toNat_ofNat_of_lt' (leNat_take_lt (b.drop 8))).symm
  · exact (UInt32.toNat_ofNat_of_lt' (leNat_take_lt (b.drop 16))).symm

/-- An accepted buffer is the record of its message. -/
theorem serializeMessage_of_deserialize (h : deserializeMessage b = some m) : serializeMessage m = b := by
  obtain ⟨hlen, hsize, hid, hts, hpr, hdata⟩ := deserializeMessage_eq_some h
  have hlt : m.data.length < 2 ^ 32 := by
    rw [← hsize]
    exact leNat_take_lt (b.drop 20)
  have hb : b.take 24 = b.take 8 ++ (b.drop 8).take 8 ++ (b.drop 16).take 4 ++ (b.drop 20).take 4 := by
    rw [← List.take_add, ← List.take_add, ← List.take_add]
  simp only [serializeMessage, Nat.mod_eq_of_lt hlt, List.take_length]
  rw [← hid, ← hts, ← hpr, ← hsize, ← hdata]
  rw [leBytes_leNat_take (by omega), leBytes_leNat_take (by rw [List.length_drop]; omega),
    leBytes_leNat_take (by rw [List.length_drop]; omega), leBytes_leNat_take (by rw [List.length_drop]; omega),
    ← hb, List.take_append_drop]

/-- The record of a message of any size; the payload is cut where the size wraps. -/
theorem deserializeMessage_serialize (m : IpcMessage) :
    deserializeMessage (serializeMessage m) =
      some { m with data := m.data.take (m.data.length % 2 ^ 32) } := by
  have hlen : (m.data.take (m.data.length % 2 ^ 32)).length = m.data.length % 2 ^ 32 :=
    List.length_take_of_le (Nat.mod_le _ _)
  have hlt : (m.data.take (m.data.length % 2 ^ 32)).length < 2 ^ 32 := by
    rw [hlen]
    exact Nat.mod_lt _ (by omega)
  have := deserializeMessage_fields m.id m.timestamp m.priority hlt
  rwa [hlen] at this

theorem deserializeMessage_eq_none_iff :
    deserializeMessage b = none ↔
      b.length < HEADER_SIZE ∨ b.length ≠ HEADER_SIZE + leNat ((b.drop 20).take 4) := by
  rw [deserializeMessage]
  by_cases hshort : b.length < HEADER_SIZE
  · simp only [hshort, if_true, true_or]
  · by_cases hsize : HEADER_SIZE + leNat ((b.drop 20).take 4) = b.length
    · simp [hshort, hsize]
    · simp [hshort, hsize, Ne.symm hsize]

/-- **The record codec.**  The two functions are inverse to each other, and `deserialize_message` rejects
whatever is no image: a buffer that is shorter than the header or has another length than its field says. -/
theorem record_codec :
    (∀ m : IpcMessage, m.Fits → deserializeMessage (serializeMessage m) = some m) ∧
    (∀ b m, deserializeMessage b = some m → serializeMessage m = b) ∧
    (∀ b, deserializeMessage b = none ↔ ∀ m, serializeMessage m ≠ b) ∧
    ∀ b, deserializeMessage b = none ↔
      b.length < HEADER_SIZE ∨ b.length ≠ HEADER_SIZE + leNat ((b.drop 20).take 4) := by
  refine ⟨fun m h => deserializeMessage_serializeMessage h, fun b m h => serializeMessage_of_deserialize h,
    fun b => ?_, fun b => deserializeMessage_eq_none_iff⟩
  constructor
  · rintro h m rfl
    rw [deserializeMessage_serialize] at h
    cases h
  · intro h
    cases hm : deserializeMessage b with
    | none => rfl
    | some m => exact absurd (serializeMessage_of_deserialize hm) (h m)

/-- A message of one byte, its record, and the record cut short. -/
theorem record_codec_byte :
    deserializeMessage (serializeMessage ⟨7, 8, 0, [42]⟩) = some ⟨7, 8, 0, [42]⟩ ∧
      serializeMessage ⟨7, 8, 0, [42]⟩ = leBytes 8 7 ++ leBytes 8 8 ++ leBytes 4 0 ++ leBytes 4 1 ++ [42] ∧
      ∀ m, serializeMessage m ≠ leBytes 8 7 ++ leBytes 8 8 ++ leBytes 4 0 ++ leBytes 4 1 :=
  ⟨record_codec.1 _ (by decide), record_codec.2.1 _ _ (by decide), (record_codec.2.2.1 _).mp (by decide)⟩

end Records

/-! ### The index file -/

/-- An index that the types of the program can hold. -/
def Representable (idx : List Entry) : Prop :=
  idx.length < 2 ^ 64 ∧ ∀ e ∈ idx, e.1 < 2 ^ 64 ∧ e.2 < 2 ^ 32

instance (idx : List Entry) : Decidable (Representable idx) := inferInstanceAs (Decidable (_ ∧ _))

theorem readExact_eq_some {n : ℕ} {bytes : List UInt8} {r : List UInt8 × List UInt8}
    (h : readExact n bytes = some r) : r.1.length = n ∧ r.1 ++ r.2 = bytes := by
  rw [readExact] at h
  by_cases hle : n ≤ bytes.length
  · rw [if_pos hle] at h
    obtain rfl := Option.some.inj h
    exact ⟨List.length_take_of_le hle, List.take_append_drop n bytes⟩
  · rw [if_neg hle] at h
    cases h

/-- The entries that are read, written again. -/
theorem readEntries_eq_some {count : ℕ} {bytes : List UInt8} {r : List Entry × List UInt8}
    (h : readEntries count bytes = some r) :
    r.1.length = count ∧ (∀ e ∈ r.1, e.1 < 2 ^ 64 ∧ e.2 < 2 ^ 32) ∧ r.1.flatMap entryBytes ++ r.2 = bytes := by
  induction count generalizing bytes r with
  | zero =>
    obtain rfl := Option.some.inj h
    exact ⟨rfl, by simp, rfl⟩
  | succ count ih =>
    rw [readEntries] at h
    obtain ⟨o, ho, h⟩ := Option.bind_eq_some_iff.mp h
    obtain ⟨z, hz, h⟩ := Option.bind_eq_some_iff.mp h
    obtain ⟨r', hr', rfl⟩ := Option.map_eq_some_iff.mp h
    obtain ⟨holen, hobytes⟩ := readExact_eq_some ho
    obtain ⟨hzlen, hzbytes⟩ := readExact_eq_some hz
    obtain ⟨hlen, hlt, hbytes⟩ := ih hr'
    have holt := leNat_lt o.1
    have hzlt := leNat_lt z.1
    rw [holen] at holt
    rw [hzlen] at hzlt
    refine ⟨by rw [List.length_cons, hlen], ?_, ?_⟩
    · rintro e he
      rcases List.mem_cons.mp he with rfl | he
      · exact ⟨holt, hzlt⟩
      · exact hlt e he
    · have ho' := leBytes_leNat o.1
      have hz' := leBytes_leNat z.1
      rw [holen] at ho'
      rw [hzlen] at hz'
      rw [List.flatMap_cons, entryBytes, ho', hz', List.append_assoc, List.append_assoc, hbytes, hzbytes,
        hobytes]

/-- The header of an index file, from its fields. -/
theorem indexContent_of_fields {file rest : List UInt8} {idx : List Entry} {total : UInt64}
    (hlen : 24 ≤ file.length) (hmagic : leNat (file.take 4) = MAGIC_NUMBER)
    (hversion : leNat ((file.drop 4).take 4) = VERSION) (hcount : leNat ((file.drop 8).take 8) = idx.length)
    (htotal : leNat ((file.drop 16).take 8) = total.toNat)
    (hentries : idx.flatMap entryBytes ++ rest = file.drop 24) : indexContent idx total ++ rest = file := by
  have hhead : file.take 24 = file.take 4 ++ (file.drop 4).take 4 ++ (file.drop 8).take 8 ++
      (file.drop 16).take 8 := by
    rw [← List.take_add, ← List.take_add, ← List.take_add]
  rw [indexContent, List.append_assoc, hentries, ← hmagic, ← hversion, ← hcount, ← htotal]
  rw [leBytes_leNat_take (by omega), leBytes_leNat_take (by rw [List.length_drop]; omega),
    leBytes_leNat_take (by rw [List.length_drop]; omega), leBytes_leNat_take (by rw [List.length_drop]; omega),
    ← hhead, List.take_append_drop]

/-- A file that passes the tests of the reader begins with the image of the index that is read. -/
theorem savedIndex_of_read {crc : List UInt8 → UInt32} {file rest stored behind : List UInt8} {idx : List Entry}
    (hlen : 24 ≤ file.length) (hmagic : leNat (file.take 4) = MAGIC_NUMBER)
    (hversion : leNat ((file.drop 4).take 4) = VERSION)
    (hentries : readEntries (leNat ((file.drop 8).take 8)) (file.drop 24) = some (idx, rest))
    (hstored : readExact 4 rest = some (stored, behind))
    (hcrc : (crc (file.take (24 + 12 * leNat ((file.drop 8).take 8)))).toNat = leNat stored) :
    Representable idx ∧ file = savedIndex crc idx (.ofNat (leNat ((file.drop 16).take 8))) ++ behind := by
  obtain ⟨hcount, hlt, hbytes⟩ := readEntries_eq_some hentries
  obtain ⟨hfour, hrest⟩ := readExact_eq_some hstored
  have htotal : leNat ((file.drop 16).take 8) = (UInt64.ofNat (leNat ((file.drop 16).take 8))).toNat :=
    (UInt64.toNat_ofNat_of_lt' (leNat_take_lt (file.drop 16))).symm
  have hfile := indexContent_of_fields hlen hmagic hversion hcount.symm htotal hbytes
  set content := indexContent idx (.ofNat (leNat ((file.drop 16).take 8))) with hdef
  have hcontent : file.take (24 + 12 * leNat ((file.drop 8).take 8)) = content := by
    rw [← hcount]
    nth_rewrite 1 [← hfile]
    refine List.take_left' ?_
    simp only [hdef, indexContent, List.length_append, leBytes_length, length_flatMap_entryBytes]
  have hsum : leBytes 4 (crc content).toNat = stored := by
    rw [← hcontent, hcrc, ← hfour]
    exact leBytes_leNat stored
  refine ⟨⟨?_, hlt⟩, ?_⟩
  · rw [hcount]
    exact leNat_take_lt (file.drop 8)
  · rw [savedIndex, ← hdef, hsum, List.append_assoc, hrest, hfile]

namespace PersistentMessageQueue

variable {N : ℕ} {crc : List UInt8 → UInt32} {s : PersistentMessageQueue N}

/-- An index file that is loaded begins with the header, the entries and the checksum of its index. -/
theorem loadDiskIndex_true (h : (s.loadDiskIndex crc).2 = true) :
    ∃ idx total rest data, Representable idx ∧ s.dir.index = some (savedIndex crc idx total ++ rest) ∧
      s.dir.data = some data ∧ data.length = total.toNat := by
  cases hindex : s.dir.index with
  | none => simp [loadDiskIndex, hindex] at h
  | some file =>
    simp only [loadDiskIndex, hindex] at h
    by_cases hshort : file.length < 24
    · simp [hshort] at h
    simp only [hshort, if_false] at h
    by_cases hmagic : leNat (file.take 4) ≠ MAGIC_NUMBER ∨ leNat ((file.drop 4).take 4) ≠ VERSION
    · simp [hmagic] at h
    simp only [hmagic, if_false] at h
    obtain ⟨hmagic, hversion⟩ := not_or.mp hmagic
    cases hdata : s.dir.data with
    | none => simp [hdata] at h
    | some data =>
      simp only [hdata] at h
      by_cases hsize : data.length ≠ leNat ((file.drop 16).take 8)
      · simp [hsize] at h
      simp only [hsize, if_false] at h
      cases hentries : readEntries (leNat ((file.drop 8).take 8)) (file.drop 24) with
      | none => simp [hentries] at h
      | some r =>
        obtain ⟨idx, rest⟩ := r
        simp only [hentries] at h
        cases hstored : readExact 4 rest with
        | none => simp [hstored] at h
        | some c =>
          obtain ⟨stored, behind⟩ := c
          simp only [hstored] at h
          by_cases hcrc : (crc (file.take (24 + 12 * leNat ((file.drop 8).take 8)))).toNat ≠ leNat stored
          · simp [hcrc] at h
          obtain ⟨hidx, hfile⟩ := savedIndex_of_read (Nat.le_of_not_lt hshort) (not_not.mp hmagic)
            (not_not.mp hversion) hentries hstored (not_not.mp hcrc)
          refine ⟨idx, .ofNat (leNat ((file.drop 16).take 8)), behind, data, hidx, congrArg some hfile, rfl, ?_⟩
          rw [UInt64.toNat_ofNat_of_lt' (leNat_take_lt (file.drop 16)), not_not.mp hsize]

/-- What `load_disk_index` accepts. -/
theorem loadDiskIndex_iff :
    (s.loadDiskIndex crc).2 = true ↔
      ∃ idx total rest data, Representable idx ∧ s.dir.index = some (savedIndex crc idx total ++ rest) ∧
        s.dir.data = some data ∧ data.length = total.toNat := by
  constructor
  · exact loadDiskIndex_true
  · rintro ⟨idx, total, rest, data, ⟨hlen, hidx⟩, hindex, hdata, hsize⟩
    rw [loadDiskIndex_saved_append hdata hindex hsize hlen hidx]

/-- The index file behind `save_disk_index`. -/
def savedFile (crc : List UInt8 → UInt32) (s : PersistentMessageQueue N) : Option (List UInt8) :=
  (s.saveDiskIndex crc).dir.index

theorem savedFile_of_ne (h : s.diskIndex ≠ []) :
    savedFile crc s = some (savedIndex crc s.diskIndex s.currentDiskSize) := by
  rw [savedFile, saveDiskIndex, if_neg h]
  rfl

theorem savedFile_of_eq (h : s.diskIndex = []) : savedFile crc s = none := by
  rw [savedFile, saveDiskIndex, if_pos h]

/-- `save_disk_index` leaves the data file alone. -/
theorem saveDiskIndex_data : (s.saveDiskIndex crc).dir.data = s.dir.data := by
  rw [saveDiskIndex]
  split_ifs <;> rfl

/-- A failure clears the index or leaves it. -/
theorem loadDiskIndex_cases (crc : List UInt8 → UInt32) (s : PersistentMessageQueue N) :
    (s.loadDiskIndex crc).2 = true ∨ (s.loadDiskIndex crc).1 = s ∨
      (s.loadDiskIndex crc).1 = { s with diskIndex := [] } := by
  simp only [loadDiskIndex]
  repeat' split
  all_goals first
    | exact Or.inl rfl
    | exact Or.inr (Or.inl rfl)
    | exact Or.inr (Or.inr rfl)

theorem loadDiskIndex_false (h : (s.loadDiskIndex crc).2 = false) (hs : s.diskIndex = []) :
    (s.loadDiskIndex crc).1.diskIndex = [] := by
  rcases loadDiskIndex_cases crc s with htrue | hsame | hcleared
  · rw [h] at htrue
    cases htrue
  · rw [hsame, hs]
  · rw [hcleared]

/-- **The index file.**  What `save_disk_index` writes is loaded as it was; what is loaded begins with the
image of the index, which is the file `save_disk_index` writes unless the index is empty; and a failure
leaves an empty index empty. -/
theorem index_file (crc : List UInt8 → UInt32) :
    (∀ s t : PersistentMessageQueue N, s.diskIndex ≠ [] → Representable s.diskIndex →
      s.dir.data.map List.length = some s.currentDiskSize.toNat → t.dir = (s.saveDiskIndex crc).dir →
      t.loadDiskIndex crc =
        ({ t with diskIndex := s.diskIndex, currentDiskSize := s.currentDiskSize, diskReadPos := 0 }, true)) ∧
    (∀ s : PersistentMessageQueue N, (s.loadDiskIndex crc).2 = true →
      ∃ file image, s.dir.index = some file ∧ image <+: file ∧
        image = savedIndex crc (s.loadDiskIndex crc).1.diskIndex (s.loadDiskIndex crc).1.currentDiskSize ∧
        ((s.loadDiskIndex crc).1.diskIndex ≠ [] → savedFile crc (s.loadDiskIndex crc).1 = some image)) ∧
    ∀ s : PersistentMessageQueue N, (s.loadDiskIndex crc).2 = false → s.diskIndex = [] →
      (s.loadDiskIndex crc).1.diskIndex = [] := by
  refine ⟨?_, ?_, fun s => loadDiskIndex_false⟩
  · intro s t hne hidx hsize hdir
    obtain ⟨data, hdata, hlength⟩ := Option.map_eq_some_iff.mp hsize
    have hindex : t.dir.index = some (savedIndex crc s.diskIndex s.currentDiskSize) := by
      rw [hdir]
      exact savedFile_of_ne hne
    have hdata : t.dir.data = some data := by rw [hdir, saveDiskIndex_data, hdata]
    exact loadDiskIndex_saved hdata hindex hlength hidx.1 hidx.2
  · intro s h
    obtain ⟨idx, total, rest, data, ⟨hlen, hidx⟩, hindex, hdata, hsize⟩ := loadDiskIndex_true h
    rw [loadDiskIndex_saved_append hdata hindex hsize hlen hidx]
    exact ⟨_, _, hindex, List.prefix_append _ _, rfl, savedFile_of_ne⟩

/-- A queue of one record on disk, and one that finds a file without entries. -/
def oneRecord : PersistentMessageQueue 2 :=
  { initial 2 1000 { data := some [1, 2, 3] } with diskIndex := [(0, 3)], currentDiskSize := 3 }

def entryless (crc : List UInt8 → UInt32) : PersistentMessageQueue 2 :=
  initial 2 1000 { data := some [], index := some (savedIndex crc [] 0) }

theorem index_file_oneRecord :
    ((oneRecord.saveDiskIndex fun _ => 9).loadDiskIndex fun _ => 9) =
        ({ oneRecord.saveDiskIndex (fun _ => 9) with
            diskIndex := [(0, 3)], currentDiskSize := 3, diskReadPos := 0 }, true) ∧
      (∃ file image, (oneRecord.saveDiskIndex fun _ => 9).dir.index = some file ∧ image <+: file ∧
        image = savedIndex (fun _ => 9) ((oneRecord.saveDiskIndex fun _ => 9).loadDiskIndex fun _ => 9).1.diskIndex
          ((oneRecord.saveDiskIndex fun _ => 9).loadDiskIndex fun _ => 9).1.currentDiskSize ∧
        (((oneRecord.saveDiskIndex fun _ => 9).loadDiskIndex fun _ => 9).1.diskIndex ≠ [] →
          savedFile (fun _ => 9) ((oneRecord.saveDiskIndex fun _ => 9).loadDiskIndex fun _ => 9).1 =
            some image)) ∧
      ((initial 2 1000 {}).loadDiskIndex fun _ => 9).1.diskIndex = [] := by
  have hload := (index_file fun _ => 9).1 oneRecord (oneRecord.saveDiskIndex fun _ => 9) (by decide) (by decide)
    rfl rfl
  refine ⟨hload, (index_file fun _ => 9).2.1 _ ?_, (index_file fun _ => 9).2.2 _ rfl rfl⟩
  rw [hload]

/-- A file without entries is loaded, and no call of `save_disk_index` writes what it begins with. -/
theorem entryless_not_saved :
    ((entryless fun _ => 0).loadDiskIndex fun _ => 0).2 = true ∧
      savedFile (fun _ => 0) ((entryless fun _ => 0).loadDiskIndex fun _ => 0).1 = none ∧
      ∀ (t : PersistentMessageQueue 2) image, savedFile (fun _ => 0) t = some image →
        ¬ image <+: savedIndex (fun _ => 0) [] 0 := by
  have hindex : (entryless fun _ => 0).dir.index = some (savedIndex (fun _ => 0) [] 0) := rfl
  have hload := loadDiskIndex_saved rfl hindex rfl (by decide) (by simp)
  refine ⟨by rw [hload], ?_, ?_⟩
  · rw [hload]
    exact savedFile_of_eq rfl
  · intro t image hsaved hprefix
    have hlen := hprefix.length_le
    by_cases hempty : t.diskIndex = []
    · rw [savedFile_of_eq hempty] at hsaved
      cases hsaved
    · rw [savedFile_of_ne hempty] at hsaved
      obtain rfl := Option.some.inj hsaved
      have hpos := List.length_pos_iff.mpr hempty
      simp only [savedIndex, indexContent, List.length_append, leBytes_length, length_flatMap_entryBytes,
        List.length_nil] at hlen
      omega

end PersistentMessageQueue

end LuspUpload.MQ
