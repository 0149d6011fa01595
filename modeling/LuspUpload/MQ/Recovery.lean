import LuspUpload.MQ.IndexFile
import LuspUpload.MQ.Rep
import Mathlib.Tactic.NormNum

/-!
# MQ.Recovery — what the constructor finds in a directory

* `loadDiskIndex_saved` : the index file read back, exactly when the data file has the recorded size.
* `scan_records` : the recovery scan walks through whole records and stops at a tail of fewer than 24
  bytes (`scan_end`).
* `construct_records` : on a data file of whole records, with no index file or a saved one, the new
  queue holds every message of the file.
-/

namespace LuspUpload.MQ

open Lib

/-! ### The index file -/

section IndexRoundTrip

variable {idx : List Entry} {total : UInt64} {tail : List UInt8}

theorem readExact_append {n : ℕ} {pre rest : List UInt8} (h : pre.length = n) :
    readExact n (pre ++ rest) = some (pre, rest) := by
  subst h
  simp [readExact]

@[simp] theorem entryBytes_length (e : Entry) : (entryBytes e).length = 12 := by
  simp [entryBytes]

theorem length_flatMap_entryBytes : (idx.flatMap entryBytes).length = 12 * idx.length := by
  induction idx with
  | nil => rfl
  | cons e idx ih =>
    rw [List.flatMap_cons, List.length_append, entryBytes_length, ih, List.length_cons]
    omega

theorem readEntries_entryBytes (h : ∀ e ∈ idx, e.1 < 2 ^ 64 ∧ e.2 < 2 ^ 32) :
    readEntries idx.length (idx.flatMap entryBytes ++ tail) = some (idx, tail) := by
  induction idx with
  | nil => rfl
  | cons e idx ih =>
    obtain ⟨ho, hz⟩ := h e (by simp)
    have hsplit : (e :: idx).flatMap entryBytes ++ tail =
        leBytes 8 e.1 ++ (leBytes 4 e.2 ++ (idx.flatMap entryBytes ++ tail)) := by
      simp [entryBytes]
    rw [hsplit, List.length_cons, readEntries, readExact_append (by simp), Option.bind_some,
      readExact_append (by simp), Option.bind_some, ih fun e' he' => h e' (by simp [he'])]
    have ho' : leNat (leBytes 8 e.1) = e.1 := leNat_leBytes_of_lt (by omega)
    have hz' : leNat (leBytes 4 e.2) = e.2 := leNat_leBytes_of_lt (by omega)
    simp [ho', hz']

/-- The header fields and the entry list of an index file. -/
theorem indexContent_fields :
    24 ≤ (indexContent idx total ++ tail).length ∧
    leNat ((indexContent idx total ++ tail).take 4) = MAGIC_NUMBER ∧
    leNat (((indexContent idx total ++ tail).drop 4).take 4) = VERSION ∧
    leNat (((indexContent idx total ++ tail).drop 8).take 8) = idx.length % 2 ^ 64 ∧
    leNat (((indexContent idx total ++ tail).drop 16).take 8) = total.toNat ∧
    (indexContent idx total ++ tail).drop 24 = idx.flatMap entryBytes ++ tail := by
  set rest := idx.flatMap entryBytes ++ tail with hrest
  have h₀ : indexContent idx total ++ tail = leBytes 4 MAGIC_NUMBER ++ (leBytes 4 VERSION ++
      (leBytes 8 idx.length ++ (leBytes 8 total.toNat ++ rest))) := by
    simp [indexContent, hrest]
  have h₈ : indexContent idx total ++ tail = (leBytes 4 MAGIC_NUMBER ++ leBytes 4 VERSION) ++
      (leBytes 8 idx.length ++ (leBytes 8 total.toNat ++ rest)) := by simp [h₀]
  have h₁₆ : indexContent idx total ++ tail = (leBytes 4 MAGIC_NUMBER ++ leBytes 4 VERSION ++
      leBytes 8 idx.length) ++ (leBytes 8 total.toNat ++ rest) := by simp [h₀]
  have h₂₄ : indexContent idx total ++ tail = (leBytes 4 MAGIC_NUMBER ++ leBytes 4 VERSION ++
      leBytes 8 idx.length ++ leBytes 8 total.toNat) ++ rest := by simp [h₀]
  refine ⟨?_, ?_, ?_, ?_, ?_, ?_⟩
  · rw [h₂₄]
    simp only [List.length_append, leBytes_length]
    omega
  · rw [h₀, List.take_left' (by simp)]
    rfl
  · rw [h₀, List.drop_left' (by simp), List.take_left' (by simp)]
    rfl
  · rw [h₈, List.drop_left' (by simp), List.take_left' (by simp), leNat_leBytes]
    norm_num
  · rw [h₁₆, List.drop_left' (by simp), List.take_left' (by simp)]
    exact leNat_leBytes_of_lt total.toNat_lt
  · rw [h₂₄]
    exact List.drop_left' (by simp)

end IndexRoundTrip

/-! ### The recovery scan -/

section ScanRecords

variable {ms : List IpcMessage} {pre tail : List UInt8}

/-- The scan stops where fewer than 24 bytes are left. -/
theorem scan_end {bytes : List UInt8} {offset : ℕ} (h : bytes.length < offset + 24) (fuel : ℕ) :
    scan bytes (fuel + 1) offset = some ([], offset) := by
  have hshort : ((bytes.drop (offset + 20)).take 4).length ≠ 4 := by
    simp only [List.length_take, List.length_drop]
    omega
  rw [scan]
  exact if_pos hshort

/-- One round at a whole record header. -/
theorem scan_record {m : IpcMessage} (h : m.Fits) {body : List UInt8} (fuel : ℕ) :
    scan (pre ++ ((serializeMessage m).take HEADER_SIZE ++ body)) (fuel + 1) pre.length =
      (scan (pre ++ ((serializeMessage m).take HEADER_SIZE ++ body)) fuel
        (pre.length + recordSize m)).map fun r => ((pre.length, recordSize m) :: r.1, r.2) := by
  have hhead : ((serializeMessage m).take HEADER_SIZE).length = 24 := by
    rw [List.length_take, length_serializeMessage h, recordSize, HEADER_SIZE]
    omega
  have hfield : ((pre ++ ((serializeMessage m).take HEADER_SIZE ++ body)).drop (pre.length + 20)).take 4 =
      ((serializeMessage m).drop 20).take 4 := by
    rw [List.drop_length_add_append, List.drop_append_of_le_length (by omega),
      List.take_append_of_le_length (by simp [hhead]), List.drop_take]
    simp [HEADER_SIZE]
  have hlen : (((serializeMessage m).drop 20).take 4).length = 4 := by
    simp only [List.length_take, List.length_drop, length_serializeMessage h, recordSize, HEADER_SIZE]
    omega
  have hsize : (HEADER_SIZE + leNat (((serializeMessage m).drop 20).take 4)) % 2 ^ 32 = recordSize m := by
    have := dataSize_serializeMessage h []
    rw [List.append_nil] at this
    rw [this]
    exact Nat.mod_eq_of_lt (recordSize_lt h)
  rw [scan, hfield]
  simp only [hlen, ne_eq, not_true_eq_false, if_false, hsize]

/-- The scan walks through whole records. -/
theorem scan_records (h : ∀ m ∈ ms, m.Fits) (fuel : ℕ) :
    scan (pre ++ (records ms ++ tail)) (ms.length + fuel) pre.length =
      (scan (pre ++ (records ms ++ tail)) fuel (pre.length + (records ms).length)).map
        fun r => (layout pre.length ms ++ r.1, r.2) := by
  induction ms generalizing pre with
  | nil => simp [layout]
  | cons m ms ih =>
    have hm : m.Fits := h m (by simp)
    have hsplit : pre ++ (records (m :: ms) ++ tail) = pre ++ ((serializeMessage m).take HEADER_SIZE ++
        ((serializeMessage m).drop HEADER_SIZE ++ (records ms ++ tail))) := by
      rw [← List.append_assoc (List.take _ _), List.take_append_drop, records_cons, List.append_assoc]
    have hnext : pre ++ (records (m :: ms) ++ tail) =
        (pre ++ serializeMessage m) ++ (records ms ++ tail) := by simp
    have hpos : pre.length + recordSize m = (pre ++ serializeMessage m).length := by
      rw [List.length_append, length_serializeMessage hm]
    rw [List.length_cons, Nat.add_right_comm, hsplit, scan_record hm, ← hsplit, hnext, hpos,
      ih fun m' hm' => h m' (by simp [hm']), Option.map_map]
    simp only [layout, hpos, List.length_append, records_cons, Nat.add_assoc]
    rfl

end ScanRecords

/-- The index file that `save_disk_index` writes. -/
def savedIndex (crc : List UInt8 → UInt32) (idx : List Entry) (total : UInt64) : List UInt8 :=
  indexContent idx total ++ leBytes 4 (crc (indexContent idx total)).toNat

namespace PersistentMessageQueue

variable {N : ℕ} {crc : List UInt8 → UInt32} {s : PersistentMessageQueue N} {idx : List Entry}
  {total : UInt64} {data : List UInt8} {ms : List IpcMessage}

/-- A saved index is loaded if the data file has the size it records, whatever follows it. -/
theorem loadDiskIndex_saved_append {rest : List UInt8} (hdata : s.dir.data = some data)
    (hindex : s.dir.index = some (savedIndex crc idx total ++ rest)) (hsize : data.length = total.toNat)
    (hlen : idx.length < 2 ^ 64) (hidx : ∀ e ∈ idx, e.1 < 2 ^ 64 ∧ e.2 < 2 ^ 32) :
    s.loadDiskIndex crc =
      ({ s with diskIndex := idx, currentDiskSize := total, diskReadPos := 0 }, true) := by
  set sum := leBytes 4 (crc (indexContent idx total)).toNat with hsum
  have hfile : savedIndex crc idx total ++ rest = indexContent idx total ++ (sum ++ rest) := by
    rw [savedIndex, List.append_assoc]
  rw [hfile] at hindex
  obtain ⟨h₁, h₂, h₃, h₄, h₅, h₆⟩ := @indexContent_fields idx total (sum ++ rest)
  rw [Nat.mod_eq_of_lt hlen] at h₄
  have hcrc : readExact 4 (sum ++ rest) = some (sum, rest) := readExact_append (by simp [hsum])
  have hcontent : (indexContent idx total ++ (sum ++ rest)).take (24 + 12 * idx.length) =
      indexContent idx total := by
    refine List.take_left' ?_
    simp only [indexContent, List.length_append, leBytes_length, length_flatMap_entryBytes]
  have hnat : leNat sum = (crc (indexContent idx total)).toNat :=
    leNat_leBytes_of_lt (crc _).toNat_lt
  have htotal : UInt64.ofNat total.toNat = total := UInt64.ofNat_toNat
  simp only [loadDiskIndex, hindex, hdata, h₂, h₃, h₄, h₅, h₆, hsize, readEntries_entryBytes hidx, hcrc,
    hcontent, hnat, htotal, Nat.not_lt.mpr h₁, if_false, ne_eq, not_true_eq_false, or_self]

theorem loadDiskIndex_saved (hdata : s.dir.data = some data)
    (hindex : s.dir.index = some (savedIndex crc idx total)) (hsize : data.length = total.toNat)
    (hlen : idx.length < 2 ^ 64) (hidx : ∀ e ∈ idx, e.1 < 2 ^ 64 ∧ e.2 < 2 ^ 32) :
    s.loadDiskIndex crc =
      ({ s with diskIndex := idx, currentDiskSize := total, diskReadPos := 0 }, true) := by
  rw [← List.append_nil (savedIndex crc idx total)] at hindex
  exact loadDiskIndex_saved_append hdata hindex hsize hlen hidx

theorem loadDiskIndex_mismatch (hdata : s.dir.data = some data)
    (hindex : s.dir.index = some (savedIndex crc idx total)) (hsize : data.length ≠ total.toNat) :
    s.loadDiskIndex crc = (s, false) := by
  obtain ⟨h₁, h₂, h₃, -, h₅, -⟩ :=
    @indexContent_fields idx total (leBytes 4 (crc (indexContent idx total)).toNat)
  simp only [savedIndex] at hindex
  simp only [loadDiskIndex, hindex, hdata, h₂, h₃, h₅, Nat.not_lt.mpr h₁, if_false, ne_eq,
    not_true_eq_false, or_self, hsize, not_false_eq_true, if_true]

/-- The slow path on a data file of whole records. -/
theorem rebuildDiskIndexFromData_records (hdata : s.dir.data = some (records ms))
    (h : ∀ m ∈ ms, m.Fits) : s.rebuildDiskIndexFromData = some { s with
      diskIndex := layout 0 ms
      currentDiskSize := .ofNat (records ms).length
      diskReadPos := 0 } := by
  have hscan : scan (records ms) (ms.length + 1) 0 = some (layout 0 ms, (records ms).length) := by
    have := @scan_records ms [] [] h 1
    simp only [List.nil_append, List.append_nil, List.length_nil, Nat.zero_add] at this
    rw [this, scan_end (by omega)]
    simp
  have hfuel := scan_fuel hscan
  rw [Nat.sub_zero] at hfuel
  rw [rebuildDiskIndexFromData, hdata]
  simp only [hfuel, Option.map_some]

/-- The queue that holds the messages of a data file of whole records, all unread. -/
structure Restored (s : PersistentMessageQueue N) (ms : List IpcMessage) : Prop where
  ring : s.ring.Empty
  bytes : s.dir.bytes = records ms
  index : s.diskIndex = layout 0 ms
  pos : s.diskReadPos = 0

theorem Restored.stored (hs : Restored s ms) (h : ∀ m ∈ ms, m.Fits) : s.stored = ms := by
  have hring : s.ringMessages = [] := by simp [ringMessages, Ring.contents_of_empty hs.ring]
  have hdisk : s.diskMessages = ms := by
    rw [diskMessages, unreadEntries, hs.index, hs.pos, hs.bytes]
    exact @decode_layout _ [] h
  rw [PersistentMessageQueue.stored, hring, hdisk, List.nil_append]

theorem stored_initial [NeZero N] (maxDiskSize : UInt64) (dir : Dir) :
    (initial N maxDiskSize dir).stored = [] := by
  have hring : (initial N maxDiskSize dir).ringMessages = [] := by
    rw [ringMessages, Ring.contents_of_empty (by rfl), List.map_nil]
  rw [PersistentMessageQueue.stored, hring]
  rfl

theorem length_layout_le (h : ∀ m ∈ ms, m.Fits) : ms.length ≤ (records ms).length := by
  induction ms with
  | nil => simp
  | cons m ms ih =>
    have hpos := recordSize_pos m
    have := ih fun m' hm' => h m' (by simp [hm'])
    rw [records_cons, List.length_append, length_serializeMessage (h m (by simp)), List.length_cons]
    omega

/-- The entries of a log lie inside it. -/
theorem layout_bounds (h : ∀ m ∈ ms, m.Fits) {offset : ℕ} :
    ∀ e ∈ layout offset ms, e.1 ≤ offset + (records ms).length ∧ e.2 < 2 ^ 32 := by
  induction ms generalizing offset with
  | nil => simp [layout]
  | cons m ms ih =>
    intro e he
    have hm : m.Fits := h m (by simp)
    rw [records_cons, List.length_append, length_serializeMessage hm]
    rcases List.mem_cons.mp he with rfl | he
    · exact ⟨by simp, recordSize_lt hm⟩
    · obtain ⟨h₁, h₂⟩ := ih (fun m' hm' => h m' (by simp [hm'])) e he
      exact ⟨by omega, h₂⟩

/-- **Recovery**: on a data file of whole records, with no index file or a saved one, the constructor
makes a queue that holds all of them. -/
theorem construct_records [NeZero N] {maxDiskSize : UInt64} {dir : Dir}
    (hdata : dir.data = some (records ms)) (h : ∀ m ∈ ms, m.Fits)
    (hindex : dir.index = none ∨ ∃ total, dir.index = some (savedIndex crc (layout 0 ms) total)) :
    ∃ s, construct crc N maxDiskSize dir = some s ∧ Restored s ms := by
  have hbytes : dir.bytes = records ms := by simp [Dir.bytes, hdata]
  have hsome : dir.data.isSome = true := by simp [hdata]
  have hslow : (initial N maxDiskSize dir).loadDiskIndex crc = (initial N maxDiskSize dir, false) →
      ∃ s, construct crc N maxDiskSize dir = some s ∧ Restored s ms := by
    intro hload
    have hs : construct crc N maxDiskSize dir =
        (initial N maxDiskSize dir).rebuildDiskIndexFromData := by
      rw [construct, if_pos hsome, rebuildDiskIndex, hload]
      exact if_neg Bool.false_ne_true
    exact ⟨_, hs.trans (rebuildDiskIndexFromData_records hdata h), rfl, hbytes, rfl, rfl⟩
  rcases hindex with hindex | ⟨total, hindex⟩
  · refine hslow ?_
    have hnone : (initial N maxDiskSize dir).dir.index = none := hindex
    simp only [loadDiskIndex, hnone]
  · by_cases hsize : (records ms).length = total.toNat
    · have hlt : (records ms).length < 2 ^ 64 := hsize ▸ total.toNat_lt
      have hload := loadDiskIndex_saved (s := initial N maxDiskSize dir) hdata hindex hsize
        (by rw [layout_length]; exact (length_layout_le h).trans_lt hlt)
        (fun e he => ⟨by have := (layout_bounds h e he).1; omega, (layout_bounds h e he).2⟩)
      have hs : construct crc N maxDiskSize dir =
          some ((initial N maxDiskSize dir).loadDiskIndex crc).1 := by
        rw [construct, if_pos hsome, rebuildDiskIndex]
        exact if_pos (by rw [hload])
      rw [hload] at hs
      exact ⟨_, hs, rfl, hbytes, rfl, rfl⟩
    · exact hslow (loadDiskIndex_mismatch (s := initial N maxDiskSize dir) hdata hindex hsize)

end PersistentMessageQueue

end LuspUpload.MQ
