import LuspUpload.MQ.Queue

/-!
# MQ.IndexFile — the index file, the recovery scan, the constructor and the destructor

`messages.idx` is a 24-byte header (magic, version, message count, size of the data file), 12 bytes for
each entry, and a CRC32 of all of that.  The CRC is a parameter: any deterministic function of the
bytes before it.

* `load_disk_index` leaves its locals indeterminate when a read is short; every path they can steer to
  returns false, so a short header is a failed magic test here and a short entry list a missing CRC.
* `rebuild_disk_index_from_data` computes the record size in `uint32_t`; when it wraps to 0 the scan never
  advances.  `scan` has fuel for one round per byte and one more, and is `none` when that runs out
  (`scan_fuel` : more fuel does not help).
-/

namespace LuspUpload.MQ

open Lib

def MAGIC_NUMBER : ℕ := 0x4D515549

def VERSION : ℕ := 1

/-- The bytes of one index entry. -/
def entryBytes (e : Entry) : List UInt8 := leBytes 8 e.1 ++ leBytes 4 e.2

/-- The index file up to its checksum. -/
def indexContent (diskIndex : List Entry) (totalDataSize : UInt64) : List UInt8 :=
  leBytes 4 MAGIC_NUMBER ++ leBytes 4 VERSION ++ leBytes 8 diskIndex.length ++
    leBytes 8 totalDataSize.toNat ++ diskIndex.flatMap entryBytes

/-- Read `n` bytes; `none` when the file ends before. -/
def readExact (n : ℕ) (bytes : List UInt8) : Option (List UInt8 × List UInt8) :=
  if n ≤ bytes.length then some (bytes.take n, bytes.drop n) else none

/-- Read `count` index entries. -/
def readEntries : ℕ → List UInt8 → Option (List Entry × List UInt8)
  | 0, bytes => some ([], bytes)
  | count + 1, bytes =>
    (readExact 8 bytes).bind fun o =>
      (readExact 4 o.2).bind fun z =>
        (readEntries count z.2).map fun r => ((leNat o.1, leNat z.1) :: r.1, r.2)

/-- The loop of `rebuild_disk_index_from_data` from `offset` on: the entries and the final offset. -/
def scan (bytes : List UInt8) : ℕ → ℕ → Option (List Entry × ℕ)
  | 0, _ => none
  | fuel + 1, offset =>
    let field := (bytes.drop (offset + 20)).take 4
    if field.length ≠ 4 then some ([], offset)
    else
      let totalSize := (HEADER_SIZE + leNat field) % 2 ^ 32
      (scan bytes fuel (offset + totalSize)).map fun r => ((offset, totalSize) :: r.1, r.2)

namespace PersistentMessageQueue

variable {N : ℕ} (crc : List UInt8 → UInt32)

/-- `load_disk_index`. -/
def loadDiskIndex (s : PersistentMessageQueue N) : PersistentMessageQueue N × Bool :=
  match s.dir.index with
  | none => (s, false)
  | some file =>
    if file.length < 24 then (s, false)
    else
      let magic := leNat (file.take 4)
      let version := leNat ((file.drop 4).take 4)
      let messageCount := leNat ((file.drop 8).take 8)
      let totalDataSize := leNat ((file.drop 16).take 8)
      if magic ≠ MAGIC_NUMBER ∨ version ≠ VERSION then (s, false)
      else
        match s.dir.data with
        -- `file_size` throws: the handler clears the index
        | none => ({ s with diskIndex := [] }, false)
        | some data =>
          if data.length ≠ totalDataSize then (s, false)
          else
            match readEntries messageCount (file.drop 24) with
            | none => ({ s with diskIndex := [] }, false)
            | some (entries, rest) =>
              match readExact 4 rest with
              | none => ({ s with diskIndex := [] }, false)
              | some (storedCrc, _) =>
                if (crc (file.take (24 + 12 * messageCount))).toNat ≠ leNat storedCrc then
                  ({ s with diskIndex := [] }, false)
                else
                  ({ s with
                      diskIndex := entries
                      currentDiskSize := .ofNat totalDataSize
                      diskReadPos := 0 }, true)

/-- `save_disk_index`: all entries, the read ones included, and the byte counter. -/
def saveDiskIndex (s : PersistentMessageQueue N) : PersistentMessageQueue N :=
  if s.diskIndex = [] then { s with dir := { s.dir with index := none } }
  else
    let content := indexContent s.diskIndex s.currentDiskSize
    { s with dir := { s.dir with index := some (content ++ leBytes 4 (crc content).toNat) } }

/-- `rebuild_disk_index_from_data`; `none` when the scan never ends. -/
def rebuildDiskIndexFromData (s : PersistentMessageQueue N) : Option (PersistentMessageQueue N) :=
  match s.dir.data with
  | none => some s
  | some data =>
    (scan data (data.length + 1) 0).map fun r =>
      { s with diskIndex := r.1, currentDiskSize := .ofNat r.2, diskReadPos := 0 }

/-- `rebuild_disk_index`: the index file if it is usable, else the scan. -/
def rebuildDiskIndex (s : PersistentMessageQueue N) : Option (PersistentMessageQueue N) :=
  let l := s.loadDiskIndex crc
  if l.2 then some l.1 else l.1.rebuildDiskIndexFromData

/-- The constructor. -/
def construct (N : ℕ) [NeZero N] (maxDiskSize : UInt64) (dir : Dir) :
    Option (PersistentMessageQueue N) :=
  let s := initial N maxDiskSize dir
  if dir.data.isSome then s.rebuildDiskIndex crc else some s

/-- The destructor, which leaves the directory behind. -/
def destroy (s : PersistentMessageQueue N) : Option Dir :=
  (if 0 < s.getStatistics.memorySize then s.flushToDisk.map (·.1) else some s).map fun s =>
    if 0 < s.getStatistics.diskSize then (s.saveDiskIndex crc).dir else s.dir

/-- The queue that the constructor makes on an empty directory. -/
abbrev fresh (N : ℕ) [NeZero N] (maxDiskSize : UInt64) : PersistentMessageQueue N :=
  initial N maxDiskSize {}

/-- `load_disk_index` touches the index, its read position and the byte counter only; when it fails,
only the index. -/
theorem loadDiskIndex_frame (s : PersistentMessageQueue N) :
    (∃ i c, s.loadDiskIndex crc =
      ({ s with diskIndex := i, currentDiskSize := c, diskReadPos := 0 }, true)) ∨
    ∃ i, s.loadDiskIndex crc = ({ s with diskIndex := i }, false) := by
  simp only [loadDiskIndex]
  repeat' split
  all_goals first
    | exact Or.inr ⟨_, rfl⟩
    | exact Or.inl ⟨_, _, rfl⟩

end PersistentMessageQueue

/-! ### Running out of fuel -/

section Scan

variable {bytes : List UInt8} {r : List Entry × ℕ}

theorem scan_mono {fuel fuel' offset : ℕ} (hle : fuel ≤ fuel') (h : scan bytes fuel offset = some r) :
    scan bytes fuel' offset = some r := by
  induction fuel generalizing fuel' offset r with
  | zero => simp [scan] at h
  | succ fuel ih =>
    obtain ⟨k, rfl⟩ := Nat.exists_eq_add_of_le' (Nat.zero_lt_of_lt hle)
    rw [scan] at h ⊢
    by_cases hlen : ((bytes.drop (offset + 20)).take 4).length ≠ 4
    · rw [if_pos hlen] at h ⊢
      exact h
    · rw [if_neg hlen] at h ⊢
      rw [Option.map_eq_some_iff] at h ⊢
      obtain ⟨r', hr', rfl⟩ := h
      exact ⟨r', ih (by omega) hr', rfl⟩

/-- A scan that ends within some fuel ends within one round per remaining byte and one more: every
round but an endless one advances. -/
theorem scan_fuel {fuel offset : ℕ} (h : scan bytes fuel offset = some r) :
    scan bytes (bytes.length - offset + 1) offset = some r := by
  induction fuel generalizing offset r with
  | zero => simp [scan] at h
  | succ fuel ih =>
    rw [scan] at h ⊢
    by_cases hlen : ((bytes.drop (offset + 20)).take 4).length ≠ 4
    · rw [if_pos hlen] at h ⊢
      exact h
    · rw [if_neg hlen] at h ⊢
      rw [Option.map_eq_some_iff] at h ⊢
      obtain ⟨r', hr', rfl⟩ := h
      refine ⟨r', ?_, rfl⟩
      set total := (HEADER_SIZE + leNat ((bytes.drop (offset + 20)).take 4)) % 2 ^ 32 with htotal
      by_cases h0 : total = 0
      · -- the round repeats itself: no fuel ends it
        exfalso
        have hstuck : ∀ n, scan bytes n offset = none := by
          intro n
          induction n with
          | zero => rfl
          | succ n ihn =>
            rw [scan, if_neg hlen]
            simp only [← htotal, h0, Nat.add_zero, ihn, Option.map_none]
        rw [h0, Nat.add_zero, hstuck] at hr'
        exact absurd hr' (by simp)
      · have hin : offset < bytes.length := by
          simp only [List.length_take, List.length_drop] at hlen
          omega
        exact scan_mono (by omega) (ih hr')

end Scan

end LuspUpload.MQ
