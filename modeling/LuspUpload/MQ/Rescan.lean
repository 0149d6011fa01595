import LuspUpload.MQ.Recovery

/-!
# MQ.Rescan — the scan finds what was recorded

`write_to_disk` records the position that the stream reports and the length of the buffer;
`rebuild_disk_index_from_data` finds positions again by hopping over the length fields.  On a file that
`write_to_disk` made from the start the two agree (`rescan_recorded`).  A `write_to_disk` that gives up,
because the limit is reached, writes nothing.
-/

namespace LuspUpload.MQ

open Lib

namespace PersistentMessageQueue

variable {N : ℕ}

/-- Successive calls of `write_to_disk`, with the messages that they write. -/
def writeEach : List IpcMessage → PersistentMessageQueue N → PersistentMessageQueue N × List IpcMessage
  | [], s => (s, [])
  | m :: ms, s =>
    let w := s.writeToDisk m
    let r := writeEach ms w.1
    (r.1, if w.2 then m :: r.2 else r.2)

/-- There is no `messages.dat`, and writing it will not fail. -/
structure New (s : PersistentMessageQueue N) : Prop where
  data : s.dir.data = none
  writer : s.dataWriter = .closed
  index : s.diskIndex = []
  outcomes : s.dir.outcomes = []

theorem new_fresh [NeZero N] (maxDiskSize : UInt64) : New (fresh N maxDiskSize) := ⟨rfl, rfl, rfl, rfl⟩

/-- `clear` removes the file and closes the streams. -/
theorem new_clear [NeZero N] {s : PersistentMessageQueue N} (h : s.dir.outcomes = []) : New s.clear :=
  ⟨rfl, rfl, rfl, h⟩

/-- The file holds the records of the log, and the index their positions. -/
structure Recorded (s : PersistentMessageQueue N) (log : List IpcMessage) : Prop where
  bytes : s.dir.bytes = records log
  index : s.diskIndex = layout 0 log
  fits : ∀ m ∈ log, m.Fits
  outcomes : s.dir.outcomes = []
  writer : (s.dataWriter = .closed ∧ s.dir.data = none) ∨
    (s.dataWriter = .opened false true ∧ s.dir.data.isSome)

section Writes

variable {s : PersistentMessageQueue N} {log ms : List IpcMessage} {m : IpcMessage}

theorem New.recorded (h : New s) : Recorded s [] where
  bytes := by rw [Dir.bytes, h.data]; rfl
  index := h.index
  fits := by simp
  outcomes := h.outcomes
  writer := Or.inl ⟨h.writer, h.data⟩

/-- A write that is not refused appends the record and its position. -/
theorem Recorded.write (h : Recorded s log) (hm : m.Fits) (hok : (s.writeToDisk m).2 = true) :
    Recorded (s.writeToDisk m).1 (log ++ [m]) := by
  have hroom : s.currentDiskSize < s.maxDiskSize := by simpa [writeToDisk_snd] using hok
  have hwriter : (s.dataWriter = .closed ∧ s.dir.bytes = []) ∨
      (s.dataWriter = .opened false true ∧ s.dir.data.isSome) := by
    refine h.writer.imp_left ?_
    rintro ⟨hclosed, hdata⟩
    exact ⟨hclosed, by rw [Dir.bytes, hdata]; rfl⟩
  have hsize : (serializeMessage m).length % 2 ^ 32 = recordSize m := by
    rw [length_serializeMessage hm]
    exact Nat.mod_eq_of_lt (recordSize_lt hm)
  rw [writeToDisk_inPlace s m h.outcomes hwriter hroom, hsize]
  refine ⟨?_, ?_, ?_, h.outcomes, Or.inr ⟨rfl, rfl⟩⟩
  · show s.dir.bytes ++ _ = _
    rw [h.bytes, records_append, records_cons, records_nil, List.append_nil]
  · show s.diskIndex ++ _ = _
    rw [layout_append h.fits, h.index, h.bytes]
    simp [layout]
  · intro x hx
    rcases List.mem_append.mp hx with hx | hx
    · exact h.fits x hx
    · rw [List.mem_singleton] at hx
      exact hx ▸ hm

theorem Recorded.writeEach (h : Recorded s log) (hms : ∀ m ∈ ms, m.Fits) :
    Recorded (writeEach ms s).1 (log ++ (writeEach ms s).2) := by
  induction ms generalizing s log with
  | nil => simpa [PersistentMessageQueue.writeEach] using h
  | cons m ms ih =>
    have hrest : ∀ x ∈ ms, x.Fits := fun x hx => hms x (List.mem_cons_of_mem _ hx)
    rw [PersistentMessageQueue.writeEach]
    by_cases hok : (s.writeToDisk m).2
    · have hwritten := ih (h.write (hms m List.mem_cons_self) hok) hrest
      simpa [hok] using hwritten
    · have hsame := writeToDisk_refused s m (by simpa using hok)
      simp only [hok, hsame]
      exact ih h hrest

/-- The scan of a log finds the index of the log. -/
theorem Recorded.rescan (h : Recorded s log) (M : ℕ) [NeZero M] (maxDiskSize : UInt64) :
    (initial M maxDiskSize s.dir).rebuildDiskIndexFromData = some { initial M maxDiskSize s.dir with
      diskIndex := s.diskIndex
      currentDiskSize := .ofNat s.dir.bytes.length } := by
  rcases hdata : s.dir.data with _ | data
  · -- nothing was written, and there is no file to scan
    have hbytes : s.dir.bytes = [] := by rw [Dir.bytes, hdata]; rfl
    have hindex : s.diskIndex = [] := by
      have hlen := congrArg List.length h.bytes
      rw [hbytes] at hlen
      rcases log with _ | ⟨m, log⟩
      · exact h.index
      · have hpos := recordSize_pos m
        rw [records_cons, List.length_append, length_serializeMessage (h.fits m List.mem_cons_self),
          List.length_nil] at hlen
        omega
    have hnone : (initial M maxDiskSize s.dir).dir.data = none := hdata
    simp only [rebuildDiskIndexFromData, hnone, hindex, hbytes]
    rfl
  · have hbytes : s.dir.bytes = data := by rw [Dir.bytes, hdata]; rfl
    have hrecords : (initial M maxDiskSize s.dir).dir.data = some (records log) := by
      rw [← h.bytes, hbytes]
      exact hdata
    rw [rebuildDiskIndexFromData_records hrecords h.fits, h.index, h.bytes]
    rfl

end Writes

/-- **The scan finds what was recorded**: after any calls of `write_to_disk` to a new `messages.dat`, a
queue that scans the file gets the index that was recorded and the length of the file, and every entry
reads back as the message that was written. -/
theorem rescan_recorded {s : PersistentMessageQueue N} (hs : New s) (ms : List IpcMessage)
    (hms : ∀ m ∈ ms, m.Fits) (M : ℕ) [NeZero M] (maxDiskSize : UInt64) :
    ∃ t, (initial M maxDiskSize (writeEach ms s).1.dir).rebuildDiskIndexFromData = some t ∧
      t.diskIndex = (writeEach ms s).1.diskIndex ∧
      t.currentDiskSize = .ofNat (writeEach ms s).1.dir.bytes.length ∧
      (t.diskIndex.map fun e =>
        deserializeMessage (IStream.readAt t.dir.bytes e.1 e.2 (.opened false)).1) =
        (writeEach ms s).2.map some := by
  have hrecorded := hs.recorded.writeEach hms
  rw [List.nil_append] at hrecorded
  refine ⟨_, hrecorded.rescan M maxDiskSize, rfl, rfl, ?_⟩
  show ((writeEach ms s).1.diskIndex.map fun e =>
    deserializeMessage (IStream.readAt (writeEach ms s).1.dir.bytes e.1 e.2 (.opened false)).1) = _
  rw [hrecorded.index, hrecorded.bytes]
  exact @map_decode_layout _ [] hrecorded.fits

/-- Two messages, the second one empty, in a queue whose limit the third one meets. -/
theorem rescan_recorded_refused : ∃ t : PersistentMessageQueue 3,
    (initial 3 7 (writeEach [⟨1, 5, 0, [65, 66]⟩, ⟨2, 6, 1, []⟩, ⟨3, 7, 2, [67]⟩]
      (fresh 2 50)).1.dir).rebuildDiskIndexFromData = some t ∧
    t.diskIndex = [(0, 26), (26, 24)] ∧ t.currentDiskSize = 50 ∧
    (t.diskIndex.map fun e =>
      deserializeMessage (IStream.readAt t.dir.bytes e.1 e.2 (.opened false)).1) =
      [some ⟨1, 5, 0, [65, 66]⟩, some ⟨2, 6, 1, []⟩] :=
  rescan_recorded (new_fresh 50) [⟨1, 5, 0, [65, 66]⟩, ⟨2, 6, 1, []⟩, ⟨3, 7, 2, [67]⟩] (by decide) 3 7

end PersistentMessageQueue

end LuspUpload.MQ
