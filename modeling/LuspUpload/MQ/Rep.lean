import LuspUpload.MQ.Steps

/-!
# MQ.Rep — the queue refines the two-tier queue

`Rep s a`: the state `s` represents the two-tier queue `a` — the ring window holds `a.mem`, all ready;
`messages.dat` is the concatenation of the records of `a.log`; the disk index is the layout of that log
and its read position is the length of `a.taken`; both streams are good.  One lemma for each case of
each operation; `step_refines` puts them together: as long as file operations succeed every call
returns, and what it does is a sequence of moves of `Lib.TwoTier`.
-/

namespace LuspUpload.MQ

open Lib

/-! ### Logs and their layout -/

/-- The bytes of a log. -/
def records (ms : List IpcMessage) : List UInt8 := ms.flatMap serializeMessage

/-- The index entries of a log written from `offset` on. -/
def layout : ℕ → List IpcMessage → List Entry
  | _, [] => []
  | offset, m :: ms => (offset, recordSize m) :: layout (offset + recordSize m) ms

section Layout

variable {ms ms' : List IpcMessage} {m : IpcMessage} {offset : ℕ}

@[simp] theorem records_nil : records [] = [] := rfl

@[simp] theorem records_cons : records (m :: ms) = serializeMessage m ++ records ms := rfl

@[simp] theorem records_append : records (ms ++ ms') = records ms ++ records ms' :=
  List.flatMap_append

@[simp] theorem layout_length : (layout offset ms).length = ms.length := by
  induction ms generalizing offset with
  | nil => rfl
  | cons m ms ih => simp [layout, ih]

theorem layout_append (h : ∀ m ∈ ms, m.Fits) :
    layout offset (ms ++ ms') = layout offset ms ++ layout (offset + (records ms).length) ms' := by
  induction ms generalizing offset with
  | nil => simp [layout]
  | cons m ms ih =>
    have hm : m.Fits := h m (by simp)
    rw [List.cons_append, layout, ih fun m' hm' => h m' (by simp [hm'])]
    simp only [layout, records_cons, List.length_append, length_serializeMessage hm,
      List.cons_append, Nat.add_assoc]

/-- Reading the entry of a record inside a file gives the record. -/
theorem readAt_record {pre post : List UInt8} (h : m.Fits) :
    IStream.readAt (pre ++ (serializeMessage m ++ post)) pre.length (recordSize m) (.opened false) =
      (serializeMessage m, .opened false) := by
  rw [← length_serializeMessage h, IStream.readAt_of_le (by simp)]
  simp

/-- The entries of a log that ends a file decode to the messages of the log, one by one. -/
theorem map_decode_layout {pre : List UInt8} (h : ∀ m ∈ ms, m.Fits) :
    ((layout pre.length ms).map fun e =>
      deserializeMessage (IStream.readAt (pre ++ records ms) e.1 e.2 (.opened false)).1) = ms.map some := by
  induction ms generalizing pre with
  | nil => rfl
  | cons m ms ih =>
    have hm : m.Fits := h m (by simp)
    have hpre : pre.length + recordSize m = (pre ++ serializeMessage m).length := by
      rw [List.length_append, length_serializeMessage hm]
    rw [layout, List.map_cons, records_cons, readAt_record hm,
      deserializeMessage_serializeMessage hm, hpre, ← List.append_assoc,
      ih fun m' hm' => h m' (by simp [hm']), List.map_cons]

theorem decode_layout {pre : List UInt8} (h : ∀ m ∈ ms, m.Fits) :
    ((layout pre.length ms).filterMap fun e =>
      deserializeMessage (IStream.readAt (pre ++ records ms) e.1 e.2 (.opened false)).1) = ms := by
  have hall := congrArg (List.filterMap id) (@map_decode_layout ms pre h)
  rw [List.filterMap_map, List.filterMap_map] at hall
  simpa using hall

end Layout

namespace PersistentMessageQueue

variable {N : ℕ}

/-- The slot of a message in the ring window. -/
def readyNode (m : IpcMessage) : MemoryNode := ⟨m, true⟩

/-- The state `s` represents the two-tier queue `a`. -/
structure Rep (s : PersistentMessageQueue N) (a : TwoTier IpcMessage) : Prop where
  mem : s.ring.contents = a.mem.map readyNode
  bytes : s.dir.bytes = records a.log
  index : s.diskIndex = layout 0 a.log
  pos : s.diskReadPos = a.taken.length
  fits_mem : ∀ m ∈ a.mem, m.Fits
  fits_log : ∀ m ∈ a.log, m.Fits
  outcomes : s.dir.outcomes = []
  writer : (s.dataWriter = .closed ∧ s.dir.data = none) ∨
    (s.dataWriter = .opened false true ∧ s.dir.data.isSome)
  reader : s.dataReader = .closed ∨ s.dataReader = .opened false

theorem rep_initial [NeZero N] (maxDiskSize : UInt64) :
    Rep (initial N maxDiskSize {}) TwoTier.empty where
  mem := by rw [Ring.contents_of_empty (by rfl)]; rfl
  bytes := rfl
  index := rfl
  pos := rfl
  fits_mem := by simp [TwoTier.empty]
  fits_log := by simp [TwoTier.empty, TwoTier.log]
  outcomes := rfl
  writer := Or.inl ⟨rfl, rfl⟩
  reader := Or.inl rfl

section Tiers

variable {s : PersistentMessageQueue N} {a : TwoTier IpcMessage} {m t u : List IpcMessage}
  {x : IpcMessage}

theorem Rep.ringMessages (h : Rep s a) : s.ringMessages = a.mem := by
  simp [PersistentMessageQueue.ringMessages, h.mem, readyNode, Function.comp_def]

theorem Rep.unreadEntries (h : Rep s a) :
    s.unreadEntries = layout (records a.taken).length a.unread := by
  have htaken : ∀ m ∈ a.taken, m.Fits := fun m hm => h.fits_log m (by simp [TwoTier.log, hm])
  rw [PersistentMessageQueue.unreadEntries, h.index, h.pos, TwoTier.log, layout_append htaken,
    List.drop_left' (by simp)]
  simp

theorem Rep.diskMessages (h : Rep s a) : s.diskMessages = a.unread := by
  have hunread : ∀ m ∈ a.unread, m.Fits := fun m hm => h.fits_log m (by simp [TwoTier.log, hm])
  rw [PersistentMessageQueue.diskMessages, h.unreadEntries, h.bytes, TwoTier.log, records_append]
  exact decode_layout hunread

theorem Rep.stored (h : Rep s a) : s.stored = a.stored := by
  rw [PersistentMessageQueue.stored, h.ringMessages, h.diskMessages, TwoTier.stored]

/-- `size` counts the stored messages. -/
theorem Rep.size (h : Rep s a) : s.size = a.stored.length := by
  have hring : s.ring.len = a.mem.length := by
    rw [← Ring.length_contents, h.mem, List.length_map]
  have hdisk : s.diskIndex.length - s.diskReadPos = a.unread.length := by
    rw [h.index, h.pos, layout_length, TwoTier.log, List.length_append, Nat.add_sub_cancel_left]
  rw [PersistentMessageQueue.size, hring, hdisk, TwoTier.stored, List.length_append]

theorem Rep.empty_iff (h : Rep s a) : s.ring.Empty ↔ a.mem = [] := by
  rw [Ring.empty_iff_len, ← Ring.length_contents, h.mem, List.length_map, List.length_eq_zero_iff]

theorem Rep.head (h : Rep s ⟨x :: m, t, u⟩) :
    s.ring.head = readyNode x ∧ s.ring.advance.contents = m.map readyNode := by
  have hne : ¬ s.ring.Empty := by simp [h.empty_iff]
  have := h.mem
  rw [Ring.contents_cons hne] at this
  exact ⟨(List.cons.inj this).1, (List.cons.inj this).2⟩

theorem Rep.no_entry (h : Rep s ⟨m, t, []⟩) : s.diskIndex[s.diskReadPos]? = none := by
  rw [List.getElem?_eq_none_iff, h.index, h.pos, layout_length]
  simp [TwoTier.log]

/-- The first unread entry is that of the first unread message, and reads as its record. -/
theorem Rep.entry (h : Rep s ⟨m, t, x :: u⟩) :
    s.diskIndex[s.diskReadPos]? = some ((records t).length, recordSize x) ∧
    IStream.readAt s.dir.bytes (records t).length (recordSize x) (.opened false) =
      (serializeMessage x, .opened false) ∧ s.dir.data.isSome := by
  have ht : ∀ y ∈ t, y.Fits := fun y hy => h.fits_log y (by simp [TwoTier.log, hy])
  have hx : x.Fits := h.fits_log x (by simp [TwoTier.log])
  have hread : IStream.readAt s.dir.bytes (records t).length (recordSize x) (.opened false) =
      (serializeMessage x, .opened false) := by
    rw [h.bytes, TwoTier.log, records_append, records_cons]
    exact readAt_record hx
  refine ⟨?_, hread, ?_⟩
  · rw [h.index, h.pos, TwoTier.log, layout_append ht,
      List.getElem?_append_right (by simp)]
    simp [layout]
  · rcases h.writer with ⟨-, hdata⟩ | ⟨-, hdata⟩
    · have hlen := congrArg List.length h.bytes
      rw [Dir.bytes, hdata, TwoTier.log, records_append, records_cons] at hlen
      simp only [Option.getD_none, List.length_nil, List.length_append,
        length_serializeMessage hx] at hlen
      have := recordSize_pos x
      omega
    · exact hdata

theorem Rep.fetch (h : Rep s ⟨m, t, x :: u⟩) :
    s.fetch ((records t).length, recordSize x) = (serializeMessage x, .opened false) := by
  obtain ⟨-, hread, hdata⟩ := h.entry
  have hopen : s.dataReader.reopen s.dir.data = .opened false := by
    rcases h.reader with hr | hr <;> simp [hr, IStream.reopen, hdata]
  rw [PersistentMessageQueue.fetch, hopen]
  exact hread

theorem Rep.decode (h : Rep s ⟨m, t, x :: u⟩) :
    deserializeMessage (serializeMessage x) = some x :=
  deserializeMessage_serializeMessage (h.fits_log x (by simp [TwoTier.log]))

end Tiers

end PersistentMessageQueue

end LuspUpload.MQ
