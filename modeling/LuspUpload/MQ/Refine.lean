import LuspUpload.MQ.Rep

/-!
# MQ.Refine — what each operation does to the represented queue

Case lemmas for the operations of `MQ.Queue` on a represented state, then `step_refines`.
-/

namespace LuspUpload.MQ

open Lib

namespace PersistentMessageQueue

variable {N : ℕ}

section Cases

variable {s : PersistentMessageQueue N} {a : TwoTier IpcMessage} {m t u : List IpcMessage}
  {x : IpcMessage}

/-- `Rep` looks at the ring, the directory, the streams and the index only. -/
theorem Rep.congr {s' : PersistentMessageQueue N} (h : Rep s a) (hring : s'.ring = s.ring)
    (hdir : s'.dir = s.dir) (hw : s'.dataWriter = s.dataWriter) (hr : s'.dataReader = s.dataReader)
    (hindex : s'.diskIndex = s.diskIndex) (hpos : s'.diskReadPos = s.diskReadPos) : Rep s' a where
  mem := by rw [hring]; exact h.mem
  bytes := by rw [hdir]; exact h.bytes
  index := by rw [hindex]; exact h.index
  pos := by rw [hpos]; exact h.pos
  fits_mem := h.fits_mem
  fits_log := h.fits_log
  outcomes := by rw [hdir]; exact h.outcomes
  writer := by rw [hw, hdir]; exact h.writer
  reader := by rw [hr]; exact h.reader

/-- Replacing the ring replaces the memory tier. -/
theorem Rep.setRing {r : Ring N MemoryNode} {mem : List IpcMessage} {e d : UInt64} (h : Rep s a)
    (hr : r.contents = mem.map readyNode) (hmem : ∀ y ∈ mem, y.Fits) :
    Rep { s with ring := r, totalEnqueued := e, totalDequeued := d } { a with mem := mem } where
  mem := hr
  bytes := h.bytes
  index := h.index
  pos := h.pos
  fits_mem := hmem
  fits_log := h.fits_log
  outcomes := h.outcomes
  writer := h.writer
  reader := h.reader

/-- Reading past the first unread entry. -/
theorem Rep.advanceLog {r : IStream} {c e d : UInt64} (h : Rep s ⟨m, t, x :: u⟩)
    (hr : r = .closed ∨ r = .opened false) :
    Rep { s with dataReader := r, diskReadPos := s.diskReadPos + 1, currentDiskSize := c,
                 totalEnqueued := e, totalDequeued := d } ⟨m, t ++ [x], u⟩ where
  mem := h.mem
  bytes := by rw [h.bytes]; simp [TwoTier.log]
  index := by simp only [h.index, TwoTier.log, List.append_assoc, List.singleton_append]
  pos := by simp [h.pos]
  fits_mem := h.fits_mem
  fits_log := by
    have := h.fits_log
    simpa [TwoTier.log] using this
  outcomes := h.outcomes
  writer := h.writer
  reader := hr

/-- A successful `write_to_disk` appends to the log. -/
theorem Rep.writeToDisk (h : Rep s a) (hx : x.Fits) (hroom : s.currentDiskSize < s.maxDiskSize) :
    (s.writeToDisk x).2 = true ∧
      Rep (s.writeToDisk x).1 { a with unread := a.unread ++ [x] } := by
  have hlog : ({ a with unread := a.unread ++ [x] } : TwoTier IpcMessage).log = a.log ++ [x] := by
    simp [TwoTier.log]
  have hwriter : (s.dataWriter = .closed ∧ s.dir.bytes = []) ∨
      (s.dataWriter = .opened false true ∧ s.dir.data.isSome) := by
    rcases h.writer with ⟨hw, hd⟩ | hw
    · exact Or.inl ⟨hw, by rw [Dir.bytes, hd]; rfl⟩
    · exact Or.inr hw
  have hsize : (serializeMessage x).length % 2 ^ 32 = recordSize x := by
    rw [length_serializeMessage hx]
    exact Nat.mod_eq_of_lt (recordSize_lt hx)
  rw [writeToDisk_inPlace s x h.outcomes hwriter hroom, hsize]
  refine ⟨rfl, h.mem, ?_, ?_, h.pos, h.fits_mem, ?_, h.outcomes, Or.inr ⟨rfl, rfl⟩, h.reader⟩
  · rw [hlog, records_append, records_cons, records_nil, List.append_nil, ← h.bytes]
    rfl
  · show s.diskIndex ++ _ = _
    rw [hlog, layout_append h.fits_log, h.index, h.bytes]
    simp [layout]
  · rw [hlog]
    intro y hy
    rcases List.mem_append.mp hy with hy | hy
    · exact h.fits_log y hy
    · rw [List.mem_singleton] at hy
      exact hy ▸ hx

/-! ### `enqueue` -/

theorem stamp_fits (s : PersistentMessageQueue N) (hx : x.Fits) : (s.stamp x).Fits := by
  unfold stamp
  split_ifs
  · exact hx
  · exact hx

@[simp] theorem bumpId_ring (s : PersistentMessageQueue N) (x : IpcMessage) :
    (s.bumpId x).ring = s.ring := by
  unfold bumpId; split_ifs <;> rfl

theorem Rep.bumpId (h : Rep s a) : Rep (s.bumpId x) a := by
  unfold PersistentMessageQueue.bumpId
  split_ifs
  · exact h.congr rfl rfl rfl rfl rfl rfl
  · exact h

theorem bumpId_frame (s : PersistentMessageQueue N) (x : IpcMessage) :
    (s.bumpId x).totals = s.totals ∧ (s.bumpId x).currentDiskSize = s.currentDiskSize ∧
      (s.bumpId x).maxDiskSize = s.maxDiskSize := by
  unfold bumpId; split_ifs <;> exact ⟨rfl, rfl, rfl⟩

/-- `enqueue` with room in the ring. -/
theorem Rep.enqueue_put (h : Rep s a) (hx : x.Fits) (hfull : ¬ s.ring.Full) :
    (s.enqueue x).2 = true ∧ Rep (s.enqueue x).1 { a with mem := a.mem ++ [s.stamp x] } ∧
      (s.enqueue x).1.totals = (s.totalEnqueued + 1, s.totalDequeued) := by
  have hb := bumpId_frame s x
  simp only [PersistentMessageQueue.enqueue, bumpId_ring, if_neg hfull, true_and]
  refine ⟨h.bumpId.setRing ?_ ?_, ?_⟩
  · rw [Ring.contents_put hfull, h.mem]
    simp [readyNode]
  · intro y hy
    rcases List.mem_append.mp hy with hy | hy
    · exact h.fits_mem y hy
    · rw [List.mem_singleton] at hy
      exact hy ▸ stamp_fits s hx
  · have := hb.1
    simp only [totals, Prod.mk.injEq] at this ⊢
    exact ⟨by rw [this.1], this.2⟩

/-- `enqueue` with a full ring and room on disk. -/
theorem Rep.enqueue_spill (h : Rep s a) (hx : x.Fits) (hfull : s.ring.Full)
    (hroom : s.currentDiskSize < s.maxDiskSize) :
    (s.enqueue x).2 = true ∧ Rep (s.enqueue x).1 { a with unread := a.unread ++ [s.stamp x] } ∧
      (s.enqueue x).1.totals = (s.totalEnqueued + 1, s.totalDequeued) := by
  obtain ⟨hbt, hbc, hbm⟩ := bumpId_frame s x
  obtain ⟨hok, hrep⟩ := (h.bumpId (x := x)).writeToDisk (stamp_fits s hx)
    (by rw [hbc, hbm]; exact hroom)
  have ht := writeToDisk_totals (s.bumpId x) (s.stamp x)
  simp only [PersistentMessageQueue.enqueue, bumpId_ring, if_pos hfull, hok, if_true, true_and]
  refine ⟨hrep.congr rfl rfl rfl rfl rfl rfl, ?_⟩
  rw [hbt] at ht
  simp only [totals, Prod.mk.injEq] at ht ⊢
  exact ⟨by rw [ht.1], ht.2⟩

/-- `enqueue` with a full ring and a full disk. -/
theorem Rep.enqueue_refuse (h : Rep s a) (hfull : s.ring.Full)
    (hroom : ¬ s.currentDiskSize < s.maxDiskSize) :
    (s.enqueue x).2 = false ∧ Rep (s.enqueue x).1 a ∧ (s.enqueue x).1.totals = s.totals := by
  obtain ⟨hbt, hbc, hbm⟩ := bumpId_frame s x
  have hno : ((s.bumpId x).writeToDisk (s.stamp x)).2 = false := by
    rw [writeToDisk_snd, hbc, hbm]
    simpa using hroom
  have hsame := writeToDisk_refused _ _ hno
  simp only [PersistentMessageQueue.enqueue, bumpId_ring, if_pos hfull, hno, hsame,
    Bool.false_eq_true, if_false, true_and]
  exact ⟨h.bumpId, hbt⟩

/-! ### Removing the head -/

/-- The ring after its head slot is emptied. -/
theorem Rep.dropHead {node : MemoryNode} (h : Rep s ⟨x :: m, t, u⟩) :
    (s.ring.setHead node).advance.contents = m.map readyNode := by
  have hne : ¬ s.ring.Empty := by simp [h.empty_iff]
  rw [Ring.contents_setHead_advance hne]
  exact h.head.2

theorem Rep.front_mem (h : Rep s ⟨x :: m, t, u⟩) : s.front = some x := by
  have hne : ¬ s.ring.Empty := by simp [h.empty_iff]
  rw [PersistentMessageQueue.front, if_neg hne, h.head.1]
  rfl

theorem Rep.front_disk (h : Rep s ⟨[], t, x :: u⟩) : s.front = some x := by
  have he : s.ring.Empty := by simp [h.empty_iff]
  obtain ⟨hentry, hread, -⟩ := h.entry
  simp [PersistentMessageQueue.front, if_pos he, hentry, hread, h.decode]

theorem Rep.dequeue_mem (h : Rep s ⟨x :: m, t, u⟩) :
    ∃ s', s.dequeue = some (s', some x) ∧ Rep s' ⟨m, t, u⟩ ∧
      s'.totals = (s.totalEnqueued, s.totalDequeued + 1) := by
  have hne : ¬ s.ring.Empty := by simp [h.empty_iff]
  refine ⟨_, ?_, h.setRing (@Rep.dropHead _ _ _ _ _ _ ⟨{ x with data := [] }, false⟩ h) ?_, rfl⟩
  · rw [PersistentMessageQueue.dequeue, if_neg hne, h.head.1]
    rfl
  · exact fun y hy => h.fits_mem y (by simp [hy])

theorem Rep.dequeue_disk (h : Rep s ⟨[], t, x :: u⟩) :
    ∃ s', s.dequeue = some (s', some x) ∧ Rep s' ⟨[], t ++ [x], u⟩ ∧
      s'.totals = (s.totalEnqueued, s.totalDequeued + 1) := by
  have he : s.ring.Empty := by simp [h.empty_iff]
  refine ⟨_, ?_, h.advanceLog (c := s.currentDiskSize - .ofNat (recordSize x)) (Or.inr rfl), rfl⟩
  rw [PersistentMessageQueue.dequeue, if_pos he]
  simp only [readFromDisk, h.entry.1, h.fetch, h.decode, Option.isSome_some, if_true]

theorem Rep.dequeue_empty (h : Rep s ⟨[], t, []⟩) : s.dequeue = some (s, none) := by
  have he : s.ring.Empty := by simp [h.empty_iff]
  simp [PersistentMessageQueue.dequeue, if_pos he, readFromDisk, h.no_entry]

theorem Rep.popFront_mem (h : Rep s ⟨x :: m, t, u⟩) :
    ∃ s', s.popFront = some (s', true) ∧ Rep s' ⟨m, t, u⟩ ∧
      s'.totals = (s.totalEnqueued, s.totalDequeued + 1) := by
  have hne : ¬ s.ring.Empty := by simp [h.empty_iff]
  refine ⟨_, ?_, h.setRing (@Rep.dropHead _ _ _ _ _ _ ⟨x, false⟩ h) ?_, rfl⟩
  · rw [PersistentMessageQueue.popFront, if_neg hne, h.head.1]
    rfl
  · exact fun y hy => h.fits_mem y (by simp [hy])

theorem Rep.popFront_disk (h : Rep s ⟨[], t, x :: u⟩) :
    ∃ s', s.popFront = some (s', true) ∧ Rep s' ⟨[], t ++ [x], u⟩ ∧
      s'.totals = (s.totalEnqueued, s.totalDequeued + 1) := by
  have he : s.ring.Empty := by simp [h.empty_iff]
  refine ⟨_, ?_, h.advanceLog (c := s.currentDiskSize - .ofNat (recordSize x)) h.reader, rfl⟩
  rw [PersistentMessageQueue.popFront, if_pos he]
  simp only [h.entry.1]

theorem Rep.popFront_empty (h : Rep s ⟨[], t, []⟩) : s.popFront = some (s, false) := by
  have he : s.ring.Empty := by simp [h.empty_iff]
  simp [PersistentMessageQueue.popFront, if_pos he, h.no_entry]

/-- `peek` returns the head and never waits. -/
theorem Rep.peek (h : Rep s a) : s.peek = some a.stored.head? := by
  obtain ⟨m, t, u⟩ := a
  cases m with
  | cons x m =>
    have hne : ¬ s.ring.Empty := by simp [h.empty_iff]
    rw [PersistentMessageQueue.peek, if_neg hne, h.head.1]
    rfl
  | nil =>
    have he : s.ring.Empty := by simp [h.empty_iff]
    rw [PersistentMessageQueue.peek, if_pos he]
    cases u with
    | nil => simp [h.no_entry, TwoTier.stored]
    | cons x u =>
      obtain ⟨hentry, hread, hdata⟩ := h.entry
      obtain ⟨bytes, hbytes⟩ := Option.isSome_iff_exists.mp hdata
      have hb : s.dir.bytes = bytes := by simp [Dir.bytes, hbytes]
      rw [hb] at hread
      simp [hentry, hbytes, hread, h.decode, TwoTier.stored]

end Cases

/-! ### The loops -/

/-- The loop of `load_from_disk` moves messages from the log to the memory tier; it moves none only
when there is none or the ring is full. -/
theorem Rep.loadLoop {u : List IpcMessage} : ∀ {s : PersistentMessageQueue N} {m t : List IpcMessage},
    Rep s ⟨m, t, u⟩ → ∃ a', Rep (loadLoop s.unreadEntries s).1 a' ∧ TwoTier.Moves ⟨m, t, u⟩ [] a' ∧
      (loadLoop s.unreadEntries s).1.totals = s.totals ∧ (a'.taken = t ↔ u = [] ∨ s.ring.Full) := by
  induction u with
  | nil =>
    intro s m t h
    rw [h.unreadEntries]
    exact ⟨_, h, .refl _, rfl, by simp⟩
  | cons x u ih =>
    intro s m t h
    have hes : s.unreadEntries = ((records t).length, recordSize x) ::
        layout (records (t ++ [x])).length u := by
      have hx : x.Fits := h.fits_log x (by simp [TwoTier.log])
      rw [h.unreadEntries]
      simp [layout, length_serializeMessage hx]
    rw [hes, PersistentMessageQueue.loadLoop]
    by_cases hfull : s.ring.Full
    · rw [if_pos hfull]
      exact ⟨_, h, .refl _, rfl, by simp [hfull]⟩
    · rw [if_neg hfull]
      simp only [h.fetch, h.decode]
      set s' : PersistentMessageQueue N := { s with
        dataReader := .opened false
        ring := s.ring.put ⟨x, true⟩
        diskReadPos := s.diskReadPos + 1 } with hs'
      have hmem : ∀ y ∈ m ++ [x], y.Fits := by
        intro y hy
        rcases List.mem_append.mp hy with hy | hy
        · exact h.fits_mem y hy
        · rw [List.mem_singleton] at hy
          exact hy ▸ h.fits_log x (by simp [TwoTier.log])
      have hrep : Rep s' ⟨m ++ [x], t ++ [x], u⟩ := by
        refine (h.advanceLog (r := .opened false) (c := s.currentDiskSize) (e := s.totalEnqueued)
          (d := s.totalDequeued) (Or.inr rfl)).setRing ?_ hmem
        rw [Ring.contents_put hfull, h.mem]
        simp [readyNode]
      obtain ⟨a', hrep', hmoves, htot, -⟩ := ih hrep
      rw [hrep.unreadEntries] at hrep' htot
      refine ⟨a', hrep', TwoTier.Moves.head (.load m t u x) hmoves, htot, ?_⟩
      simp only [hfull, or_false, reduceCtorEq, iff_false]
      intro he
      have := hmoves.log_prefix.2.length_le
      simp [he] at this

theorem Rep.flushLoop {m : List IpcMessage} : ∀ {s : PersistentMessageQueue N} {t u : List IpcMessage}
    {fuel : ℕ}, Rep s ⟨m, t, u⟩ → m.length < fuel → ∃ s' k m' u', flushLoop fuel s = some (s', k) ∧
      Rep s' ⟨m', t, u'⟩ ∧ TwoTier.Moves ⟨m, t, u⟩ [] ⟨m', t, u'⟩ ∧ s'.totals = s.totals ∧
      (m' = [] ∨ ¬ s'.currentDiskSize < s'.maxDiskSize) := by
  induction m with
  | nil =>
    intro s t u fuel h hfuel
    obtain ⟨fuel, rfl⟩ := Nat.exists_eq_add_of_lt hfuel
    have he : s.ring.Empty := by simp [h.empty_iff]
    exact ⟨s, 0, [], u, by simp [PersistentMessageQueue.flushLoop, he], h, .refl _, rfl, Or.inl rfl⟩
  | cons x m ih =>
    intro s t u fuel h hfuel
    obtain ⟨fuel, rfl⟩ := Nat.exists_eq_add_of_lt (Nat.zero_lt_of_lt hfuel)
    simp only [Nat.zero_add, List.length_cons] at hfuel ⊢
    have hne : ¬ s.ring.Empty := by simp [h.empty_iff]
    have hx : x.Fits := h.fits_mem x (by simp)
    have hawait : s.ring.head.await = some x := by rw [h.head.1]; rfl
    by_cases hroom : s.currentDiskSize < s.maxDiskSize
    · obtain ⟨hok, hrep⟩ := h.writeToDisk hx hroom
      set w := (s.writeToDisk x).1 with hw
      have hrep' : Rep { w with ring := (w.ring.setHead ⟨x, false⟩).advance } ⟨m, t, u ++ [x]⟩ :=
        hrep.setRing hrep.dropHead fun y hy => h.fits_mem y (by simp [hy])
      obtain ⟨s', k, m', u', hrun, hrep'', hmoves, htot, hend⟩ :=
        ih hrep' (show m.length < fuel by omega)
      refine ⟨s', k + 1, m', u', ?_, hrep'', TwoTier.Moves.head (.flush m t u x) hmoves, ?_, hend⟩
      · rw [PersistentMessageQueue.flushLoop, if_neg hne, hawait]
        simp only [Option.bind_some, hok, if_true, ← hw, hrun, Option.map_some]
      · exact htot.trans (writeToDisk_totals s x)
    · have hno : (s.writeToDisk x).2 = false := by simp [writeToDisk_snd, hroom]
      have hsame := writeToDisk_refused _ _ hno
      refine ⟨s, 0, x :: m, u, ?_, h, .refl _, rfl, Or.inr hroom⟩
      rw [PersistentMessageQueue.flushLoop, if_neg hne, hawait]
      simp [hno, hsame]

theorem Rep.flushToDisk {s : PersistentMessageQueue N} {m t u : List IpcMessage}
    (h : Rep s ⟨m, t, u⟩) : ∃ s' k m' u', s.flushToDisk = some (s', k) ∧ Rep s' ⟨m', t, u'⟩ ∧
      TwoTier.Moves ⟨m, t, u⟩ [] ⟨m', t, u'⟩ ∧ s'.totals = s.totals ∧
      (m' = [] ∨ ¬ s'.currentDiskSize < s'.maxDiskSize) := by
  refine h.flushLoop ?_
  rw [← Ring.length_contents, h.mem, List.length_map]
  exact Nat.lt_succ_self _

/-! ### One call -/

/-- The call reads a message from the disk tier. -/
def TakesFromDisk (s : PersistentMessageQueue N) : Op → Prop
  | .dequeue => s.ring.Empty ∧ s.diskReadPos < s.diskIndex.length
  | .popFront => s.ring.Empty ∧ s.diskReadPos < s.diskIndex.length
  | .loadFromDisk => ¬ s.ring.Full ∧ s.diskReadPos < s.diskIndex.length
  | _ => False

instance (s : PersistentMessageQueue N) : ∀ op, Decidable (s.TakesFromDisk op)
  | .dequeue => @instDecidableAnd _ _ inferInstance (Nat.decLt _ _)
  | .popFront => @instDecidableAnd _ _ inferInstance (Nat.decLt _ _)
  | .loadFromDisk => @instDecidableAnd _ _ inferInstance (Nat.decLt _ _)
  | .enqueue _ => .isFalse id
  | .peek => .isFalse id
  | .flushToDisk => .isFalse id
  | .clear => .isFalse id

theorem Rep.unread_iff {s : PersistentMessageQueue N} {a : TwoTier IpcMessage} (h : Rep s a) :
    s.diskReadPos < s.diskIndex.length ↔ a.unread ≠ [] := by
  rw [h.index, h.pos, layout_length, TwoTier.log, List.length_append, ← List.length_pos_iff]
  omega

/-- The counters of `s` after the events `es`. -/
def totalsAfter (s : PersistentMessageQueue N) (es : List (Event IpcMessage)) : UInt64 × UInt64 :=
  (s.totalEnqueued + .ofNat (Event.accepts es).length,
    s.totalDequeued + .ofNat (Event.removes es).length)

@[simp] theorem totalsAfter_nil (s : PersistentMessageQueue N) : s.totalsAfter [] = s.totals := by
  simp [totalsAfter, totals, Event.accepts, Event.removes]

@[simp] theorem totalsAfter_accepted (s : PersistentMessageQueue N) (x : IpcMessage) :
    s.totalsAfter [.accepted x] = (s.totalEnqueued + 1, s.totalDequeued) := by
  simp [totalsAfter, Event.accepts, Event.removes]

@[simp] theorem totalsAfter_removed (s : PersistentMessageQueue N) (x : IpcMessage) :
    s.totalsAfter [.removed x] = (s.totalEnqueued, s.totalDequeued + 1) := by
  simp [totalsAfter, Event.accepts, Event.removes]

/-- What a call does to the represented queue. -/
structure StepRefines [NeZero N] (s : PersistentMessageQueue N) (a : TwoTier IpcMessage) (op : Op)
    (s' : PersistentMessageQueue N) (es : List (Event IpcMessage)) (a' : TwoTier IpcMessage) :
    Prop where
  step : step s op = some (s', es)
  rep : Rep s' a'
  moves : TwoTier.Moves a es a'
  totals : s'.totals = s.totalsAfter es
  taken : a'.taken = a.taken ↔ ¬ s.TakesFromDisk op

/-- **Refinement**: every call but `clear` returns and moves the represented queue. -/
theorem step_refines [NeZero N] {s : PersistentMessageQueue N} {a : TwoTier IpcMessage} (h : Rep s a)
    {op : Op} (hop : op.Fits) (hclear : op ≠ .clear) :
    ∃ s' es a', StepRefines s a op s' es a' := by
  obtain ⟨m, t, u⟩ := a
  cases op with
  | enqueue x =>
    by_cases hfull : s.ring.Full
    · by_cases hroom : s.currentDiskSize < s.maxDiskSize
      · obtain ⟨hok, hrep, htot⟩ := h.enqueue_spill hop hfull hroom
        exact ⟨_, _, _, by simp only [PersistentMessageQueue.step, hok, if_true], hrep,
          .single (.spill m t u (s.stamp x)), by simpa using htot, by simp [TakesFromDisk]⟩
      · obtain ⟨hok, hrep, htot⟩ := h.enqueue_refuse (x := x) hfull hroom
        exact ⟨_, [], _, by simp [PersistentMessageQueue.step, hok], hrep, .refl _,
          by simpa using htot, by simp [TakesFromDisk]⟩
    · obtain ⟨hok, hrep, htot⟩ := h.enqueue_put hop hfull
      exact ⟨_, _, _, by simp only [PersistentMessageQueue.step, hok, if_true], hrep,
        .single (.put m t u (s.stamp x)), by simpa using htot, by simp [TakesFromDisk]⟩
  | dequeue =>
    cases m with
    | cons x m =>
      have hne : ¬ s.ring.Empty := by simp [h.empty_iff]
      obtain ⟨s', hs', hrep, htot⟩ := h.dequeue_mem
      exact ⟨s', [.removed x], _, by simp [PersistentMessageQueue.step, hs'], hrep,
        .single (.take m t u x), by simpa using htot, by simp [TakesFromDisk, hne]⟩
    | nil =>
      have he : s.ring.Empty := by simp [h.empty_iff]
      cases u with
      | cons x u =>
        obtain ⟨s', hs', hrep, htot⟩ := h.dequeue_disk
        exact ⟨s', [.removed x], _, by simp [PersistentMessageQueue.step, hs'], hrep,
          .single (.takeLog t u x), by simpa using htot, by simp [TakesFromDisk, he, h.unread_iff]⟩
      | nil =>
        exact ⟨s, [], _, by simp [PersistentMessageQueue.step, h.dequeue_empty], h, .refl _,
          by simp, by simp [TakesFromDisk, h.unread_iff]⟩
  | peek =>
    exact ⟨s, [], _, by simp [PersistentMessageQueue.step, h.peek], h, .refl _,
      by simp, by simp [TakesFromDisk]⟩
  | popFront =>
    cases m with
    | cons x m =>
      have hne : ¬ s.ring.Empty := by simp [h.empty_iff]
      obtain ⟨s', hs', hrep, htot⟩ := h.popFront_mem
      exact ⟨s', [.removed x], _, by simp [PersistentMessageQueue.step, hs', h.front_mem], hrep,
        .single (.take m t u x), by simpa using htot, by simp [TakesFromDisk, hne]⟩
    | nil =>
      have he : s.ring.Empty := by simp [h.empty_iff]
      cases u with
      | cons x u =>
        obtain ⟨s', hs', hrep, htot⟩ := h.popFront_disk
        exact ⟨s', [.removed x], _, by simp [PersistentMessageQueue.step, hs', h.front_disk], hrep,
          .single (.takeLog t u x), by simpa using htot, by simp [TakesFromDisk, he, h.unread_iff]⟩
      | nil =>
        exact ⟨s, [], _, by simp [PersistentMessageQueue.step, h.popFront_empty], h, .refl _,
          by simp, by simp [TakesFromDisk, h.unread_iff]⟩
  | loadFromDisk =>
    obtain ⟨a', hrep, hmoves, htot, htaken⟩ := h.loadLoop
    refine ⟨_, [], a', rfl, hrep, hmoves, ?_, ?_⟩
    · rw [totalsAfter_nil]
      exact htot
    · rw [htaken, TakesFromDisk, h.unread_iff]
      tauto
  | flushToDisk =>
    obtain ⟨s', k, m', u', hs', hrep, hmoves, htot, -⟩ := h.flushToDisk
    refine ⟨s', [], _, by simp [PersistentMessageQueue.step, hs'], hrep, hmoves, ?_,
      by simp [TakesFromDisk]⟩
    rw [htot, totalsAfter_nil]
  | clear => exact absurd rfl hclear

/-- **Refinement of runs**; the part of the log read back is unchanged exactly when no call takes a
message from the disk tier. -/
theorem run_refines [NeZero N] {s : PersistentMessageQueue N} {a : TwoTier IpcMessage} (h : Rep s a)
    {ops : List Op} (hops : ∀ op ∈ ops, op.Fits ∧ op ≠ .clear) :
    ∃ s' es a', (machine N).run s ops = some (s', es) ∧ Rep s' a' ∧ TwoTier.Moves a es a' ∧
      (a'.taken = a.taken ↔ (machine N).Along (fun s op => ¬ s.TakesFromDisk op) s ops) := by
  induction ops generalizing s a with
  | nil => exact ⟨s, [], a, rfl, h, .refl a, by simp [Machine.Along]⟩
  | cons op ops ih =>
    obtain ⟨hfits, hclear⟩ := hops op (by simp)
    obtain ⟨s₁, es₁, a₁, h₁⟩ := step_refines h hfits hclear
    obtain ⟨s₂, es₂, a₂, hrun, h₂, hmoves, htaken⟩ :=
      ih h₁.rep fun op' hop' => hops op' (by simp [hop'])
    have hstep : (machine N).step s op = some (s₁, es₁) := h₁.step
    refine ⟨s₂, es₁ ++ es₂, a₂, Machine.run_cons hstep hrun, h₂, h₁.moves.trans hmoves, ?_⟩
    have hpre₁ := h₁.moves.log_prefix.2
    have hpre₂ := hmoves.log_prefix.2
    rw [Machine.along_cons, hstep]
    simp only [Option.some.injEq, forall_eq']
    rw [← h₁.taken, ← htaken]
    constructor
    · intro heq
      have hlen := hpre₂.length_le
      rw [heq] at hlen
      have h₁eq : a.taken = a₁.taken := hpre₁.eq_of_length_le hlen
      exact ⟨h₁eq.symm, heq.trans h₁eq⟩
    · rintro ⟨h₁eq, h₂eq⟩
      exact h₂eq.trans h₁eq

end PersistentMessageQueue

end LuspUpload.MQ
