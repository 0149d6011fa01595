import LuspUpload.MQ.Queue
import Mathlib.Tactic.Common

/-!
# MQ.Steps — what the calls do to a queue

`write_to_disk` frames, and what a call other than `clear` is made of: parts that put a ready message in
the ring, drop the ring's head, append a record, consume an entry or move counters (`step_trace`).
What every part keeps is kept by the call (`Trace.keeps`, `Keeps.step`).  No assumption on the file
operations.
-/

namespace LuspUpload.MQ

open Lib

namespace PersistentMessageQueue

variable {N : ℕ}

/-- The two counters. -/
def totals (s : PersistentMessageQueue N) : UInt64 × UInt64 := (s.totalEnqueued, s.totalDequeued)

section Frames

variable (s : PersistentMessageQueue N) (x : IpcMessage)

@[simp] theorem writeToDisk_ring : (s.writeToDisk x).1.ring = s.ring := by
  unfold writeToDisk; split_ifs <;> rfl

@[simp] theorem writeToDisk_totals : (s.writeToDisk x).1.totals = s.totals := by
  unfold writeToDisk; split_ifs <;> rfl

@[simp] theorem writeToDisk_index : (s.writeToDisk x).1.dir.index = s.dir.index := by
  unfold writeToDisk; split_ifs <;> rfl

@[simp] theorem writeToDisk_nextMessageId : (s.writeToDisk x).1.nextMessageId = s.nextMessageId := by
  unfold writeToDisk; split_ifs <;> rfl

/-- `write_to_disk` refuses exactly when the byte counter has reached the limit. -/
theorem writeToDisk_snd : (s.writeToDisk x).2 = decide (s.currentDiskSize < s.maxDiskSize) := by
  unfold writeToDisk
  split_ifs with h
  · simpa using h
  · simpa using h

theorem writeToDisk_refused (h : (s.writeToDisk x).2 = false) : (s.writeToDisk x).1 = s := by
  unfold writeToDisk at h ⊢
  split_ifs at h ⊢
  rfl

/-- A write that succeeds on a good stream, at the position the stream reports: the first one into an
empty file, or a later one. -/
theorem writeToDisk_whole (houtcome : s.dir.outcome = {})
    (hwriter : (s.dataWriter = .closed ∧ s.dir.bytes = []) ∨
      (s.dataWriter = .opened false true ∧ s.dir.data.isSome))
    (hroom : s.currentDiskSize < s.maxDiskSize) :
    s.writeToDisk x = ({ s with
      dir := { s.dir with
        data := some (s.dir.bytes ++ serializeMessage x), outcomes := s.dir.outcomes.tail }
      dataWriter := .opened false true
      diskIndex := s.diskIndex ++ [(s.dir.bytes.length, (serializeMessage x).length % 2 ^ 32)]
      currentDiskSize := s.currentDiskSize + .ofNat (serializeMessage x).length }, true) := by
  have hgo : ¬ s.maxDiskSize ≤ s.currentDiskSize := by simpa using hroom
  -- both writer states end in the same file: the old bytes and the record
  have hoff : (s.dataWriter.reopen true).tellp s.dir.bytes.length = s.dir.bytes.length := by
    rcases hwriter with ⟨hw, hd⟩ | ⟨hw, -⟩
    · simp [hw, OStream.reopen, OStream.tellp, hd]
    · simp [hw, OStream.reopen, OStream.tellp]
  have hwrite : (s.dataWriter.reopen true).write none (serializeMessage x) =
      (.opened false true, serializeMessage x) := by
    rcases hwriter with ⟨hw, -⟩ | ⟨hw, -⟩ <;> simp [hw, OStream.reopen, OStream.write]
  have hfile : ((s.dataWriter.reopen true).create s.dir.data).map (· ++ serializeMessage x) =
      some (s.dir.bytes ++ serializeMessage x) := by
    rcases hwriter with ⟨hw, -⟩ | ⟨hw, -⟩ <;>
      simp [hw, OStream.reopen, OStream.create, Dir.bytes]
  rw [writeToDisk, if_neg hgo]
  simp only [houtcome, hoff, hwrite, hfile]

/-- So is every write where all of them succeed. -/
theorem writeToDisk_inPlace (hout : s.dir.outcomes = [])
    (hwriter : (s.dataWriter = .closed ∧ s.dir.bytes = []) ∨
      (s.dataWriter = .opened false true ∧ s.dir.data.isSome))
    (hroom : s.currentDiskSize < s.maxDiskSize) :
    s.writeToDisk x = ({ s with
      dir := { s.dir with data := some (s.dir.bytes ++ serializeMessage x) }
      dataWriter := .opened false true
      diskIndex := s.diskIndex ++ [(s.dir.bytes.length, (serializeMessage x).length % 2 ^ 32)]
      currentDiskSize := s.currentDiskSize + .ofNat (serializeMessage x).length }, true) := by
  have houtcome : s.dir.outcome = {} := by simp [Dir.outcome, hout]
  have htail : s.dir.outcomes.tail = s.dir.outcomes := by rw [hout]; rfl
  rw [writeToDisk_whole s x houtcome hwriter hroom, htail]

end Frames

/-! ### The parts of a call -/

/-- What a part of a call does. -/
inductive Part where
  | count
  | put (m : IpcMessage)
  | spill (m : IpcMessage)
  | take
  | takeLog
  | load
  | skip
  | flush (m : IpcMessage)
  deriving DecidableEq, Repr

/-- The message whose record a part appends to the data file. -/
def Part.written : Part → Option IpcMessage
  | .spill m => some m
  | .flush m => some m
  | _ => none

/-- The messages whose records a list of parts appends, in order. -/
def written (ps : List Part) : List IpcMessage := ps.filterMap Part.written

/-- The parts, one by one: counters and the reader; the ring; `write_to_disk` of a new message or of the
ring's head; the entry at the read position, consumed with or without lowering the byte counter. -/
inductive Does : PersistentMessageQueue N → Part → PersistentMessageQueue N → Prop where
  | count (s r e d n) : Does s .count { s with dataReader := r, totalEnqueued := e, totalDequeued := d,
                                               nextMessageId := n }
  | put (s m) (h : ¬ s.ring.Full) : Does s (.put m) { s with ring := s.ring.put ⟨m, true⟩ }
  | spill (s m) (hfull : s.ring.Full) (h : (s.writeToDisk m).2 = true) :
    Does s (.spill m) (s.writeToDisk m).1
  | take (s node) (h : ¬ s.ring.Empty) : Does s .take { s with ring := (s.ring.setHead node).advance }
  | takeLog (s r e) (h : s.diskIndex[s.diskReadPos]? = some e) :
    Does s .takeLog { s with dataReader := r, diskReadPos := s.diskReadPos + 1,
                             currentDiskSize := s.currentDiskSize - .ofNat e.2 }
  | load (s e m) (h : s.diskIndex[s.diskReadPos]? = some e) (hfull : ¬ s.ring.Full)
      (hm : deserializeMessage (s.fetch e).1 = some m) :
    Does s .load { s with dataReader := (s.fetch e).2, ring := s.ring.put ⟨m, true⟩,
                          diskReadPos := s.diskReadPos + 1 }
  | skip (s e) (h : s.diskIndex[s.diskReadPos]? = some e)
      (hm : deserializeMessage (s.fetch e).1 = none) :
    Does s .skip { s with dataReader := (s.fetch e).2, diskReadPos := s.diskReadPos + 1 }
  | flush (s m) (hne : ¬ s.ring.Empty) (hhead : s.ring.head = ⟨m, true⟩)
      (h : (s.writeToDisk m).2 = true) :
    Does s (.flush m) { (s.writeToDisk m).1 with
      ring := ((s.writeToDisk m).1.ring.setHead ⟨m, false⟩).advance }

/-- One part after another. -/
inductive Trace : PersistentMessageQueue N → List Part → PersistentMessageQueue N → Prop where
  | nil (s) : Trace s [] s
  | cons {s s₁ s₂ p ps} (h : Does s p s₁) (hs : Trace s₁ ps s₂) : Trace s (p :: ps) s₂

/-- The parts that a call may be made of. -/
def Allows (s : PersistentMessageQueue N) : Op → Part → Prop
  | .enqueue m, p => p = .count ∨ p = .put (s.stamp m) ∨ p = .spill (s.stamp m)
  | .dequeue, p => p = .count ∨ p = .take ∨ p = .takeLog
  | .popFront, p => p = .count ∨ p = .take ∨ p = .takeLog
  | .loadFromDisk, p => (p = .load ∨ p = .skip) ∧ ¬ s.ring.Full ∧ s.diskReadPos < s.diskIndex.length
  | .flushToDisk, p => ∃ m, p = .flush m
  | .peek, _ => False
  | .clear, _ => False

section Traces

variable {s s' : PersistentMessageQueue N}

theorem Trace.single {p : Part} (h : Does s p s') : Trace s [p] s' := .cons h (.nil s')

/-- **Induction over the parts**: what every allowed part keeps is kept by a trace of them. -/
theorem Trace.keeps {P : PersistentMessageQueue N → Prop} {ps : List Part} (h : Trace s ps s')
    (hP : ∀ p ∈ ps, ∀ s s', P s → Does s p s' → P s') (hs : P s) : P s' := by
  induction h with
  | nil s => exact hs
  | cons hd _ ih =>
    exact ih (fun p hp => hP p (List.mem_cons_of_mem _ hp)) (hP _ List.mem_cons_self _ _ hs hd)

/-- A part that appends no record leaves the directory, the writer and the index alone. -/
theorem Does.quiet {p : Part} (h : Does s p s') (hp : p.written = none) : s'.dir = s.dir ∧
    s'.dataWriter = s.dataWriter ∧ s'.diskIndex = s.diskIndex ∧ s'.maxDiskSize = s.maxDiskSize := by
  cases h with
  | spill => exact absurd hp (by simp [Part.written])
  | flush => exact absurd hp (by simp [Part.written])
  | _ => exact ⟨rfl, rfl, rfl, rfl⟩

/-- A part that appends a record is a `write_to_disk` that returns true; the ring may lose its head. -/
theorem Does.appends {p : Part} {m : IpcMessage} (h : Does s p s') (hp : p.written = some m) :
    (s.writeToDisk m).2 = true ∧ ∃ r, s' = { (s.writeToDisk m).1 with ring := r } := by
  cases h with
  | spill x _ hok =>
    obtain rfl := Option.some.inj hp
    exact ⟨hok, _, rfl⟩
  | flush x _ _ hok =>
    obtain rfl := Option.some.inj hp
    exact ⟨hok, _, rfl⟩
  | _ => exact absurd hp (by simp [Part.written])

theorem await_eq_some {node : MemoryNode} {m : IpcMessage} :
    node.await = some m ↔ node = ⟨m, true⟩ := by
  obtain ⟨x, ready⟩ := node
  cases ready <;> simp [MemoryNode.await]

theorem bumpId_does (s : PersistentMessageQueue N) (m : IpcMessage) : Does s .count (s.bumpId m) := by
  unfold bumpId
  split_ifs
  · exact .count s _ _ _ _
  · exact .count s s.dataReader s.totalEnqueued s.totalDequeued s.nextMessageId

/-- `enqueue` spills exactly when it finds the ring full and returns true. -/
theorem enqueue_trace (s : PersistentMessageQueue N) (m : IpcMessage) : ∃ ps,
    Trace s ps (s.enqueue m).1 ∧ (∀ p ∈ ps, s.Allows (.enqueue m) p) ∧
      written ps = if s.ring.Full ∧ (s.enqueue m).2 then [s.stamp m] else [] := by
  have hring : (s.bumpId m).ring = s.ring := by
    unfold bumpId
    split_ifs <;> rfl
  simp only [enqueue]
  rw [hring]
  by_cases hfull : s.ring.Full
  · rw [if_pos hfull]
    by_cases hok : ((s.bumpId m).writeToDisk (s.stamp m)).2 = true
    · rw [if_pos hok]
      refine ⟨[.count, .spill (s.stamp m), .count], ?_, by simp [Allows], by simp [hfull]; rfl⟩
      exact .cons (bumpId_does s m) (.cons (.spill _ _ (hring ▸ hfull) hok)
        (.single (.count _ _ _ _ _)))
    · rw [if_neg hok]
      refine ⟨[.count], ?_, by simp [Allows], by simp [written, Part.written]⟩
      rw [writeToDisk_refused _ _ (by simpa using hok)]
      exact .single (bumpId_does s m)
  · rw [if_neg hfull]
    refine ⟨[.count, .put (s.stamp m), .count], ?_, by simp [Allows], by simp [written, Part.written, hfull]⟩
    refine .cons (bumpId_does s m) (.cons (.put _ (s.stamp m) (hring ▸ hfull)) ?_)
    rw [hring]
    exact .single (.count _ _ _ _ _)

/-- `read_from_disk` returns nothing and leaves all but the reader alone, or consumes an entry. -/
theorem readFromDisk_cases (s : PersistentMessageQueue N) :
    (∃ r, s.readFromDisk = ({ s with dataReader := r }, none)) ∨
    ∃ r e m, s.diskIndex[s.diskReadPos]? = some e ∧
      s.readFromDisk = ({ s with dataReader := r, diskReadPos := s.diskReadPos + 1,
                                 currentDiskSize := s.currentDiskSize - .ofNat e.2 }, some m) := by
  unfold readFromDisk
  rcases hentry : s.diskIndex[s.diskReadPos]? with _ | e
  · exact Or.inl ⟨s.dataReader, rfl⟩
  · rcases hm : deserializeMessage (s.fetch e).1 with _ | m
    · exact Or.inl ⟨(s.fetch e).2, by simp only [hm]⟩
    · exact Or.inr ⟨(s.fetch e).2, e, m, rfl, by simp only [hm]⟩

theorem dequeue_trace {r : PersistentMessageQueue N × Option IpcMessage} (hr : s.dequeue = some r) :
    ∃ ps, Trace s ps r.1 ∧ (∀ p ∈ ps, s.Allows .dequeue p) ∧ written ps = [] := by
  unfold dequeue at hr
  split_ifs at hr with he
  · simp only [Option.some.injEq] at hr
    subst hr
    rcases s.readFromDisk_cases with ⟨r, hr⟩ | ⟨r, e, m, hentry, hr⟩
    · rw [hr]
      exact ⟨[.count], .single (.count s _ _ _ _), by simp [Allows], rfl⟩
    · rw [hr]
      exact ⟨[.takeLog, .count], .cons (.takeLog s r e hentry) (.single (.count _ _ _ _ _)),
        by simp [Allows], rfl⟩
  · obtain ⟨x, -, rfl⟩ := Option.map_eq_some_iff.mp hr
    exact ⟨[.take, .count], .cons (.take s _ he) (.single (.count _ _ _ _ _)), by simp [Allows], rfl⟩

theorem popFront_trace {r : PersistentMessageQueue N × Bool} (hr : s.popFront = some r) :
    ∃ ps, Trace s ps r.1 ∧ (∀ p ∈ ps, s.Allows .popFront p) ∧ written ps = [] := by
  unfold popFront at hr
  split_ifs at hr with he
  · rcases hentry : s.diskIndex[s.diskReadPos]? with _ | e
    · rw [hentry] at hr
      obtain rfl := Option.some.inj hr
      exact ⟨[], .nil s, by simp, rfl⟩
    · rw [hentry] at hr
      obtain rfl := Option.some.inj hr
      exact ⟨[.takeLog, .count], .cons (.takeLog s s.dataReader e hentry) (.single (.count _ _ _ _ _)),
        by simp [Allows], rfl⟩
  · obtain ⟨x, -, rfl⟩ := Option.map_eq_some_iff.mp hr
    exact ⟨[.take, .count], .cons (.take s _ he) (.single (.count _ _ _ _ _)), by simp [Allows], rfl⟩

theorem loadLoop_trace {es : List Entry} (hes : es = s.diskIndex.drop s.diskReadPos) : ∃ ps,
    Trace s ps (loadLoop es s).1 ∧ (∀ p ∈ ps, s.Allows .loadFromDisk p) ∧ written ps = [] := by
  -- the entry at the read position, while there is one
  suffices h : ∃ ps, Trace s ps (loadLoop es s).1 ∧ (∀ p ∈ ps, p = .load ∨ p = .skip) ∧
      (s.ring.Full ∨ es = [] → ps = []) by
    obtain ⟨ps, htrace, hps, hnone⟩ := h
    refine ⟨ps, htrace, ?_, ?_⟩
    · intro p hp
      refine ⟨hps p hp, ?_, ?_⟩
      · intro hfull
        simp [hnone (Or.inl hfull)] at hp
      · by_contra hlen
        simp [hnone (Or.inr (by rw [hes, List.drop_eq_nil_iff]; omega))] at hp
    · refine List.filterMap_eq_nil_iff.mpr ?_
      intro p hp
      rcases hps p hp with rfl | rfl <;> rfl
  induction es generalizing s with
  | nil => exact ⟨[], .nil s, by simp, fun _ => rfl⟩
  | cons e es ih =>
    have hentry : s.diskIndex[s.diskReadPos]? = some e := by
      rw [← List.head?_drop, ← hes]
      rfl
    have hrest : es = s.diskIndex.drop (s.diskReadPos + 1) := by
      rw [← List.tail_drop, ← hes]
      rfl
    rw [loadLoop]
    split_ifs with hfull
    · exact ⟨[], .nil s, by simp, fun _ => rfl⟩
    · rcases hm : deserializeMessage (s.fetch e).1 with _ | m
      · obtain ⟨ps, htrace, hps, -⟩ := ih (s := { s with
          dataReader := (s.fetch e).2, diskReadPos := s.diskReadPos + 1 }) hrest
        exact ⟨.skip :: ps, .cons (.skip s e hentry hm) htrace, by simpa using hps, by simp [hfull]⟩
      · obtain ⟨ps, htrace, hps, -⟩ := ih (s := { s with
          dataReader := (s.fetch e).2, ring := s.ring.put ⟨m, true⟩,
          diskReadPos := s.diskReadPos + 1 }) hrest
        exact ⟨.load :: ps, .cons (.load s e m hentry hfull hm) htrace, by simpa using hps,
          by simp [hfull]⟩

/-- `flush_to_disk` writes the oldest messages of the ring, as many as it says. -/
theorem flushLoop_trace {fuel : ℕ} {r : PersistentMessageQueue N × ℕ} (hr : flushLoop fuel s = some r) :
    ∃ ps, Trace s ps r.1 ∧ (∀ p ∈ ps, s.Allows .flushToDisk p) ∧
      written ps = s.ringMessages.take r.2 := by
  induction fuel generalizing s r with
  | zero => simp [flushLoop] at hr
  | succ fuel ih =>
    unfold flushLoop at hr
    split_ifs at hr with he
    · simp only [Option.some.injEq] at hr
      subst hr
      exact ⟨[], .nil s, by simp, rfl⟩
    · obtain ⟨x, hx, hr⟩ := Option.bind_eq_some_iff.mp hr
      simp only at hr
      split_ifs at hr with hok
      · obtain ⟨r', hr', rfl⟩ := Option.map_eq_some_iff.mp hr
        obtain ⟨ps, htrace, hps, hwritten⟩ := ih hr'
        refine ⟨.flush x :: ps, .cons (.flush s x he (await_eq_some.mp hx) hok) htrace, ?_, ?_⟩
        · intro p hp
          rcases List.mem_cons.mp hp with rfl | hp
          · exact ⟨x, rfl⟩
          · exact hps p hp
        · have hmem : s.ringMessages = x :: ringMessages { (s.writeToDisk x).1 with
              ring := ((s.writeToDisk x).1.ring.setHead ⟨x, false⟩).advance } := by
            simp only [ringMessages, writeToDisk_ring, Ring.contents_setHead_advance he]
            rw [Ring.contents_cons he, List.map_cons, await_eq_some.mp hx]
          rw [hmem, List.take_succ_cons, ← hwritten]
          rfl
      · simp only [Option.some.injEq] at hr
        subst hr
        rw [writeToDisk_refused _ _ (by simpa using hok)]
        exact ⟨[], .nil s, by simp, rfl⟩

/-- The messages whose records a call appends to the data file. -/
def writtenBy (s : PersistentMessageQueue N) : Op → List IpcMessage
  | .enqueue m => if s.ring.Full ∧ (s.enqueue m).2 then [s.stamp m] else []
  | .flushToDisk => s.flushToDisk.elim [] fun r => s.ringMessages.take r.2
  | _ => []

/-- **What a call is made of**: every call but `clear` is a trace of the parts it allows. -/
theorem step_trace [NeZero N] {op : Op} {es : List (Event IpcMessage)} (hs : step s op = some (s', es))
    (hclear : op ≠ .clear) :
    ∃ ps, Trace s ps s' ∧ (∀ p ∈ ps, s.Allows op p) ∧ written ps = s.writtenBy op := by
  cases op with
  | enqueue m =>
    simp only [step, Option.some.injEq, Prod.mk.injEq] at hs
    rw [← hs.1]
    exact enqueue_trace s m
  | dequeue =>
    obtain ⟨r, hr, heq⟩ := Option.map_eq_some_iff.mp hs
    obtain ⟨rfl, -⟩ := Prod.mk.inj heq
    exact dequeue_trace hr
  | peek =>
    obtain ⟨r, -, heq⟩ := Option.map_eq_some_iff.mp hs
    obtain ⟨rfl, -⟩ := Prod.mk.inj heq
    exact ⟨[], .nil s, by simp, rfl⟩
  | popFront =>
    obtain ⟨r, hr, heq⟩ := Option.map_eq_some_iff.mp hs
    obtain ⟨rfl, -⟩ := Prod.mk.inj heq
    exact popFront_trace hr
  | loadFromDisk =>
    simp only [step, Option.some.injEq, Prod.mk.injEq] at hs
    rw [← hs.1]
    exact loadLoop_trace rfl
  | flushToDisk =>
    obtain ⟨r, hr, heq⟩ := Option.map_eq_some_iff.mp hs
    obtain ⟨rfl, -⟩ := Prod.mk.inj heq
    rw [writtenBy, hr]
    exact flushLoop_trace hr
  | clear => exact absurd rfl hclear

end Traces

/-! ### Invariants of all calls -/

/-- What the parts of a call keep. -/
structure Keeps (P : PersistentMessageQueue N → Prop) : Prop where
  put : ∀ s m, P s → ¬ s.ring.Full → P { s with ring := s.ring.put ⟨m, true⟩ }
  drop : ∀ s node, P s → ¬ s.ring.Empty → P { s with ring := (s.ring.setHead node).advance }
  write : ∀ s m, P s → P (s.writeToDisk m).1
  move : ∀ s r p c e d n, P s → P { s with dataReader := r, diskReadPos := p, currentDiskSize := c,
                                           totalEnqueued := e, totalDequeued := d, nextMessageId := n }

section Rule

variable {P : PersistentMessageQueue N → Prop} (hP : Keeps P) {s s' : PersistentMessageQueue N}
include hP

theorem Keeps.does {p : Part} (h : P s) (hd : Does s p s') : P s' := by
  cases hd with
  | count r e d n => exact hP.move s _ _ _ _ _ _ h
  | put m hfull => exact hP.put s m h hfull
  | spill m => exact hP.write s m h
  | take node hne => exact hP.drop s node h hne
  | takeLog r e => exact hP.move s _ _ _ _ _ _ h
  | load e m _ hfull => exact hP.move _ _ _ _ _ _ _ (hP.put s m h hfull)
  | skip e => exact hP.move s _ _ _ _ _ _ h
  | flush m hne => exact hP.drop _ _ (hP.write s m h) (by simpa using hne)

theorem Keeps.trace {ps : List Part} (h : P s) (ht : Trace s ps s') : P s' :=
  ht.keeps (fun _ _ _ _ hs hd => hP.does hs hd) h

theorem Keeps.enqueue (h : P s) (m : IpcMessage) : P (s.enqueue m).1 := by
  obtain ⟨ps, ht, -⟩ := enqueue_trace s m
  exact hP.trace h ht

theorem Keeps.flushLoop {fuel : ℕ} {r : PersistentMessageQueue N × ℕ} (h : P s)
    (hr : flushLoop fuel s = some r) : P r.1 := by
  obtain ⟨ps, ht, -⟩ := flushLoop_trace hr
  exact hP.trace h ht

/-- **Invariant rule**: every call but `clear` keeps what its parts keep. -/
theorem Keeps.step [NeZero N] {op : Op} {es : List (Event IpcMessage)} (h : P s)
    (hs : step s op = some (s', es)) (hclear : op ≠ .clear) : P s' := by
  obtain ⟨ps, ht, -⟩ := step_trace hs hclear
  exact hP.trace h ht

end Rule

end PersistentMessageQueue

end LuspUpload.MQ
