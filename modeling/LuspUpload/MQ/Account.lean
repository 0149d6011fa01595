import LuspUpload.MQ.IndexFile
import LuspUpload.MQ.Refine

/-!
# MQ.Account — no loss and no duplication within one lifetime

The queue's history balances its contents along every run: what `enqueue` accepted is what `dequeue`
and `pop_front` removed plus what the ring window and the unread entries hold.
-/

namespace LuspUpload.MQ

open Lib

namespace PersistentMessageQueue

variable {N : ℕ}

/-- The state represents a queue whose contents and counters balance the history `h`. -/
structure Balanced (s : PersistentMessageQueue N) (h : List (Event IpcMessage)) : Prop where
  rep : ∃ a, Rep s a ∧ (Event.accepts h : Multiset IpcMessage) = Event.removes h + a.stored
  totals : s.totals = (.ofNat (Event.accepts h).length, .ofNat (Event.removes h).length)

theorem balanced_fresh [NeZero N] (maxDiskSize : UInt64) : Balanced (fresh N maxDiskSize) [] where
  rep := ⟨_, rep_initial maxDiskSize, rfl⟩
  totals := rfl

/-- One call keeps the balance. -/
theorem Balanced.step [NeZero N] {s : PersistentMessageQueue N} {h : List (Event IpcMessage)}
    (hs : Balanced s h) {op : Op} (hop : op.Fits) (hclear : op ≠ .clear) :
    ∃ s' es, step s op = some (s', es) ∧ Balanced s' (h ++ es) := by
  obtain ⟨⟨a, hrep, hbal⟩, htot⟩ := hs
  obtain ⟨s', es, a', hr⟩ := step_refines hrep hop hclear
  refine ⟨s', es, hr.step, ⟨a', hr.rep, ?_⟩, ?_⟩
  · have hmv := hr.moves.conserve
    rw [Event.accepts_append, Event.removes_append, ← Multiset.coe_add, ← Multiset.coe_add, hbal]
    calc (Event.removes h : Multiset IpcMessage) + a.stored + Event.accepts es
        = Event.removes h + (Event.accepts es + a.stored) := by
          rw [add_assoc, add_comm (a.stored : Multiset IpcMessage)]
      _ = Event.removes h + Event.removes es + a'.stored := by rw [hmv, add_assoc]
  · rw [hr.totals, totalsAfter]
    simp only [PersistentMessageQueue.totals, Prod.mk.injEq] at htot
    rw [htot.1, htot.2]
    simp only [Event.accepts_append, Event.removes_append, List.length_append, UInt64.ofNat_add]

/-- `size` is the difference of the counters. -/
theorem Balanced.size {s : PersistentMessageQueue N} {h : List (Event IpcMessage)}
    (hs : Balanced s h) : UInt64.ofNat s.size = s.totalEnqueued - s.totalDequeued := by
  obtain ⟨⟨a, hrep, hbal⟩, htot⟩ := hs
  have hcard := congrArg Multiset.card hbal
  simp only [Multiset.coe_add, Multiset.coe_card, List.length_append] at hcard
  simp only [PersistentMessageQueue.totals, Prod.mk.injEq] at htot
  rw [htot.1, htot.2, hrep.size, hcard, UInt64.ofNat_add, UInt64.add_comm, UInt64.add_sub_cancel]

theorem stored_bumpId (s : PersistentMessageQueue N) (m : IpcMessage) :
    (s.bumpId m).stored = s.stored := by
  unfold bumpId
  split_ifs <;> rfl

/-- An `enqueue` that returns false stores nothing and loses nothing. -/
theorem stored_of_refused {s : PersistentMessageQueue N} {m : IpcMessage}
    (h : (s.enqueue m).2 = false) : (s.enqueue m).1.stored = s.stored := by
  by_cases hfull : s.ring.Full
  · by_cases hok : ((s.bumpId m).writeToDisk (s.stamp m)).2
    · simp [enqueue, hfull, hok] at h
    · rw [Bool.not_eq_true] at hok
      simp [enqueue, hfull, hok, writeToDisk_refused _ _ hok, stored_bumpId]
  · simp [enqueue, hfull] at h

/-- **No loss and no duplication within one lifetime.** -/
theorem run_conserves (N : ℕ) [NeZero N] (maxDiskSize : UInt64) (ops : List Op)
    (hops : ∀ op ∈ ops, op.Fits ∧ op ≠ .clear) :
    ∃ s h, (machine N).run (fresh N maxDiskSize) ops = some (s, h) ∧
      (Event.accepts h : Multiset IpcMessage) = Event.removes h + s.stored ∧
      s.size = s.stored.length ∧
      UInt64.ofNat s.size = s.totalEnqueued - s.totalDequeued ∧
      ∀ m, (s.enqueue m).2 = false → (s.enqueue m).1.stored = s.stored := by
  have hstep : ∀ s h op, Balanced s h → (op.Fits ∧ op ≠ .clear) →
      ∃ s' es, (machine N).step s op = some (s', es) ∧ Balanced s' (h ++ es) :=
    fun _ _ _ hs hop => hs.step hop.1 hop.2
  obtain ⟨s, h, hrun, hbal⟩ :=
    Machine.run_of_along hstep (balanced_fresh maxDiskSize) (Machine.along_of_forall hops _)
  obtain ⟨a, hrep, hacc⟩ := hbal.rep
  refine ⟨s, h, hrun, ?_, ?_, hbal.size, fun _ => stored_of_refused⟩
  · rw [hrep.stored]
    exact hacc
  · rw [hrep.size, hrep.stored]

/-- A ring of capacity 2 that overflows, drains and is refilled from disk. -/
theorem run_conserves_refill : ∃ s h, (machine 2).run (fresh 2 1000)
    [.enqueue ⟨0, 0, 0, [65]⟩, .enqueue ⟨0, 0, 0, [66]⟩, .dequeue, .loadFromDisk, .popFront] =
      some (s, h) ∧
    (Event.accepts h : Multiset IpcMessage) = Event.removes h + s.stored ∧
    s.size = s.stored.length ∧
    UInt64.ofNat s.size = s.totalEnqueued - s.totalDequeued ∧
    ∀ m, (s.enqueue m).2 = false → (s.enqueue m).1.stored = s.stored := by
  refine run_conserves 2 1000 _ ?_
  simp [Op.Fits, IpcMessage.Fits]

end PersistentMessageQueue

end LuspUpload.MQ
