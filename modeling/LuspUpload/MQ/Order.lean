import LuspUpload.MQ.Account

/-!
# MQ.Order — first-in first-out across the two tiers

`enqueue` picks the ring whenever it has room, also while older messages wait on disk, and `dequeue`
empties the ring first.  So the queue is first-in first-out along every run that puts no message in the
ring while the index has unread entries, and a run of five calls that does is not.
-/

namespace LuspUpload.MQ

open Lib

namespace PersistentMessageQueue

variable {N : ℕ}

/-- The calls of a producer and a consumer. -/
def Op.Transfers (op : Op) : Prop := op = .dequeue ∨ ∃ m, op = .enqueue m

/-- An `enqueue` finds the ring full or nothing unread on disk. -/
def KeepsOrder (s : PersistentMessageQueue N) : Op → Prop
  | .enqueue _ => s.ring.Full ∨ s.unreadEntries = []
  | _ => True

instance (s : PersistentMessageQueue N) : ∀ op, Decidable (s.KeepsOrder op)
  | .enqueue _ => @instDecidableOr _ _ inferInstance (decidable_of_iff _ List.isEmpty_iff)
  | .dequeue => .isTrue trivial
  | .peek => .isTrue trivial
  | .popFront => .isTrue trivial
  | .flushToDisk => .isTrue trivial
  | .loadFromDisk => .isTrue trivial
  | .clear => .isTrue trivial

/-- The state represents a queue that holds, in order, what the history accepted and did not remove. -/
def Ordered (s : PersistentMessageQueue N) (h : List (Event IpcMessage)) : Prop :=
  ∃ a, Rep s a ∧ TwoTier.InOrder h a

theorem Rep.unreadEntries_eq_nil {s : PersistentMessageQueue N} {a : TwoTier IpcMessage}
    (h : Rep s a) : s.unreadEntries = [] ↔ a.unread = [] := by
  rw [h.unreadEntries, ← List.length_eq_zero_iff, layout_length, List.length_eq_zero_iff]

/-- `enqueue` keeps the order. -/
theorem Ordered.enqueue {s : PersistentMessageQueue N} {h : List (Event IpcMessage)}
    (hs : Ordered s h) {x : IpcMessage} (hx : x.Fits) (hk : s.ring.Full ∨ s.unreadEntries = []) :
    Ordered (s.enqueue x).1
      (h ++ if (s.enqueue x).2 then [.accepted (s.stamp x)] else []) := by
  obtain ⟨⟨m, t, u⟩, hrep, hord⟩ := hs
  by_cases hfull : s.ring.Full
  · by_cases hroom : s.currentDiskSize < s.maxDiskSize
    · obtain ⟨hok, hrep', -⟩ := hrep.enqueue_spill hx hfull hroom
      rw [hok, if_pos rfl]
      exact ⟨_, hrep', hord.spill⟩
    · obtain ⟨hok, hrep', -⟩ := hrep.enqueue_refuse (x := x) hfull hroom
      refine ⟨_, hrep', ?_⟩
      simpa [hok] using hord
  · have hu : u = [] := hrep.unreadEntries_eq_nil.mp (hk.resolve_left hfull)
    subst hu
    obtain ⟨hok, hrep', -⟩ := hrep.enqueue_put hx hfull
    rw [hok, if_pos rfl]
    exact ⟨_, hrep', hord.put⟩

/-- `dequeue` returns and keeps the order. -/
theorem Ordered.dequeue {s : PersistentMessageQueue N} {h : List (Event IpcMessage)}
    (hs : Ordered s h) : ∃ s' r, s.dequeue = some (s', r) ∧
      Ordered s' (h ++ r.toList.map .removed) := by
  obtain ⟨⟨m, t, u⟩, hrep, hord⟩ := hs
  rcases m with _ | ⟨x, m⟩
  · rcases u with _ | ⟨x, u⟩
    · refine ⟨s, none, hrep.dequeue_empty, _, hrep, ?_⟩
      simpa using hord
    · obtain ⟨s', hs', hrep', -⟩ := hrep.dequeue_disk
      exact ⟨s', some x, hs', _, hrep', hord.takeLog⟩
  · obtain ⟨s', hs', hrep', -⟩ := hrep.dequeue_mem
    exact ⟨s', some x, hs', _, hrep', hord.take⟩

/-- **First-in first-out** along every run whose enqueues keep the order. -/
theorem run_fifo (N : ℕ) [NeZero N] (maxDiskSize : UInt64) (ops : List Op)
    (hops : ∀ op ∈ ops, op.Fits ∧ op.Transfers)
    (hkeep : (machine N).Along KeepsOrder (fresh N maxDiskSize) ops) :
    ∃ s h, (machine N).run (fresh N maxDiskSize) ops = some (s, h) ∧
      Event.removes h <+: Event.accepts h := by
  have hstep : ∀ s h op, Ordered s h → ((op.Fits ∧ op.Transfers) ∧ KeepsOrder s op) →
      ∃ s' es, (machine N).step s op = some (s', es) ∧ Ordered s' (h ++ es) := by
    rintro s h op hs ⟨⟨hfits, rfl | ⟨x, rfl⟩⟩, hk⟩
    · obtain ⟨s', r, hs', hord⟩ := hs.dequeue
      exact ⟨s', _, by simp [machine, step, hs'], hord⟩
    · exact ⟨_, _, rfl, hs.enqueue hfits hk⟩
  obtain ⟨s, h, hrun, a, -, hord⟩ := Machine.run_of_along hstep
    ⟨_, rep_initial maxDiskSize, TwoTier.inOrder_empty⟩
    ((Machine.along_of_forall hops _).and hkeep)
  exact ⟨s, h, hrun, hord.fifo⟩

/-- Message 1 fills the ring and 2 goes to disk; both leave before 3 comes. -/
theorem run_fifo_drained : ∃ s h, (machine 2).run (fresh 2 1000)
    [.enqueue ⟨1, 0, 0, [65]⟩, .enqueue ⟨2, 0, 0, [66]⟩, .dequeue, .dequeue,
      .enqueue ⟨3, 0, 0, [67]⟩, .dequeue] = some (s, h) ∧
    Event.removes h <+: Event.accepts h := by
  refine run_fifo 2 1000 _ ?_ ?_
  · simp [Op.Transfers, Op.Fits, IpcMessage.Fits]
  · decide +kernel

/-- Message 3 overtakes message 2, which waits on disk. -/
theorem run_not_fifo : ∃ s h, (machine 2).run (fresh 2 1000)
    [.enqueue ⟨1, 0, 0, [65]⟩, .enqueue ⟨2, 0, 0, [66]⟩, .dequeue,
      .enqueue ⟨3, 0, 0, [67]⟩, .dequeue] = some (s, h) ∧
    ¬ Event.removes h <+: Event.accepts h := by
  have hev : ((machine 2).run (fresh 2 1000)
      [.enqueue ⟨1, 0, 0, [65]⟩, .enqueue ⟨2, 0, 0, [66]⟩, .dequeue,
        .enqueue ⟨3, 0, 0, [67]⟩, .dequeue]).map (·.2) =
      some [.accepted ⟨1, 0, 0, [65]⟩, .accepted ⟨2, 0, 0, [66]⟩, .removed ⟨1, 0, 0, [65]⟩,
        .accepted ⟨3, 0, 0, [67]⟩, .removed ⟨3, 0, 0, [67]⟩] := by rfl
  obtain ⟨⟨s, h⟩, hrun, rfl⟩ := Option.map_eq_some_iff.mp hev
  exact ⟨s, _, hrun, by decide⟩

end PersistentMessageQueue

end LuspUpload.MQ
