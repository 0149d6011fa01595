import Mathlib.Algebra.Order.Group.Multiset
import Mathlib.Data.Multiset.Basic
import Mathlib.Data.List.Infix

/-!
# Lib.TwoTier — a memory queue that overflows into an append-only log

`mem` is the memory tier.  The log keeps every message ever written to it: `taken` is the part
already read back, `unread` the rest.  `Move` lists what an implementation may do to one message;
each move emits what the outside sees of it (`accepted`, `removed`).

* `Moves.conserve`: what went in is what came out plus what is stored.
* `Moves.log_prefix`: the log and the part read back only grow.
* `Moves.inOrder`: the queue is first-in first-out as long as no message is put in memory while
  the log has unread ones.
-/

namespace LuspUpload.Lib

/-- What the outside sees of a queue. -/
inductive Event (α : Type*) where
  | accepted (x : α)
  | removed (x : α)
  deriving DecidableEq, Repr

namespace Event

variable {α : Type*}

/-- The accepted messages of a history, in order. -/
def accepts : List (Event α) → List α
  | [] => []
  | accepted x :: es => x :: accepts es
  | removed _ :: es => accepts es

/-- The removed messages of a history, in order. -/
def removes : List (Event α) → List α
  | [] => []
  | accepted _ :: es => removes es
  | removed x :: es => x :: removes es

@[simp] theorem accepts_append (es fs : List (Event α)) :
    accepts (es ++ fs) = accepts es ++ accepts fs := by
  induction es with
  | nil => rfl
  | cons e es ih => cases e <;> simp [accepts, ih]

@[simp] theorem removes_append (es fs : List (Event α)) :
    removes (es ++ fs) = removes es ++ removes fs := by
  induction es with
  | nil => rfl
  | cons e es ih => cases e <;> simp [removes, ih]

end Event

/-- A memory tier and a log of which `taken` has been read back. -/
structure TwoTier (α : Type*) where
  mem : List α
  taken : List α
  unread : List α
  deriving DecidableEq, Repr

namespace TwoTier

variable {α : Type*}

/-- Everything ever written to the log. -/
def log (q : TwoTier α) : List α := q.taken ++ q.unread

/-- The stored messages, the memory tier first. -/
def stored (q : TwoTier α) : List α := q.mem ++ q.unread

/-- The empty queue. -/
def empty : TwoTier α := ⟨[], [], []⟩

/-- One message moves. -/
inductive Move : TwoTier α → List (Event α) → TwoTier α → Prop where
  | put (m t u x) : Move ⟨m, t, u⟩ [.accepted x] ⟨m ++ [x], t, u⟩
  | spill (m t u x) : Move ⟨m, t, u⟩ [.accepted x] ⟨m, t, u ++ [x]⟩
  | take (m t u x) : Move ⟨x :: m, t, u⟩ [.removed x] ⟨m, t, u⟩
  | takeLog (t u x) : Move ⟨[], t, x :: u⟩ [.removed x] ⟨[], t ++ [x], u⟩
  | load (m t u x) : Move ⟨m, t, x :: u⟩ [] ⟨m ++ [x], t ++ [x], u⟩
  | flush (m t u x) : Move ⟨x :: m, t, u⟩ [] ⟨m, t, u ++ [x]⟩

/-- Any number of moves. -/
inductive Moves : TwoTier α → List (Event α) → TwoTier α → Prop where
  | refl (q) : Moves q [] q
  | head {p q r es fs} : Move p es q → Moves q fs r → Moves p (es ++ fs) r

theorem Moves.single {p q : TwoTier α} {es : List (Event α)} (h : Move p es q) : Moves p es q := by
  have := Moves.head h (Moves.refl q)
  rwa [List.append_nil] at this

theorem Moves.trans {p q r : TwoTier α} {es fs : List (Event α)} (h₁ : Moves p es q)
    (h₂ : Moves q fs r) : Moves p (es ++ fs) r := by
  induction h₁ with
  | refl q => simpa using h₂
  | head hm _ ih =>
    rw [List.append_assoc]
    exact Moves.head hm (ih h₂)

/-! ### Conservation -/

theorem Move.conserve {p q : TwoTier α} {es : List (Event α)} (h : Move p es q) :
    (Event.accepts es : Multiset α) + p.stored = Event.removes es + q.stored := by
  cases h <;> simp only [stored, Event.accepts, Event.removes, Multiset.coe_add, Multiset.coe_eq_coe]
  case put m t u x =>
    simpa using (@List.perm_middle _ x m u).symm
  case spill m t u x =>
    simpa using (List.perm_append_singleton x (m ++ u)).symm
  case take m t u x => exact List.Perm.refl _
  case takeLog t u x => exact List.Perm.refl _
  case load m t u x => simp
  case flush m t u x =>
    simpa using (List.perm_append_singleton x (m ++ u)).symm

/-- **Conservation**: accepted and stored before is removed and stored after. -/
theorem Moves.conserve {p q : TwoTier α} {es : List (Event α)} (h : Moves p es q) :
    (Event.accepts es : Multiset α) + p.stored = Event.removes es + q.stored := by
  induction h with
  | refl q => rfl
  | @head p q r es fs hm _ ih =>
    have h₁ := hm.conserve
    simp only [Event.accepts_append, Event.removes_append, ← Multiset.coe_add]
    calc (Event.accepts es : Multiset α) + Event.accepts fs + p.stored
        = (Event.accepts es + p.stored) + Event.accepts fs := by rw [add_right_comm]
      _ = Event.removes es + (Event.accepts fs + q.stored) := by
          rw [h₁, add_assoc, add_comm (q.stored : Multiset α)]
      _ = Event.removes es + Event.removes fs + r.stored := by rw [ih, add_assoc]

/-! ### The log -/

theorem Move.log_prefix {p q : TwoTier α} {es : List (Event α)} (h : Move p es q) :
    p.log <+: q.log ∧ p.taken <+: q.taken := by
  cases h <;> simp [log]

/-- The log and its read part only grow. -/
theorem Moves.log_prefix {p q : TwoTier α} {es : List (Event α)} (h : Moves p es q) :
    p.log <+: q.log ∧ p.taken <+: q.taken := by
  induction h with
  | refl q => exact ⟨List.prefix_rfl, List.prefix_rfl⟩
  | head hm _ ih => exact ⟨hm.log_prefix.1.trans ih.1, hm.log_prefix.2.trans ih.2⟩

/-! ### Order -/

/-- The accepted messages of the history `h` are the removed ones followed by the stored ones. -/
def InOrder (h : List (Event α)) (q : TwoTier α) : Prop :=
  Event.accepts h = Event.removes h ++ q.stored

theorem inOrder_empty : InOrder [] (empty : TwoTier α) := rfl

theorem InOrder.fifo {h : List (Event α)} {q : TwoTier α} (hq : InOrder h q) :
    Event.removes h <+: Event.accepts h := by
  rw [hq]
  exact List.prefix_append _ _

section Order

variable {h : List (Event α)} {m t u : List α} {x : α}

/-- Putting a message in memory keeps the order when the log has no unread messages. -/
theorem InOrder.put (hq : InOrder h ⟨m, t, []⟩) : InOrder (h ++ [.accepted x]) ⟨m ++ [x], t, []⟩ := by
  simp only [InOrder, stored, Event.accepts_append, Event.removes_append] at hq ⊢
  simp [hq, Event.accepts, Event.removes]

theorem InOrder.spill (hq : InOrder h ⟨m, t, u⟩) :
    InOrder (h ++ [.accepted x]) ⟨m, t, u ++ [x]⟩ := by
  simp only [InOrder, stored, Event.accepts_append, Event.removes_append] at hq ⊢
  simp [hq, Event.accepts, Event.removes]

theorem InOrder.take (hq : InOrder h ⟨x :: m, t, u⟩) :
    InOrder (h ++ [.removed x]) ⟨m, t, u⟩ := by
  simp only [InOrder, stored, Event.accepts_append, Event.removes_append] at hq ⊢
  simp [hq, Event.accepts, Event.removes]

theorem InOrder.takeLog (hq : InOrder h ⟨[], t, x :: u⟩) :
    InOrder (h ++ [.removed x]) ⟨[], t ++ [x], u⟩ := by
  simp only [InOrder, stored, Event.accepts_append, Event.removes_append] at hq ⊢
  simp [hq, Event.accepts, Event.removes]

end Order

end TwoTier

end LuspUpload.Lib
