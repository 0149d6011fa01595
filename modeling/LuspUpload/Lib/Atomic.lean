import LuspUpload.Lib.Runs
import Mathlib.Data.List.Nodup
import Mathlib.Logic.Function.Basic
import Mathlib.Tactic.Common

/-!
# Lib.Atomic — linearizability of concurrent objects

A history has the calls and the returns of concurrent operations on an object.  It is linearizable if the
operations, each done at once and one after another in an order that agrees with real time, give what the calls
returned (`Linearizes`).  The automaton `Step` does an operation at one moment between its call and its return:
all its histories are linearizable (`Accepts.linearizes`), and so are those of a machine that it simulates
(`linearizes_of_simulation`).
-/

namespace LuspUpload.Lib.Atomic

universe u v w

variable {σ : Type u} {ω : Type v} {ρ : Type w}

/-! ### Histories -/

/-- A sequential object: its first state, and what an operation makes of a state and answers. -/
structure Object (σ : Type u) (ω : Type v) (ρ : Type w) where
  init : σ
  apply : σ → ω → σ × ρ

/-- A moment of a call: it is made, it takes effect, it returns. -/
inductive Moment (ω : Type v) (ρ : Type w) where
  | call (id : ℕ) (op : ω)
  | effect (id : ℕ) (res : ρ)
  | ret (id : ℕ) (res : ρ)
  deriving DecidableEq, Repr

/-- The caller sees its calls and their returns. -/
def Moment.visible : Moment ω ρ → Bool
  | .effect _ _ => false
  | _ => true

/-- An operation and its result in the sequential order. -/
structure Entry (ω : Type v) (ρ : Type w) where
  id : ℕ
  op : ω
  res : ρ
  deriving DecidableEq, Repr

/-- `x` stands before `y`. -/
def Before {β : Type*} (l : List β) (x y : β) : Prop := ∃ l₁ l₂, l = l₁ ++ l₂ ∧ x ∈ l₁ ∧ y ∈ l₂

/-- The operations of `order`, one after another, give their results. -/
def Object.Gives (O : Object σ ω ρ) : σ → List (Entry ω ρ) → σ → Prop
  | s, [], s' => s = s'
  | s, e :: es, s' => (O.apply s e.op).2 = e.res ∧ O.Gives (O.apply s e.op).1 es s'

/-- `order` explains the history `h` and leads to the state `s`: the results of the returns are those of the
operations done in this order, and an operation that returned before another was called comes before it.  An
operation that has not returned may have been done. -/
structure Object.Linearizes (O : Object σ ω ρ) (h : List (Moment ω ρ)) (order : List (Entry ω ρ)) (s : σ) :
    Prop where
  legal : O.Gives O.init order s
  once : (order.map Entry.id).Nodup
  called : ∀ e ∈ order, .call e.id e.op ∈ h
  returned : ∀ id res, .ret id res ∈ h → ∃ e ∈ order, e.id = id ∧ e.res = res
  inTime : ∀ a b res op, Before h (.ret a res) (.call b op) → ∀ x ∈ order, x.id = a → ∀ y ∈ order, y.id = b →
    Before order x y

section Before

variable {β : Type*} {l : List β} {x y z : β}

theorem Before.append (h : Before l x y) (l' : List β) : Before (l ++ l') x y := by
  obtain ⟨l₁, l₂, rfl, hx, hy⟩ := h
  exact ⟨l₁, l₂ ++ l', List.append_assoc .., hx, List.mem_append_left l' hy⟩

theorem before_last (hx : x ∈ l) : Before (l ++ [y]) x y := ⟨l, [y], rfl, hx, List.mem_singleton_self y⟩

theorem before_concat : Before (l ++ [z]) x y ↔ Before l x y ∨ x ∈ l ∧ y = z := by
  constructor
  · rintro ⟨l₁, l₂, heq, hx, hy⟩
    rcases List.eq_nil_or_concat l₂ with rfl | ⟨l₃, z', rfl⟩
    · exact absurd hy List.not_mem_nil
    · rw [List.concat_eq_append, ← List.append_assoc] at heq
      obtain ⟨rfl, hz⟩ := List.append_inj' heq rfl
      obtain rfl := List.singleton_inj.mp hz
      rw [List.concat_eq_append, List.mem_append, List.mem_singleton] at hy
      rcases hy with hy | rfl
      · exact Or.inl ⟨l₁, l₃, rfl, hx, hy⟩
      · exact Or.inr ⟨List.mem_append_left l₃ hx, rfl⟩
  · rintro (h | ⟨hx, rfl⟩)
    · exact h.append [z]
    · exact before_last hx

theorem Before.of_filter {p : β → Bool} (h : Before (l.filter p) x y) : Before l x y := by
  obtain ⟨l₁, l₂, heq, hx, hy⟩ := h
  obtain ⟨m₁, m₂, rfl, rfl, rfl⟩ := List.filter_eq_append_iff.mp heq
  exact ⟨m₁, m₂, rfl, List.mem_of_mem_filter hx, List.mem_of_mem_filter hy⟩

end Before

theorem gives_append {O : Object σ ω ρ} {s s₁ s₂ : σ} {es fs : List (Entry ω ρ)} (h₁ : O.Gives s es s₁)
    (h₂ : O.Gives s₁ fs s₂) : O.Gives s (es ++ fs) s₂ := by
  induction es generalizing s with
  | nil =>
    obtain rfl : s = s₁ := h₁
    exact h₂
  | cons e es ih => exact ⟨h₁.1, ih h₁.2⟩

/-! ### The automaton -/

/-- How far a call is. -/
inductive Phase (ω : Type v) (ρ : Type w) where
  | fresh
  | called (op : ω)
  | effected (op : ω) (res : ρ)
  | returned

/-- The object, and how far each call is. -/
structure State (σ : Type u) (ω : Type v) (ρ : Type w) where
  object : σ
  phase : ℕ → Phase ω ρ

/-- Nothing was called. -/
def Object.start (O : Object σ ω ρ) : State σ ω ρ := ⟨O.init, fun _ => .fresh⟩

/-- The object changes, and one call moves on. -/
def State.set (A : State σ ω ρ) (s : σ) (id : ℕ) (p : Phase ω ρ) : State σ ω ρ :=
  ⟨s, Function.update A.phase id p⟩

@[simp] theorem State.set_object (A : State σ ω ρ) (s : σ) (id : ℕ) (p : Phase ω ρ) :
    (A.set s id p).object = s := rfl

@[simp] theorem State.set_phase (A : State σ ω ρ) (s : σ) (id : ℕ) (p : Phase ω ρ) :
    (A.set s id p).phase id = p := Function.update_self ..

theorem State.set_phase_of_ne (A : State σ ω ρ) (s : σ) {id x : ℕ} (p : Phase ω ρ) (h : x ≠ id) :
    (A.set s id p).phase x = A.phase x := Function.update_of_ne h ..

/-- One moment: an operation is done when it takes effect. -/
inductive Object.Step (O : Object σ ω ρ) : State σ ω ρ → Moment ω ρ → State σ ω ρ → Prop
  | call {A : State σ ω ρ} {id : ℕ} (op : ω) (h : A.phase id = .fresh) :
      O.Step A (.call id op) (A.set A.object id (.called op))
  | effect {A : State σ ω ρ} {id : ℕ} {op : ω} {s : σ} {res : ρ} (h : A.phase id = .called op)
      (hdo : O.apply A.object op = (s, res)) : O.Step A (.effect id res) (A.set s id (.effected op res))
  | ret {A : State σ ω ρ} {id : ℕ} {op : ω} {res : ρ} (h : A.phase id = .effected op res) :
      O.Step A (.ret id res) (A.set A.object id .returned)

/-- Moments one after another. -/
def Object.Accepts (O : Object σ ω ρ) : State σ ω ρ → List (Moment ω ρ) → State σ ω ρ → Prop
  | A, [], B => A = B
  | A, m :: ms, C => ∃ B, O.Step A m B ∧ O.Accepts B ms C

/-- The order in which the operations took effect explains the history so far. -/
structure Object.Explains (O : Object σ ω ρ) (h : List (Moment ω ρ)) (A : State σ ω ρ)
    (order : List (Entry ω ρ)) : Prop where
  linear : O.Linearizes h order A.object
  entries : ∀ e ∈ order, A.phase e.id = .effected e.op e.res ∨ A.phase e.id = .returned
  calls : ∀ id op, .call id op ∈ h → A.phase id ≠ .fresh
  called : ∀ id op, A.phase id = .called op → .call id op ∈ h
  effected : ∀ id op res, A.phase id = .effected op res → ⟨id, op, res⟩ ∈ order

section Steps

variable {O : Object σ ω ρ} {h : List (Moment ω ρ)} {A B : State σ ω ρ} {order : List (Entry ω ρ)} {id : ℕ}
  {op : ω} {res : ρ} {s : σ}

theorem explains_start (O : Object σ ω ρ) : O.Explains [] O.start [] where
  linear := ⟨rfl, List.nodup_nil, by simp, by simp, by simp [Before]⟩
  entries := by simp
  calls := by simp
  called := by simp [Object.start]
  effected := by simp [Object.start]

/-- A call that has no entry. -/
theorem Object.Explains.no_entry (hE : O.Explains h A order)
    (hphase : A.phase id = .fresh ∨ ∃ op, A.phase id = .called op) : ∀ e ∈ order, e.id ≠ id := by
  rintro e he rfl
  rcases hE.entries e he with h' | h' <;> rcases hphase with hp | ⟨op, hp⟩ <;>
    exact absurd (h'.symm.trans hp) (by simp)

/-- A moment of one call leaves the others where they are. -/
theorem Object.Explains.moves (hE : O.Explains h A order) {m : Moment ω ρ} {new : List (Entry ω ρ)}
    {p : Phase ω ρ} (hlinear : O.Linearizes (h ++ [m]) (order ++ new) s)
    (hself : ∀ e ∈ order ++ new, e.id = id → p = .effected e.op e.res ∨ p = .returned)
    (hnew : ∀ e ∈ new, e.id = id) (hcall : ∀ x o, m = .call x o → x = id) (hfresh : p ≠ .fresh)
    (hcalled : ∀ o, p = .called o → .call id o ∈ h ++ [m])
    (heffected : ∀ o r, p = .effected o r → ⟨id, o, r⟩ ∈ order ++ new) :
    O.Explains (h ++ [m]) (A.set s id p) (order ++ new) := by
  refine ⟨hlinear, ?_, ?_, ?_, ?_⟩
  · intro e he
    by_cases hid : e.id = id
    · rw [hid, State.set_phase]
      exact hself e he hid
    · rw [State.set_phase_of_ne A s p hid]
      rcases List.mem_append.mp he with he | he
      · exact hE.entries e he
      · exact absurd (hnew e he) hid
  · intro x o hmem
    by_cases hid : x = id
    · rw [hid, State.set_phase]
      exact hfresh
    · rw [State.set_phase_of_ne A s p hid]
      rcases List.mem_append.mp hmem with hmem | hmem
      · exact hE.calls x o hmem
      · exact absurd (hcall x o (List.mem_singleton.mp hmem).symm) hid
  · intro x o hx
    by_cases hid : x = id
    · subst hid
      rw [State.set_phase] at hx
      exact hcalled o hx
    · rw [State.set_phase_of_ne A s p hid] at hx
      exact List.mem_append_left _ (hE.called x o hx)
  · intro x o r hx
    by_cases hid : x = id
    · subst hid
      rw [State.set_phase] at hx
      exact heffected o r hx
    · rw [State.set_phase_of_ne A s p hid] at hx
      exact List.mem_append_left _ (hE.effected x o r hx)

/-- A call is made. -/
theorem Object.Explains.call (hE : O.Explains h A order) (hphase : A.phase id = .fresh) (op : ω) :
    O.Explains (h ++ [.call id op]) (A.set A.object id (.called op)) order := by
  have hnone := hE.no_entry (Or.inl hphase)
  have hlinear : O.Linearizes (h ++ [.call id op]) order A.object := by
    refine ⟨hE.linear.legal, hE.linear.once, ?_, ?_, ?_⟩
    · intro e he
      exact List.mem_append_left _ (hE.linear.called e he)
    · intro x r hr
      exact hE.linear.returned x r (by simpa using hr)
    · intro a b r o hbefore x hx hxa y hy hyb
      rcases before_concat.mp hbefore with hbefore | ⟨-, heq⟩
      · exact hE.linear.inTime a b r o hbefore x hx hxa y hy hyb
      · -- the call was not there before, so it has no entry yet
        obtain ⟨rfl, -⟩ := Moment.call.inj heq
        exact absurd hyb (hnone y hy)
  rw [← List.append_nil order] at hlinear hnone ⊢
  refine hE.moves hlinear ?_ (by simp) ?_ (by simp) ?_ (by simp)
  · intro e he hid
    exact absurd hid (hnone e he)
  · rintro x o heq
    exact (Moment.call.inj heq).1.symm
  · intro o ho
    obtain rfl := Phase.called.inj ho
    exact List.mem_append_right h (List.mem_singleton_self _)

/-- An operation takes effect, behind all that did before. -/
theorem Object.Explains.effect (hE : O.Explains h A order) (hphase : A.phase id = .called op)
    (hdo : O.apply A.object op = (s, res)) :
    O.Explains (h ++ [.effect id res]) (A.set s id (.effected op res)) (order ++ [⟨id, op, res⟩]) := by
  have hnone := hE.no_entry (Or.inr ⟨op, hphase⟩)
  have hlinear : O.Linearizes (h ++ [.effect id res]) (order ++ [⟨id, op, res⟩]) s := by
    refine ⟨?_, ?_, ?_, ?_, ?_⟩
    · refine gives_append hE.linear.legal ⟨?_, ?_⟩
      · rw [hdo]
      · show (O.apply A.object op).1 = s
        rw [hdo]
    · rw [List.map_append, List.nodup_append]
      refine ⟨hE.linear.once, List.nodup_singleton _, ?_⟩
      intro a ha b hb
      obtain ⟨e, he, rfl⟩ := List.mem_map.mp ha
      obtain rfl := List.mem_singleton.mp hb
      exact hnone e he
    · intro e he
      rcases List.mem_append.mp he with he | he
      · exact List.mem_append_left _ (hE.linear.called e he)
      · obtain rfl := List.mem_singleton.mp he
        exact List.mem_append_left _ (hE.called id op hphase)
    · intro x r hr
      obtain ⟨e, he, hid, hres⟩ := hE.linear.returned x r (by simpa using hr)
      exact ⟨e, List.mem_append_left _ he, hid, hres⟩
    · intro a b r o hbefore x hx hxa y hy hyb
      have hbefore' : Before h (.ret a r) (.call b o) := by
        rcases before_concat.mp hbefore with hbefore | ⟨-, heq⟩
        · exact hbefore
        · exact absurd heq (by simp)
      have hret : .ret a r ∈ h := by
        obtain ⟨l₁, l₂, rfl, hmem, -⟩ := hbefore'
        exact List.mem_append_left _ hmem
      -- what has returned is not what takes effect now
      have hold : x ∈ order := by
        rcases List.mem_append.mp hx with hx | hx
        · exact hx
        · obtain rfl := List.mem_singleton.mp hx
          obtain ⟨e, he, hid, -⟩ := hE.linear.returned a r hret
          exact absurd (hid.trans hxa.symm) (hnone e he)
      rcases List.mem_append.mp hy with hy | hy
      · exact (hE.linear.inTime a b r o hbefore' x hold hxa y hy hyb).append _
      · obtain rfl := List.mem_singleton.mp hy
        exact before_last hold
  refine hE.moves hlinear ?_ ?_ (by simp) (by simp) (by simp) ?_
  · intro e he hid
    rcases List.mem_append.mp he with he | he
    · exact absurd hid (hnone e he)
    · obtain rfl := List.mem_singleton.mp he
      exact Or.inl rfl
  · intro e he
    rw [List.mem_singleton.mp he]
  · intro o r heq
    obtain ⟨rfl, rfl⟩ := Phase.effected.inj heq
    exact List.mem_append_right order (List.mem_singleton_self _)

/-- A call returns. -/
theorem Object.Explains.ret (hE : O.Explains h A order) (hphase : A.phase id = .effected op res) :
    O.Explains (h ++ [.ret id res]) (A.set A.object id .returned) order := by
  have hlinear : O.Linearizes (h ++ [.ret id res]) order A.object := by
    refine ⟨hE.linear.legal, hE.linear.once, ?_, ?_, ?_⟩
    · intro e he
      exact List.mem_append_left _ (hE.linear.called e he)
    · intro x r hr
      rcases List.mem_append.mp hr with hr | hr
      · exact hE.linear.returned x r hr
      · obtain ⟨rfl, rfl⟩ := Moment.ret.inj (List.mem_singleton.mp hr)
        exact ⟨_, hE.effected x op r hphase, rfl, rfl⟩
    · intro a b r o hbefore
      rcases before_concat.mp hbefore with hbefore | ⟨-, heq⟩
      · exact hE.linear.inTime a b r o hbefore
      · exact absurd heq (by simp)
  rw [← List.append_nil order] at hlinear ⊢
  exact hE.moves hlinear (fun _ _ _ => Or.inr rfl) (by simp) (by simp) (by simp) (by simp) (by simp)

theorem Object.Explains.step {m : Moment ω ρ} (hE : O.Explains h A order) (hstep : O.Step A m B) :
    ∃ order', O.Explains (h ++ [m]) B order' := by
  cases hstep with
  | call op hphase => exact ⟨order, hE.call hphase op⟩
  | effect hphase hdo => exact ⟨_, hE.effect hphase hdo⟩
  | ret hphase => exact ⟨order, hE.ret hphase⟩

theorem Object.Explains.accepts {ms : List (Moment ω ρ)} (hE : O.Explains h A order)
    (hacc : O.Accepts A ms B) : ∃ order', O.Explains (h ++ ms) B order' := by
  induction ms generalizing h A order with
  | nil =>
    obtain rfl : A = B := hacc
    rw [List.append_nil]
    exact ⟨order, hE⟩
  | cons m ms ih =>
    obtain ⟨C, hstep, hrest⟩ := hacc
    obtain ⟨order', hE'⟩ := hE.step hstep
    rw [← List.singleton_append, ← List.append_assoc]
    exact ih hE' hrest

end Steps

section Accepted

variable {O : Object σ ω ρ} {h : List (Moment ω ρ)} {A B C : State σ ω ρ} {order : List (Entry ω ρ)} {s : σ}

/-- An explanation is one of what the callers see. -/
theorem Object.Linearizes.filter_visible (hL : O.Linearizes h order s) :
    O.Linearizes (h.filter Moment.visible) order s where
  legal := hL.legal
  once := hL.once
  called e he := List.mem_filter.mpr ⟨hL.called e he, rfl⟩
  returned id res hmem := hL.returned id res (List.mem_of_mem_filter hmem)
  inTime a b res op hbefore := hL.inTime a b res op hbefore.of_filter

/-- **What the automaton accepts is linearizable.** -/
theorem Object.Accepts.linearizes (hacc : O.Accepts O.start h A) :
    ∃ order, O.Linearizes (h.filter Moment.visible) order A.object := by
  obtain ⟨order, hE⟩ := (explains_start O).accepts hacc
  exact ⟨order, hE.linear.filter_visible⟩

theorem Object.Accepts.append {ms ms' : List (Moment ω ρ)} (h₁ : O.Accepts A ms B) (h₂ : O.Accepts B ms' C) :
    O.Accepts A (ms ++ ms') C := by
  induction ms generalizing A with
  | nil =>
    obtain rfl : A = B := h₁
    exact h₂
  | cons m ms ih =>
    obtain ⟨D, hstep, hrest⟩ := h₁
    exact ⟨D, hstep, ih hrest⟩

/-- **Simulation**: the runs of a machine whose steps the automaton follows are linearizable. -/
theorem linearizes_of_simulation {τ α : Type*} {M : Machine τ α (Moment ω ρ)} {R : τ → State σ ω ρ → Prop}
    (hstep : ∀ t A a t' ms, R t A → M.step t a = some (t', ms) → ∃ B, O.Accepts A ms B ∧ R t' B)
    {t t' : τ} {as : List α} {ms : List (Moment ω ρ)} (hinit : R t O.start)
    (hrun : M.run t as = some (t', ms)) :
    ∃ A order, R t' A ∧ O.Linearizes (ms.filter Moment.visible) order A.object := by
  have hinv : ∃ A, O.Accepts O.start ([] ++ ms) A ∧ R t' A := by
    refine Machine.Along.invariant (P := fun _ _ => True) (I := fun t h => ∃ A, O.Accepts O.start h A ∧ R t A)
      ?_ (Machine.along_of_forall (P := fun _ => True) (fun _ _ => trivial) t) ⟨O.start, rfl, hinit⟩ hrun
    rintro t h a t' ms ⟨A, hacc, hR⟩ - ht
    obtain ⟨B, hacc', hR'⟩ := hstep t A a t' ms hR ht
    exact ⟨B, hacc.append hacc', hR'⟩
  obtain ⟨A, hacc, hR⟩ := hinv
  obtain ⟨order, hL⟩ := hacc.linearizes
  exact ⟨A, order, hR, hL⟩

end Accepted

end LuspUpload.Lib.Atomic
