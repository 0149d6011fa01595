import LuspUpload.Upload.RowLockQueue
import Mathlib.Algebra.Order.Ring.Nat

/-!
# Upload.OneProducer — `ThreadSafeRowLockQueue` with one producer, one consumer and nobody who stops it

What one step of either of them does to the records on their way (`inside`) and to the steps that are left
(`weight`).  With one producer the consumer never finds the counter positive and the queue empty: while
nobody stops the queue, `waitAndPop` returns with a record or not at all.
-/

namespace LuspUpload.Upload

open Lib

namespace ThreadSafeRowLockQueue

universe u

variable {α : Type u}

/-- The consumer has seen that there is a record and has not removed one yet. -/
def claims : PopPc α → ℕ
  | .testStopping => 1
  | .testDrained => 1
  | .testEmpty => 1
  | .front => 1
  | .pop _ => 1
  | _ => 0

/-- What the consumer has removed and not returned. -/
def held : PopPc α → List α
  | .fetchSub item => [item]
  | _ => []

/-- What a call of `push` has yet to put into the queue. -/
def entering (p : PushPc × α) : List α := if p.1.entering then [p.2] else []

/-- The records on their way, in order. -/
def inside (q : ThreadSafeRowLockQueue α) : List α :=
  held q.consumer ++ q.dataQueue ++ q.pushes.flatMap entering

/-- What every run of the two keeps while nobody stops the queue. -/
structure Steady (q : ThreadSafeRowLockQueue α) : Prop where
  running : q.stopping = false
  alone : q.pushes.length ≤ 1
  locked : q.enqueueLocked = q.pushes.any (·.1.inside)
  counted : q.size = q.dataQueue.length - uncounted q.pushes + overcounted q.consumer
  covered : uncounted q.pushes + claims q.consumer ≤ q.dataQueue.length
  taken : ∀ item, q.consumer = .pop item → q.dataQueue.head? = some item

theorem steady_empty : Steady (empty : ThreadSafeRowLockQueue α) where
  running := rfl
  alone := by simp [empty]
  locked := rfl
  counted := rfl
  covered := le_rfl
  taken := by simp [empty]

/-- The steps of a call of `push` that are left, and those it makes necessary. -/
def pushWeight : PushPc → ℕ
  | .lock => 19
  | .enqueue => 18
  | .fetchAdd => 6
  | .unlock => 5
  | .notifyOne => 4

/-- The steps of `waitAndPop` that are left. -/
def popWeight : PopPc α → ℕ
  | .idle => 0
  | .asleep => 0
  | .sleep => 1
  | .test => 2
  | .lock => 3
  | .woken => 3
  | .fetchSub _ => 7
  | .pop _ => 8
  | .front => 9
  | .testEmpty => 10
  | .testDrained => 11
  | .testStopping => 12

/-- An upper bound on the steps of the two that are left; a record that nobody has claimed counts for
eleven. -/
def weight (q : ThreadSafeRowLockQueue α) : ℕ :=
  (q.pushes.map (pushWeight ·.1)).sum + 11 * (q.dataQueue.length - claims q.consumer) +
    popWeight q.consumer

section Steps

variable {q q' : ThreadSafeRowLockQueue α} {es : List (Event α)} {item : α}

@[simp] theorem held_wake (pc : PopPc α) : held (wake pc) = held pc := by
  cases pc <;> rfl

@[simp] theorem claims_wake (pc : PopPc α) : claims (wake pc) = claims pc := by
  cases pc <;> rfl

theorem wake_eq_pop_iff {pc : PopPc α} : wake pc = .pop item ↔ pc = .pop item := by
  cases pc <;> simp [wake]

theorem wake_eq_idle_iff {pc : PopPc α} : wake pc = .idle ↔ pc = .idle := by
  cases pc <;> simp [wake]

theorem popWeight_wake_le (pc : PopPc α) : popWeight (wake pc) ≤ popWeight pc + 3 := by
  cases pc <;> simp [wake, popWeight]

/-- The consumer is woken and nothing else changes. -/
theorem Steady.wake (h : Steady q) : Steady { q with consumer := wake q.consumer } where
  running := h.running
  alone := h.alone
  locked := h.locked
  counted := by
    rw [overcounted_wake]
    exact h.counted
  covered := by
    rw [claims_wake]
    exact h.covered
  taken := fun item hpop => h.taken item (wake_eq_pop_iff.mp hpop)

/-- A call of `push` begins. -/
theorem Steady.push (h : Steady q) (hpushes : q.pushes = []) :
    Steady { q with pushes := q.pushes ++ [(.lock, item)] } where
  running := h.running
  alone := by simp [hpushes]
  locked := by simp [h.locked]
  counted := by simpa [uncounted] using h.counted
  covered := by simpa [uncounted] using h.covered
  taken := h.taken

theorem inside_push : inside { q with pushes := q.pushes ++ [(.lock, item)] } = inside q ++ [item] := by
  simp [inside, entering]

theorem weight_push : weight { q with pushes := q.pushes ++ [(.lock, item)] } = weight q + 19 := by
  simp only [weight, List.map_append, List.map_cons, List.map_nil, List.sum_append, List.sum_singleton,
    pushWeight]
  omega

/-- The only call in progress moves. -/
theorem step_pushStep {pc : PushPc} (hpushes : q.pushes = [(pc, item)]) :
    q.step (.pushStep 0) = (q.push item pc).map fun r =>
      ({ r.1 with pushes := (r.2.1.map (·, item)).toList }, r.2.2) := by
  simp only [step, hpushes, List.getElem?_cons_zero, Option.bind_some]
  congr 1
  funext r
  cases r.2.1 <;> rfl

/-- What one step of a call of `push` does: it changes what is in the queue before the notification, and with
the notification it returns. -/
structure Pushes (q q' : ThreadSafeRowLockQueue α) : Prop where
  steady : Steady q'
  inside : q'.inside = q.inside
  weight : q'.weight < q.weight
  idle : q'.consumer = .idle ↔ q.consumer = .idle
  returns : q'.pushes = [] → q.Notifies (.pushStep 0) ∧ q'.dataQueue = q.dataQueue ∧
    q'.consumer = ThreadSafeRowLockQueue.wake q.consumer

/-- One step of the call in progress. -/
theorem Steady.pushStep (h : Steady q) (hs : q.step (.pushStep 0) = some (q', es)) : Pushes q q' := by
  obtain ⟨⟨pc, item⟩, hpushes⟩ : ∃ p, q.pushes = [p] := by
    have halone := h.alone
    rcases hq : q.pushes with _ | ⟨p, _ | ⟨p', l⟩⟩
    · simp [step, hq] at hs
    · exact ⟨p, rfl⟩
    · simp [hq] at halone
  rw [step_pushStep hpushes] at hs
  obtain ⟨⟨r, next, es'⟩, hr, heq⟩ := Option.map_eq_some_iff.mp hs
  obtain ⟨rfl, -⟩ := Prod.mk.inj heq
  obtain ⟨hrunning, -, hlocked, hcounted, hcovered, htaken⟩ := h
  simp only [hpushes, uncounted, List.any_cons, List.any_nil, Bool.or_false, List.countP_singleton]
    at hlocked hcounted hcovered
  cases pc with
  | lock =>
    simp only [ThreadSafeRowLockQueue.push] at hr
    split_ifs at hr
    obtain ⟨rfl, rfl, -⟩ := hr
    refine ⟨⟨hrunning, by simp, by simp, ?_, ?_, htaken⟩, ?_, ?_, Iff.rfl, by simp⟩
    · simpa [uncounted] using hcounted
    · simpa [uncounted] using hcovered
    · simp [ThreadSafeRowLockQueue.inside, hpushes, entering]
    · simp [ThreadSafeRowLockQueue.weight, hpushes, pushWeight]
  | enqueue =>
    obtain ⟨rfl, rfl, -⟩ := hr
    refine ⟨⟨hrunning, by simp, by simpa using hlocked, ?_, ?_, ?_⟩, ?_, ?_, Iff.rfl, by simp⟩
    · simpa [uncounted] using hcounted
    · simp [uncounted] at hcovered ⊢
      omega
    · intro x hpop
      show (q.dataQueue ++ [item]).head? = some x
      rw [List.head?_append, htaken x hpop]
      rfl
    · simp [ThreadSafeRowLockQueue.inside, hpushes, entering]
    · simp [ThreadSafeRowLockQueue.weight, hpushes, pushWeight]
      omega
  | fetchAdd =>
    obtain ⟨rfl, rfl, -⟩ := hr
    refine ⟨⟨hrunning, by simp, by simpa using hlocked, ?_, ?_, htaken⟩, ?_, ?_, Iff.rfl, by simp⟩
    · simp [uncounted] at hcounted ⊢
      omega
    · simp [uncounted] at hcovered ⊢
      omega
    · simp [ThreadSafeRowLockQueue.inside, hpushes, entering]
    · simp [ThreadSafeRowLockQueue.weight, hpushes, pushWeight]
  | unlock =>
    obtain ⟨rfl, rfl, -⟩ := hr
    refine ⟨⟨hrunning, by simp, by simp, ?_, ?_, htaken⟩, ?_, ?_, Iff.rfl, by simp⟩
    · simpa [uncounted] using hcounted
    · simpa [uncounted] using hcovered
    · simp [ThreadSafeRowLockQueue.inside, hpushes, entering]
    · simp [ThreadSafeRowLockQueue.weight, hpushes, pushWeight]
  | notifyOne =>
    obtain ⟨rfl, rfl, -⟩ := hr
    refine ⟨⟨hrunning, by simp, by simpa using hlocked, ?_, ?_, ?_⟩, ?_, ?_, wake_eq_idle_iff, ?_⟩
    · simpa [uncounted] using hcounted
    · simpa [uncounted] using hcovered
    · intro x hpop
      exact htaken x (wake_eq_pop_iff.mp hpop)
    · simp [ThreadSafeRowLockQueue.inside, hpushes, entering]
    · have hwoken := popWeight_wake_le q.consumer
      simp [ThreadSafeRowLockQueue.weight, hpushes, pushWeight]
      omega
    · intro _
      exact ⟨by simp [Notifies, hpushes], rfl, rfl⟩

/-- The call in progress can go on. -/
theorem Steady.push_moves (h : Steady q) (hpushes : q.pushes ≠ []) :
    ∃ r, q.step (.pushStep 0) = some r := by
  obtain ⟨⟨pc, item⟩, l, hq⟩ := List.exists_cons_of_ne_nil hpushes
  obtain rfl : l = [] := by
    have halone := h.alone
    rw [hq, List.length_cons] at halone
    exact List.length_eq_zero_iff.mp (by omega)
  have hlocked := h.locked
  rw [step_pushStep hq]
  cases pc with
  | lock =>
    have hfree : q.enqueueLocked = false := by simpa [hq] using hlocked
    simp [ThreadSafeRowLockQueue.push, hfree]
  | _ => exact ⟨_, rfl⟩

/-- `waitAndPop` begins. -/
theorem Steady.waitAndPop (h : Steady q) (hs : q.step .waitAndPop = some (q', es)) :
    Steady q' ∧ q'.inside = q.inside ∧ q'.weight = q.weight + 3 ∧ q'.pushes = q.pushes ∧
      q'.consumer = .lock := by
  cases hpc : q.consumer with
  | idle =>
    simp only [step, hpc] at hs
    obtain ⟨rfl, -⟩ := hs
    refine ⟨⟨h.running, h.alone, h.locked, ?_, ?_, by simp⟩, ?_, ?_, rfl, rfl⟩
    · simpa [hpc, overcounted] using h.counted
    · simpa [hpc, claims] using h.covered
    · simp [ThreadSafeRowLockQueue.inside, hpc, held]
    · simp [ThreadSafeRowLockQueue.weight, hpc, claims, popWeight]
  | _ => simp [step, hpc] at hs

/-- What one step inside `waitAndPop` does: it goes on, or returns with the first of the records on their way. -/
structure Pops (q q' : ThreadSafeRowLockQueue α) (es : List (Event α)) : Prop where
  steady : Steady q'
  pushes : q'.pushes = q.pushes
  weight : q'.weight < q.weight
  goes : es = [] ∧ q'.inside = q.inside ∧ q'.consumer ≠ .idle ∨
    ∃ item, es = [.popped item] ∧ item :: q'.inside = q.inside ∧ q'.consumer = .idle ∧
      q'.weight + 7 = q.weight
  waits : Waits q'.consumer → q'.dataQueue = q.dataQueue ∧
    (Waits q.consumer ∨ q.pushes ≠ [] ∨ q.dataQueue = [])

/-- The consumer moves on and touches nothing else. -/
theorem Steady.moves {pc pc' : PopPc α} (h : Steady q) (hpc : q.consumer = pc)
    (hover : overcounted pc = overcounted pc') (hclaims : claims pc' = claims pc)
    (htaken : ∀ item, pc' = .pop item → q.dataQueue.head? = some item) (hheld : held pc' = held pc)
    (hweight : popWeight pc' < popWeight pc) (hidle : pc' ≠ .idle)
    (hwaits : Waits pc' → Waits pc ∨ q.pushes ≠ [] ∨ q.dataQueue = []) :
    Pops q { q with consumer := pc' } [] where
  steady := ⟨h.running, h.alone, h.locked, by rw [h.counted, hpc, hover],
    by rw [hclaims, ← hpc]; exact h.covered, htaken⟩
  pushes := rfl
  weight := by
    simp only [ThreadSafeRowLockQueue.weight, hclaims, hpc]
    omega
  goes := Or.inl ⟨rfl, by simp [ThreadSafeRowLockQueue.inside, hpc, hheld], hidle⟩
  waits hw := ⟨rfl, by rw [hpc]; exact hwaits hw⟩

/-- One step inside `waitAndPop`. -/
theorem Steady.consumerStep (h : Steady q) (hs : q.step .consumerStep = some (q', es)) : Pops q q' es := by
  replace hs : q.waitAndPop = some (q', es) := hs
  have hcovered := h.covered
  have hcounted := h.counted
  cases hpc : q.consumer with
  | idle => simp [ThreadSafeRowLockQueue.waitAndPop, hpc] at hs
  | asleep => simp [ThreadSafeRowLockQueue.waitAndPop, hpc] at hs
  | lock =>
    simp only [ThreadSafeRowLockQueue.waitAndPop, hpc] at hs
    obtain ⟨rfl, rfl⟩ := hs
    exact h.moves hpc rfl rfl (by simp) rfl (by simp [popWeight]) (by simp) False.elim
  | woken =>
    simp only [ThreadSafeRowLockQueue.waitAndPop, hpc] at hs
    obtain ⟨rfl, rfl⟩ := hs
    exact h.moves hpc rfl rfl (by simp) rfl (by simp [popWeight]) (by simp) False.elim
  | sleep =>
    simp only [ThreadSafeRowLockQueue.waitAndPop, hpc] at hs
    obtain ⟨rfl, rfl⟩ := hs
    exact h.moves hpc rfl rfl (by simp) rfl (by simp [popWeight]) (by simp) Or.inl
  | test =>
    simp only [ThreadSafeRowLockQueue.waitAndPop, hpc] at hs
    obtain ⟨rfl, rfl⟩ := hs
    rw [hpc] at hcounted hcovered
    simp only [overcounted, claims] at hcounted hcovered
    by_cases htest : q.size = 0
    · -- nothing has been counted that is still there
      rw [if_neg (by simp [htest, h.running])]
      refine h.moves hpc rfl rfl (by simp) rfl (by simp [popWeight]) (by simp) ?_
      intro _
      by_cases hnone : q.pushes = []
      · refine Or.inr (Or.inr (List.length_eq_zero_iff.mp ?_))
        simp only [hnone, uncounted, List.countP_nil] at hcounted
        omega
      · exact Or.inr (Or.inl hnone)
    · -- a counted record is there, and the consumer lays claim to it
      rw [if_pos (Or.inl htest)]
      refine ⟨⟨h.running, h.alone, h.locked, ?_, ?_, by simp⟩, rfl, ?_, Or.inl ⟨rfl, ?_, by simp⟩,
        False.elim⟩
      · simpa [overcounted] using hcounted
      · show uncounted q.pushes + 1 ≤ q.dataQueue.length
        omega
      · simp only [ThreadSafeRowLockQueue.weight, hpc, claims, popWeight]
        omega
      · simp [ThreadSafeRowLockQueue.inside, hpc, held]
  | testStopping =>
    simp only [ThreadSafeRowLockQueue.waitAndPop, hpc] at hs
    obtain ⟨rfl, rfl⟩ := hs
    rw [if_neg (by simp [h.running])]
    exact h.moves hpc rfl rfl (by simp) rfl (by simp [popWeight]) (by simp) False.elim
  | testDrained =>
    rw [hpc] at hcovered
    simp only [claims] at hcovered
    have hsome : q.dataQueue.isEmpty = false := by
      rw [List.isEmpty_eq_false_iff, ← List.length_pos_iff]
      omega
    simp only [ThreadSafeRowLockQueue.waitAndPop, hpc, hsome] at hs
    obtain ⟨rfl, rfl⟩ := hs
    exact h.moves hpc rfl rfl (by simp) rfl (by simp [popWeight]) (by simp) False.elim
  | testEmpty =>
    rw [hpc] at hcovered
    simp only [claims] at hcovered
    have hsome : q.dataQueue.isEmpty = false := by
      rw [List.isEmpty_eq_false_iff, ← List.length_pos_iff]
      omega
    simp only [ThreadSafeRowLockQueue.waitAndPop, hpc, hsome] at hs
    obtain ⟨rfl, rfl⟩ := hs
    exact h.moves hpc rfl rfl (by simp) rfl (by simp [popWeight]) (by simp) False.elim
  | front =>
    simp only [ThreadSafeRowLockQueue.waitAndPop, hpc] at hs
    obtain ⟨item, hitem, heq⟩ := Option.map_eq_some_iff.mp hs
    obtain ⟨rfl, rfl⟩ := Prod.mk.inj heq
    refine h.moves hpc rfl rfl ?_ rfl (by simp [popWeight]) (by simp) False.elim
    intro x hx
    obtain rfl := PopPc.pop.inj hx
    exact hitem
  | pop item =>
    simp only [ThreadSafeRowLockQueue.waitAndPop, hpc] at hs
    obtain ⟨rfl, rfl⟩ := hs
    obtain ⟨queue, hqueue⟩ := List.head?_eq_some_iff.mp (h.taken item hpc)
    rw [hpc, hqueue, List.length_cons] at hcounted hcovered
    simp only [overcounted, claims] at hcounted hcovered
    refine ⟨⟨h.running, h.alone, h.locked, ?_, ?_, by simp⟩, rfl, ?_, Or.inl ⟨rfl, ?_, by simp⟩,
      False.elim⟩
    · simp only [hqueue, List.tail_cons, overcounted]
      omega
    · simp only [hqueue, List.tail_cons, claims]
      omega
    · simp only [ThreadSafeRowLockQueue.weight, hpc, hqueue, List.tail_cons, List.length_cons, claims,
        popWeight]
      omega
    · simp [ThreadSafeRowLockQueue.inside, hpc, hqueue, held]
  | fetchSub item =>
    simp only [ThreadSafeRowLockQueue.waitAndPop, hpc] at hs
    obtain ⟨rfl, rfl⟩ := hs
    rw [hpc] at hcounted hcovered
    simp only [overcounted, claims] at hcounted hcovered
    have hweight : weight { q with size := q.size - 1, consumer := .idle } + 7 = q.weight := by
      simp only [ThreadSafeRowLockQueue.weight, hpc, claims, popWeight]
    refine ⟨⟨h.running, h.alone, h.locked, ?_, hcovered, by simp⟩, rfl, by omega,
      Or.inr ⟨item, rfl, ?_, rfl, hweight⟩, False.elim⟩
    · simp only [overcounted]
      omega
    · simp [ThreadSafeRowLockQueue.inside, hpc, held]

/-- A call of `waitAndPop` can go on unless it sleeps. -/
theorem Steady.pop_moves (h : Steady q) (hidle : q.consumer ≠ .idle) (hasleep : q.consumer ≠ .asleep) :
    ∃ r, q.step .consumerStep = some r := by
  show ∃ r, q.waitAndPop = some r
  cases hpc : q.consumer with
  | idle => exact absurd hpc hidle
  | asleep => exact absurd hpc hasleep
  | front =>
    have hcovered := h.covered
    rw [hpc] at hcovered
    obtain ⟨item, queue, hqueue⟩ : ∃ item queue, q.dataQueue = item :: queue := by
      refine List.exists_cons_of_length_pos ?_
      simp only [claims] at hcovered
      omega
    simp [ThreadSafeRowLockQueue.waitAndPop, hpc, hqueue]
  | testDrained => simp only [ThreadSafeRowLockQueue.waitAndPop, hpc]; split_ifs <;> exact ⟨_, rfl⟩
  | testEmpty => simp only [ThreadSafeRowLockQueue.waitAndPop, hpc]; split_ifs <;> exact ⟨_, rfl⟩
  | _ => simp [ThreadSafeRowLockQueue.waitAndPop, hpc]

end Steps

end ThreadSafeRowLockQueue

end LuspUpload.Upload
