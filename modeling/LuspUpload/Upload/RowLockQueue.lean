import LuspUpload.Lib.Calls
import LuspUpload.Lib.Runs
import Mathlib.Data.Int.Notation
import Mathlib.Tactic.Common

/-!
# Upload.RowLockQueue — `ThreadSafeRowLockQueue` under any number of producers and one consumer

A state holds the queue, the counter, the stop flag and where every call in progress stands; an action
names the call that makes its next step.  `push` works under `mEnqueueMutex` and notifies after it; the
predicate of `waitAndPop` reads `mSize` and `mStopping` under `mDequeueMutex`, which no producer takes:
a notification that comes between a false test and the sleep wakes nobody.  `run_no_lost_wakeup` : that is
the only way to sleep through a record or a stop.

Only the consumer takes `mDequeueMutex`, so where it stands says who holds it.  `mSize` is an integer:
it goes below zero when a record is popped before its producer has counted it.
-/

namespace LuspUpload.Upload

open Lib

/-- The next step of a call of `push`. -/
inductive PushPc where
  | lock
  | enqueue
  | fetchAdd
  | unlock
  | notifyOne
  deriving DecidableEq, Repr

/-- The record of a call of `push` is not in the container yet. -/
def PushPc.entering : PushPc → Bool
  | .lock => true
  | .enqueue => true
  | _ => false

/-- A call of `push` holds `mEnqueueMutex`. -/
def PushPc.inside : PushPc → Bool
  | .enqueue => true
  | .fetchAdd => true
  | .unlock => true
  | _ => false

@[simp] theorem PushPc.entering_eq : PushPc.lock.entering = true ∧ PushPc.enqueue.entering = true ∧
    PushPc.fetchAdd.entering = false ∧ PushPc.unlock.entering = false ∧
    PushPc.notifyOne.entering = false := ⟨rfl, rfl, rfl, rfl, rfl⟩

@[simp] theorem PushPc.inside_eq : PushPc.lock.inside = false ∧ PushPc.enqueue.inside = true ∧
    PushPc.fetchAdd.inside = true ∧ PushPc.unlock.inside = true ∧ PushPc.notifyOne.inside = false :=
  ⟨rfl, rfl, rfl, rfl, rfl⟩

/-- The next step of a call of `notifyAll`. -/
inductive NotifyPc where
  | storeStopping
  | notifyAll
  deriving DecidableEq, Repr

/-- Where the consumer is in `waitAndPop`: the lock, the predicate, the wait (`sleep` releases the mutex
and goes to sleep in one step), the stop test, and the removal of the head. -/
inductive PopPc (α : Type*) where
  | idle
  | lock
  | test
  | sleep
  | asleep
  | woken
  | testStopping
  | testDrained
  | testEmpty
  | front
  | pop (item : α)
  | fetchSub (item : α)
  deriving DecidableEq, Repr

/-- The queue and the calls in progress. -/
structure ThreadSafeRowLockQueue (α : Type*) where
  dataQueue : List α
  size : ℤ
  stopping : Bool
  enqueueLocked : Bool
  pushes : List (PushPc × α)
  notifiers : List NotifyPc
  consumer : PopPc α

namespace ThreadSafeRowLockQueue

universe u

variable {α : Type u}

/-- A new queue. -/
def empty : ThreadSafeRowLockQueue α := ⟨[], 0, false, false, [], [], .idle⟩

/-- What goes in and what `waitAndPop` returns; `gaveUp` is a return of false. -/
inductive Event (α : Type u) where
  | pushed (item : α)
  | popped (item : α)
  | gaveUp
  deriving DecidableEq, Repr

/-- Who moves: a call of `push`, `notifyAll` or `waitAndPop` starts or makes its next step; `reset` is one
store; `spuriousWake` wakes the consumer for no reason. -/
inductive Act (α : Type u) where
  | push (item : α)
  | pushStep (i : ℕ)
  | notifyAll
  | notifyStep (i : ℕ)
  | reset
  | waitAndPop
  | consumerStep
  | spuriousWake
  deriving DecidableEq, Repr

/-- A notification reaches the consumer if it is asleep. -/
def wake : PopPc α → PopPc α
  | .asleep => .woken
  | pc => pc

/-- One step of `push`: the state, and the step that follows (`none` when the call returns). -/
def push (s : ThreadSafeRowLockQueue α) (item : α) :
    PushPc → Option (ThreadSafeRowLockQueue α × Option PushPc × List (Event α))
  | .lock => if s.enqueueLocked then none else some ({ s with enqueueLocked := true }, some .enqueue, [])
  | .enqueue => some ({ s with dataQueue := s.dataQueue ++ [item] }, some .fetchAdd, [.pushed item])
  | .fetchAdd => some ({ s with size := s.size + 1 }, some .unlock, [])
  | .unlock => some ({ s with enqueueLocked := false }, some .notifyOne, [])
  | .notifyOne => some ({ s with consumer := wake s.consumer }, none, [])

/-- One step of `notifyAll`. -/
def notifyAll (s : ThreadSafeRowLockQueue α) : NotifyPc → ThreadSafeRowLockQueue α × Option NotifyPc
  | .storeStopping => ({ s with stopping := true }, some .notifyAll)
  | .notifyAll => ({ s with consumer := wake s.consumer }, none)

/-- One step of `waitAndPop`. -/
def waitAndPop (s : ThreadSafeRowLockQueue α) : Option (ThreadSafeRowLockQueue α × List (Event α)) :=
  match s.consumer with
  | .idle => none
  | .asleep => none
  | .lock => some ({ s with consumer := .test }, [])
  | .test =>
    some ({ s with consumer := if s.size ≠ 0 ∨ s.stopping then .testStopping else .sleep }, [])
  | .sleep => some ({ s with consumer := .asleep }, [])
  | .woken => some ({ s with consumer := .test }, [])
  | .testStopping => some ({ s with consumer := if s.stopping then .testDrained else .testEmpty }, [])
  | .testDrained =>
    if s.dataQueue.isEmpty then some ({ s with consumer := .idle }, [.gaveUp])
    else some ({ s with consumer := .testEmpty }, [])
  | .testEmpty =>
    if s.dataQueue.isEmpty then some ({ s with consumer := .idle }, [.gaveUp])
    else some ({ s with consumer := .front }, [])
  | .front => s.dataQueue.head?.map fun item => ({ s with consumer := .pop item }, [])
  | .pop item => some ({ s with dataQueue := s.dataQueue.tail, consumer := .fetchSub item }, [])
  | .fetchSub item => some ({ s with size := s.size - 1, consumer := .idle }, [.popped item])

/-- One step of a schedule; `none` when the call that is to move cannot. -/
def step (s : ThreadSafeRowLockQueue α) : Act α → Option (ThreadSafeRowLockQueue α × List (Event α))
  | .push item => some ({ s with pushes := s.pushes ++ [(.lock, item)] }, [])
  | .pushStep i => s.pushes[i]?.bind fun p => (s.push p.2 p.1).map fun r =>
      ({ r.1 with pushes := moveAt s.pushes i (r.2.1.map (·, p.2)) }, r.2.2)
  | .notifyAll => some ({ s with notifiers := s.notifiers ++ [.storeStopping] }, [])
  | .notifyStep i => s.notifiers[i]?.map fun pc =>
      ({ (s.notifyAll pc).1 with notifiers := moveAt s.notifiers i (s.notifyAll pc).2 }, [])
  | .reset => some ({ s with stopping := false }, [])
  | .waitAndPop =>
    match s.consumer with
    | .idle => some ({ s with consumer := .lock }, [])
    | _ => none
  | .consumerStep => s.waitAndPop
  | .spuriousWake => some ({ s with consumer := wake s.consumer }, [])

/-- The producers, those who stop and the consumer under a schedule. -/
def threads (α : Type u) : Machine (ThreadSafeRowLockQueue α) (Act α) (Event α) := ⟨step⟩

/-- The consumer has nothing to wake up for. -/
def Quiet (s : ThreadSafeRowLockQueue α) : Prop := s.dataQueue = [] ∧ s.stopping = false

instance (s : ThreadSafeRowLockQueue α) : Decidable s.Quiet :=
  decidable_of_iff (s.dataQueue.isEmpty = true ∧ s.stopping = false) (by simp [Quiet])

/-- The step issues a notification. -/
def Notifies (s : ThreadSafeRowLockQueue α) : Act α → Prop
  | .pushStep i => s.pushes[i]?.map Prod.fst = some .notifyOne
  | .notifyStep i => s.notifiers[i]? = some .notifyAll
  | _ => False

/-- The consumer is between a false test and the sleep. -/
def Unaware (s : ThreadSafeRowLockQueue α) : Prop := s.consumer = .sleep

/-- No notification is issued between the consumer's false test and its sleep, unless there is nothing to
tell. -/
def Heard (s : ThreadSafeRowLockQueue α) (a : Act α) : Prop := s.Notifies a → s.Unaware → s.Quiet

instance [DecidableEq α] (s : ThreadSafeRowLockQueue α) (a : Act α) : Decidable (s.Heard a) :=
  match a with
  | .pushStep i => inferInstanceAs (Decidable (s.pushes[i]?.map Prod.fst = some .notifyOne →
      s.consumer = .sleep → s.Quiet))
  | .notifyStep i => inferInstanceAs (Decidable (s.notifiers[i]? = some .notifyAll →
      s.consumer = .sleep → s.Quiet))
  | .push _ => .isTrue nofun
  | .notifyAll => .isTrue nofun
  | .reset => .isTrue nofun
  | .waitAndPop => .isTrue nofun
  | .consumerStep => .isTrue nofun
  | .spuriousWake => .isTrue nofun

/-! ### The invariant -/

/-- A call of `push` has put its record in the queue and has yet to notify. -/
def told : PushPc → Bool
  | .lock => false
  | .enqueue => false
  | _ => true

/-- One of the producers is on the way to notify. -/
def Tells (pushes : List (PushPc × α)) : Prop := ∃ p ∈ pushes, told p.1 = true

/-- The records in the queue that their producers have not counted yet. -/
def uncounted (pushes : List (PushPc × α)) : ℕ := pushes.countP (·.1 = .fetchAdd)

/-- The records that the consumer has popped and that are still counted. -/
def overcounted : PopPc α → ℤ
  | .fetchSub _ => 1
  | _ => 0

/-- The consumer has tested the predicate and is not awake. -/
def Waits : PopPc α → Prop
  | .sleep => True
  | .asleep => True
  | _ => False

/-- The consumer is about to take the head. -/
def Takes : PopPc α → Prop
  | .front => True
  | .pop _ => True
  | _ => False

/-- What every run keeps: the counter follows the queue, the consumer takes a head that is there, and
if it waits with something to do, somebody is on the way to tell it. -/
structure Attended (s : ThreadSafeRowLockQueue α) : Prop where
  counted : s.size = s.dataQueue.length - uncounted s.pushes + overcounted s.consumer
  head : Takes s.consumer → s.dataQueue ≠ []
  called : Waits s.consumer → s.Quiet ∨ Tells s.pushes ∨ .notifyAll ∈ s.notifiers

theorem attended_empty : Attended (empty : ThreadSafeRowLockQueue α) where
  counted := rfl
  head := False.elim
  called := False.elim

section Steps

variable {s s' : ThreadSafeRowLockQueue α} {es : List (Event α)} {item : α}

@[simp] theorem overcounted_wake (pc : PopPc α) : overcounted (wake pc) = overcounted pc := by
  cases pc <;> rfl

@[simp] theorem takes_wake (pc : PopPc α) : Takes (wake pc) ↔ Takes pc := by
  cases pc <;> rfl

/-- A consumer that still waits after a notification was not asleep. -/
theorem waits_wake {pc : PopPc α} (h : Waits (wake pc)) : pc = .sleep := by
  cases pc with
  | sleep => rfl
  | _ => exact h.elim

@[simp] theorem tells_append (l l' : List (PushPc × α)) : Tells (l ++ l') ↔ Tells l ∨ Tells l' := by
  simp only [Tells, List.mem_append, or_and_right, exists_or]

@[simp] theorem tells_cons (pc : PushPc) (l : List (PushPc × α)) :
    Tells ((pc, item) :: l) ↔ told pc = true ∨ Tells l := by
  simp [Tells]

@[simp] theorem uncounted_append (l l' : List (PushPc × α)) :
    uncounted (l ++ l') = uncounted l + uncounted l' := List.countP_append

@[simp] theorem uncounted_cons (pc : PushPc) (l : List (PushPc × α)) :
    uncounted ((pc, item) :: l) = uncounted l + if pc = .fetchAdd then 1 else 0 := by
  simp [uncounted, List.countP_cons]

/-- One step of `push`, on its own: `before` and `after` are the other producers. -/
theorem Attended.push {before after : List (PushPc × α)} {pc : PushPc} {next : Option PushPc}
    {r : ThreadSafeRowLockQueue α} (h : Attended s) (hsplit : s.pushes = before ++ (pc, item) :: after)
    (hheard : pc = .notifyOne → s.Unaware → s.Quiet) (hr : s.push item pc = some (r, next, es)) :
    Attended { r with pushes := before ++ (next.map (·, item)).toList ++ after } := by
  obtain ⟨hcounted, hhead, hcalled⟩ := h
  rw [hsplit] at hcounted hcalled
  simp only [uncounted_append, uncounted_cons, tells_append, tells_cons] at hcounted hcalled
  cases pc with
  | lock =>
    simp only [ThreadSafeRowLockQueue.push] at hr
    split_ifs at hr
    obtain ⟨rfl, rfl, -⟩ := hr
    refine ⟨?_, hhead, ?_⟩
    · simpa using hcounted
    · intro hw
      simpa [Quiet, told] using hcalled hw
  | enqueue =>
    obtain ⟨rfl, rfl, -⟩ := hr
    refine ⟨?_, ?_, ?_⟩
    · simp at hcounted ⊢
      omega
    · simp
    · intro _
      refine Or.inr (Or.inl ?_)
      simp [told]
  | fetchAdd =>
    obtain ⟨rfl, rfl, -⟩ := hr
    refine ⟨?_, hhead, ?_⟩
    · simp at hcounted ⊢
      omega
    · intro _
      refine Or.inr (Or.inl ?_)
      simp [told]
  | unlock =>
    obtain ⟨rfl, rfl, -⟩ := hr
    refine ⟨?_, hhead, ?_⟩
    · simpa using hcounted
    · intro _
      refine Or.inr (Or.inl ?_)
      simp [told]
  | notifyOne =>
    obtain ⟨rfl, rfl, -⟩ := hr
    refine ⟨?_, ?_, ?_⟩
    · simpa using hcounted
    · intro ht
      exact hhead ((takes_wake _).mp ht)
    · intro hw
      exact Or.inl (hheard rfl (waits_wake hw))

/-- One step of `notifyAll`. -/
theorem Attended.notifyAll {before after : List NotifyPc} {pc : NotifyPc} (h : Attended s)
    (hsplit : s.notifiers = before ++ pc :: after) (hheard : pc = .notifyAll → s.Unaware → s.Quiet) :
    Attended { (s.notifyAll pc).1 with
      notifiers := before ++ (s.notifyAll pc).2.toList ++ after } := by
  cases pc with
  | storeStopping =>
    refine ⟨h.counted, h.head, ?_⟩
    intro _
    exact Or.inr (Or.inr (by simp [ThreadSafeRowLockQueue.notifyAll]))
  | notifyAll =>
    refine ⟨?_, ?_, ?_⟩
    · show s.size = _ - _ + overcounted (wake s.consumer)
      rw [overcounted_wake]
      exact h.counted
    · intro ht
      exact h.head ((takes_wake _).mp ht)
    · intro hw
      exact Or.inl (hheard rfl (waits_wake hw))

/-- The consumer moves and touches nothing else. -/
theorem Attended.consumer (h : Attended s) {pc : PopPc α}
    (hover : overcounted s.consumer = overcounted pc) (htakes : Takes pc → s.dataQueue ≠ [])
    (hwaits : Waits pc → s.Quiet ∨ Tells s.pushes ∨ .notifyAll ∈ s.notifiers) :
    Attended { s with consumer := pc } where
  counted := by
    rw [h.counted, hover]
  head := htakes
  called := hwaits

/-- It moves on to a place where it neither waits nor has a head to take. -/
theorem Attended.moves (h : Attended s) {pc pc' : PopPc α} (hpc : s.consumer = pc)
    (hover : overcounted pc = overcounted pc') (htakes : ¬ Takes pc') (hwaits : ¬ Waits pc') :
    Attended { s with consumer := pc' } := by
  rw [← hpc] at hover
  exact h.consumer hover (fun ht => absurd ht htakes) (fun hw => absurd hw hwaits)

/-- A false test: the queue is empty, or a producer has yet to count its record. -/
theorem Attended.test_false (h : Attended s) (hover : overcounted s.consumer = 0) (hsize : s.size = 0)
    (hstopping : s.stopping = false) : s.Quiet ∨ Tells s.pushes := by
  have hcounted := h.counted
  rcases hqueue : s.dataQueue with _ | ⟨x, queue⟩
  · exact Or.inl ⟨hqueue, hstopping⟩
  · right
    rw [hsize, hover, hqueue, List.length_cons] at hcounted
    have hpos : 0 < uncounted s.pushes := by omega
    obtain ⟨p, hp, hpc⟩ := List.countP_pos_iff.mp hpos
    refine ⟨p, hp, ?_⟩
    rw [decide_eq_true_iff.mp hpc]
    rfl

/-- One step of `waitAndPop`. -/
theorem Attended.waitAndPop (h : Attended s) (hs : s.waitAndPop = some (s', es)) : Attended s' := by
  have hover := h.counted
  cases hpc : s.consumer with
  | idle => simp [ThreadSafeRowLockQueue.waitAndPop, hpc] at hs
  | asleep => simp [ThreadSafeRowLockQueue.waitAndPop, hpc] at hs
  | lock =>
    simp only [ThreadSafeRowLockQueue.waitAndPop, hpc] at hs
    obtain ⟨rfl, -⟩ := hs
    exact h.moves hpc rfl id id
  | test =>
    simp only [ThreadSafeRowLockQueue.waitAndPop, hpc] at hs
    obtain ⟨rfl, -⟩ := hs
    by_cases htest : s.size ≠ 0 ∨ s.stopping
    · rw [if_pos htest]
      exact h.moves hpc rfl id id
    · rw [if_neg htest]
      push Not at htest
      refine h.consumer (by rw [hpc]; rfl) False.elim ?_
      intro _
      exact (h.test_false (by rw [hpc]; rfl) htest.1 (by simpa using htest.2)).imp_right Or.inl
  | sleep =>
    simp only [ThreadSafeRowLockQueue.waitAndPop, hpc] at hs
    obtain ⟨rfl, -⟩ := hs
    refine h.consumer (by rw [hpc]; rfl) False.elim ?_
    intro _
    exact h.called (by rw [hpc]; trivial)
  | woken =>
    simp only [ThreadSafeRowLockQueue.waitAndPop, hpc] at hs
    obtain ⟨rfl, -⟩ := hs
    exact h.moves hpc rfl id id
  | testStopping =>
    simp only [ThreadSafeRowLockQueue.waitAndPop, hpc] at hs
    obtain ⟨rfl, -⟩ := hs
    split_ifs
    · exact h.moves hpc rfl id id
    · exact h.moves hpc rfl id id
  | testDrained =>
    simp only [ThreadSafeRowLockQueue.waitAndPop, hpc] at hs
    split_ifs at hs
    · obtain ⟨rfl, -⟩ := hs
      exact h.moves hpc rfl id id
    · obtain ⟨rfl, -⟩ := hs
      exact h.moves hpc rfl id id
  | testEmpty =>
    simp only [ThreadSafeRowLockQueue.waitAndPop, hpc] at hs
    split_ifs at hs with hempty
    · obtain ⟨rfl, -⟩ := hs
      exact h.moves hpc rfl id id
    · obtain ⟨rfl, -⟩ := hs
      exact h.consumer (by rw [hpc]; rfl) (fun _ => by simpa using hempty) False.elim
  | front =>
    simp only [ThreadSafeRowLockQueue.waitAndPop, hpc] at hs
    obtain ⟨item, hitem, heq⟩ := Option.map_eq_some_iff.mp hs
    obtain ⟨rfl, -⟩ := Prod.mk.inj heq
    exact h.consumer (by rw [hpc]; rfl) (fun _ => h.head (by rw [hpc]; trivial)) False.elim
  | pop item =>
    simp only [ThreadSafeRowLockQueue.waitAndPop, hpc] at hs
    obtain ⟨rfl, -⟩ := hs
    have hhead := h.head (by rw [hpc]; trivial)
    refine ⟨?_, False.elim, False.elim⟩
    show s.size = s.dataQueue.tail.length - uncounted s.pushes + 1
    rw [hpc] at hover
    have hpos := List.length_pos_iff.mpr hhead
    rw [List.length_tail]
    simp only [overcounted] at hover
    omega
  | fetchSub item =>
    simp only [ThreadSafeRowLockQueue.waitAndPop, hpc] at hs
    obtain ⟨rfl, -⟩ := hs
    refine ⟨?_, False.elim, False.elim⟩
    show s.size - 1 = s.dataQueue.length - uncounted s.pushes + 0
    rw [hpc] at hover
    simp only [overcounted] at hover
    omega

/-- One step of a schedule. -/
theorem Attended.step (h : Attended s) {a : Act α} (hheard : s.Heard a)
    (hs : step s a = some (s', es)) : Attended s' := by
  cases a with
  | push item =>
    obtain ⟨rfl, -⟩ := hs
    refine ⟨?_, h.head, ?_⟩
    · simpa [uncounted] using h.counted
    · intro hw
      simpa [Quiet, told, Tells] using h.called hw
  | pushStep i =>
    obtain ⟨⟨pc, item⟩, hp, hs⟩ := Option.bind_eq_some_iff.mp hs
    obtain ⟨⟨r, next, es'⟩, hr, heq⟩ := Option.map_eq_some_iff.mp hs
    obtain ⟨rfl, -⟩ := Prod.mk.inj heq
    obtain ⟨before, after, hsplit, hmove⟩ := moveAt_split hp
    rw [hmove]
    refine h.push hsplit ?_ hr
    rintro rfl
    exact hheard (by rw [Notifies, hp]; rfl)
  | notifyAll =>
    obtain ⟨rfl, -⟩ := hs
    refine ⟨h.counted, h.head, ?_⟩
    intro hw
    rcases h.called hw with hquiet | htells | hmem
    · exact Or.inl hquiet
    · exact Or.inr (Or.inl htells)
    · exact Or.inr (Or.inr (List.mem_append_left _ hmem))
  | notifyStep i =>
    obtain ⟨pc, hp, heq⟩ := Option.map_eq_some_iff.mp hs
    obtain ⟨rfl, -⟩ := Prod.mk.inj heq
    obtain ⟨before, after, hsplit, hmove⟩ := moveAt_split hp
    rw [hmove]
    refine h.notifyAll hsplit ?_
    rintro rfl
    exact hheard hp
  | reset =>
    obtain ⟨rfl, -⟩ := hs
    refine ⟨h.counted, h.head, ?_⟩
    intro hw
    exact (h.called hw).imp_left fun hquiet => ⟨hquiet.1, rfl⟩
  | waitAndPop =>
    cases hpc : s.consumer with
    | idle =>
      simp only [ThreadSafeRowLockQueue.step, hpc] at hs
      obtain ⟨rfl, -⟩ := hs
      exact h.moves hpc rfl id id
    | _ => simp [ThreadSafeRowLockQueue.step, hpc] at hs
  | consumerStep => exact h.waitAndPop hs
  | spuriousWake =>
    obtain ⟨rfl, -⟩ := hs
    refine h.consumer (overcounted_wake _).symm (fun ht => h.head ((takes_wake _).mp ht)) ?_
    intro hw
    refine h.called ?_
    rw [waits_wake hw]
    trivial

end Steps

/-- **No lost wake-up**, as long as every notification is heard: when the consumer sleeps and no call is
in progress, there is no record and no stop to wake up for. -/
theorem run_no_lost_wakeup {as : List (Act α)} (hheard : (threads α).Along Heard empty as)
    {s : ThreadSafeRowLockQueue α} {es : List (Event α)}
    (hrun : (threads α).run empty as = some (s, es)) (hasleep : s.consumer = .asleep)
    (hpushes : s.pushes = []) (hnotifiers : s.notifiers = []) :
    s.dataQueue = [] ∧ s.stopping = false := by
  have hattended := Machine.Along.invariant (M := threads α) (I := fun s _ => Attended s)
    (fun _ _ _ _ _ h ha hs => h.step ha hs) hheard attended_empty (h := []) hrun
  rcases hattended.called (by rw [hasleep]; trivial) with hquiet | ⟨p, hp, -⟩ | hmem
  · exact hquiet
  · rw [hpushes] at hp
    exact absurd hp List.not_mem_nil
  · rw [hnotifiers] at hmem
    exact absurd hmem List.not_mem_nil

/-- The consumer waits, is woken by the first record, takes it and waits again. -/
theorem run_no_lost_wakeup_served : ∃ s es, (threads ℕ).run empty
    [.waitAndPop, .consumerStep, .consumerStep, .push 7, .pushStep 0, .pushStep 0, .consumerStep,
      .pushStep 0, .pushStep 0, .pushStep 0, .consumerStep, .consumerStep, .consumerStep, .consumerStep,
      .consumerStep, .consumerStep, .consumerStep, .waitAndPop, .consumerStep, .consumerStep,
      .consumerStep] = some (s, es) ∧ es = [.pushed 7, .popped 7] ∧ s.consumer = .asleep ∧
    s.dataQueue = [] ∧ s.stopping = false := by
  have hend : ((threads ℕ).run empty [.waitAndPop, .consumerStep, .consumerStep, .push 7, .pushStep 0,
      .pushStep 0, .consumerStep, .pushStep 0, .pushStep 0, .pushStep 0, .consumerStep, .consumerStep,
      .consumerStep, .consumerStep, .consumerStep, .consumerStep, .consumerStep, .waitAndPop,
      .consumerStep, .consumerStep, .consumerStep]).map
        (fun r => (r.2, r.1.consumer, r.1.pushes, r.1.notifiers)) =
      some ([.pushed 7, .popped 7], .asleep, [], []) := by rfl
  obtain ⟨⟨s, es⟩, hrun, hq⟩ := Option.map_eq_some_iff.mp hend
  simp only [Prod.mk.injEq] at hq
  obtain ⟨hes, hasleep, hpushes, hnotifiers⟩ := hq
  exact ⟨s, es, hrun, hes, hasleep,
    run_no_lost_wakeup (by decide +kernel) hrun hasleep hpushes hnotifiers⟩

/-- A notification that is not heard, with nobody else on the way: the consumer goes to sleep over what it
was to be told. -/
theorem unheard_sleeps {s : ThreadSafeRowLockQueue α} {item : α} (hpushes : s.pushes = [(.notifyOne, item)])
    (hnotifiers : s.notifiers = []) (hunaware : s.Unaware) (hquiet : ¬ s.Quiet) :
    ∃ s', (threads α).run s [.pushStep 0, .consumerStep] = some (s', []) ∧ s'.consumer = .asleep ∧
      s'.pushes = [] ∧ s'.notifiers = [] ∧ ¬ s'.Quiet := by
  refine ⟨{ s with pushes := [], consumer := .asleep }, ?_, rfl, rfl, hnotifiers, hquiet⟩
  simp [threads, Machine.run, step, hpushes, push, moveAt, waitAndPop, wake,
    show s.consumer = .sleep from hunaware]

/-- The whole of `push` runs between the test and the sleep: the record stays in the queue and the
consumer asleep. -/
theorem push_before_sleep : ∃ s es, (threads ℕ).run empty
    [.waitAndPop, .consumerStep, .consumerStep, .push 7, .pushStep 0, .pushStep 0, .pushStep 0,
      .pushStep 0, .pushStep 0, .consumerStep] = some (s, es) ∧ s.consumer = .asleep ∧ s.pushes = [] ∧
    s.notifiers = [] ∧ s.dataQueue = [7] ∧ ¬ (s.dataQueue = [] ∧ s.stopping = false) := by
  have hend : ((threads ℕ).run empty [.waitAndPop, .consumerStep, .consumerStep, .push 7, .pushStep 0,
      .pushStep 0, .pushStep 0, .pushStep 0, .pushStep 0, .consumerStep]).map
        (fun r => (r.1.consumer, r.1.pushes, r.1.notifiers, r.1.dataQueue)) =
      some (.asleep, [], [], [7]) := by rfl
  obtain ⟨⟨s, es⟩, hrun, hq⟩ := Option.map_eq_some_iff.mp hend
  simp only [Prod.mk.injEq] at hq
  obtain ⟨hasleep, hpushes, hnotifiers, hqueue⟩ := hq
  refine ⟨s, es, hrun, hasleep, hpushes, hnotifiers, hqueue, ?_⟩
  rintro ⟨hnil, -⟩
  rw [hqueue] at hnil
  exact absurd hnil (by simp)

end ThreadSafeRowLockQueue

end LuspUpload.Upload
