import LuspUpload.Upload.RowLockQueue
import Mathlib.Algebra.Order.Ring.Nat
import Mathlib.Data.Bool.Basic

/-!
# Upload.QueueCounter — the counter of `ThreadSafeRowLockQueue` under any number of threads

`Upload.RowLockQueue` follows the wake-ups of one consumer; here any number of threads are in `push`,
`waitAndPop`, `tryPop` and `notifyAll`, and every `std::queue` operation and every atomic operation is one
step.  A sleeping consumer may wake at any time (the standard allows it), so a notification changes
nothing.  `push` inserts and counts under `mEnqueueMutex`, the consumers look at the container itself under
`mDequeueMutex` and count off: a record can be counted off before it was counted.

`mSize` is the number that the atomic operations add up; `size` is what a load returns.
-/

namespace LuspUpload.Upload

open Lib

/-- The calls that take a record out. -/
inductive Taker where
  | waitAndPop
  | tryPop
  deriving DecidableEq, Repr

/-- The next step of such a call.  `loadSize` and `loadStopping` are the predicate of the wait; `sleep`
releases the mutex, and `asleep` takes it again. -/
inductive TakePc (α : Type*) where
  | lock
  | loadSize
  | loadStopping
  | sleep
  | asleep
  | testStopping
  | testDrained
  | testEmpty
  | front
  | pop (item : α)
  | fetchSub (item : α)
  | unlock (item : Option α)
  deriving DecidableEq, Repr

/-- A consumer holds `mDequeueMutex`. -/
def TakePc.inside {α : Type*} : TakePc α → Bool
  | .lock => false
  | .asleep => false
  | _ => true

/-- A consumer has removed a record that is still counted. -/
def TakePc.took {α : Type*} : TakePc α → Bool
  | .fetchSub _ => true
  | _ => false

/-- The queue and the calls in progress; `pushCalls` is the number of calls of `push` so far. -/
structure RowLockQueue (α : Type*) where
  dataQueue : List α
  mSize : ℤ
  stopping : Bool
  enqueueLocked : Bool
  dequeueLocked : Bool
  pushes : List (PushPc × α)
  takers : List (Taker × TakePc α)
  notifiers : List NotifyPc
  pushCalls : ℕ

namespace RowLockQueue

universe u

variable {α : Type u}

/-- A new queue. -/
def empty : RowLockQueue α := ⟨[], 0, false, false, false, [], [], [], 0⟩

/-- `size`: the counter as a `size_t`. -/
def size (s : RowLockQueue α) : ℕ := (s.mSize % 2 ^ 64).toNat

/-- A consumer's call returns, with a record or with false. -/
inductive Event (α : Type u) where
  | returned (caller : Taker) (item : Option α)
  deriving DecidableEq, Repr

/-- A call starts or makes its next step. -/
inductive Act (α : Type u) where
  | push (item : α)
  | pushStep (i : ℕ)
  | take (caller : Taker)
  | takeStep (i : ℕ)
  | notifyAll
  | notifyStep (i : ℕ)
  deriving DecidableEq, Repr

/-- One step of `push`: the state, and the step that follows (`none` when the call returns). -/
def push (s : RowLockQueue α) (item : α) : PushPc → Option (RowLockQueue α × Option PushPc)
  | .lock => if s.enqueueLocked then none else some ({ s with enqueueLocked := true }, some .enqueue)
  | .enqueue => some ({ s with dataQueue := s.dataQueue ++ [item] }, some .fetchAdd)
  | .fetchAdd => some ({ s with mSize := s.mSize + 1 }, some .unlock)
  | .unlock => some ({ s with enqueueLocked := false }, some .notifyOne)
  | .notifyOne => some (s, none)

/-- One step of `waitAndPop` or `tryPop`, which share the removal. -/
def take (s : RowLockQueue α) (caller : Taker) :
    TakePc α → Option (RowLockQueue α × Option (TakePc α) × List (Event α))
  | .lock =>
    if s.dequeueLocked then none
    else some ({ s with dequeueLocked := true },
      some (match caller with
        | .waitAndPop => .loadSize
        | .tryPop => .testEmpty), [])
  | .loadSize => some (s, some (if s.size = 0 then .loadStopping else .testStopping), [])
  | .loadStopping => some (s, some (if s.stopping then .testStopping else .sleep), [])
  | .sleep => some ({ s with dequeueLocked := false }, some .asleep, [])
  | .asleep =>
    if s.dequeueLocked then none else some ({ s with dequeueLocked := true }, some .loadSize, [])
  | .testStopping => some (s, some (if s.stopping then .testDrained else .testEmpty), [])
  | .testDrained => some (s, some (if s.dataQueue = [] then .unlock none else .testEmpty), [])
  | .testEmpty => some (s, some (if s.dataQueue = [] then .unlock none else .front), [])
  | .front => s.dataQueue.head?.map fun item => (s, some (.pop item), [])
  | .pop item => some ({ s with dataQueue := s.dataQueue.tail }, some (.fetchSub item), [])
  | .fetchSub item => some ({ s with mSize := s.mSize - 1 }, some (.unlock (some item)), [])
  | .unlock item => some ({ s with dequeueLocked := false }, none, [.returned caller item])

/-- One step of `notifyAll`. -/
def notifyAll (s : RowLockQueue α) : NotifyPc → RowLockQueue α × Option NotifyPc
  | .storeStopping => ({ s with stopping := true }, some .notifyAll)
  | .notifyAll => (s, none)

/-- One step of a schedule; `none` when the call that is to move cannot. -/
def step (s : RowLockQueue α) : Act α → Option (RowLockQueue α × List (Event α))
  | .push item => some ({ s with pushes := s.pushes ++ [(.lock, item)], pushCalls := s.pushCalls + 1 }, [])
  | .pushStep i => s.pushes[i]?.bind fun p => (s.push p.2 p.1).map fun r =>
      ({ r.1 with pushes := moveAt s.pushes i (r.2.map (·, p.2)) }, [])
  | .take caller => some ({ s with takers := s.takers ++ [(caller, .lock)] }, [])
  | .takeStep i => s.takers[i]?.bind fun t => (s.take t.1 t.2).map fun r =>
      ({ r.1 with takers := moveAt s.takers i (r.2.1.map (t.1, ·)) }, r.2.2)
  | .notifyAll => some ({ s with notifiers := s.notifiers ++ [.storeStopping] }, [])
  | .notifyStep i => s.notifiers[i]?.map fun pc =>
      ({ (s.notifyAll pc).1 with notifiers := moveAt s.notifiers i (s.notifyAll pc).2 }, [])

/-- The threads under a schedule. -/
def threads (α : Type u) : Machine (RowLockQueue α) (Act α) (Event α) := ⟨step⟩

/-- The step counts a record off. -/
def CountsOff (s : RowLockQueue α) : Act α → Prop
  | .takeStep i => ∃ t ∈ s.takers[i]?, ∃ item, t.2 = .fetchSub item
  | _ => False

/-- No call is in progress. -/
def Idle (s : RowLockQueue α) : Prop := s.pushes = [] ∧ s.takers = [] ∧ s.notifiers = []

/-- What the counter and `waitAndPop` are to give, in a state and in the step from it. -/
structure Sound (s : RowLockQueue α) (a : Act α) : Prop where
  positive : s.CountsOff a → 0 < s.mSize
  bounded : s.size ≤ s.pushCalls
  exact : s.Idle → s.mSize = s.dataQueue.length
  gaveUp : ∀ s' es, step s a = some (s', es) → .returned .waitAndPop none ∈ es → s.stopping = true

/-- A record is not counted off while the container is empty and a producer has a record still to count. -/
def Counted (s : RowLockQueue α) (a : Act α) : Prop :=
  s.CountsOff a → ¬ (s.dataQueue = [] ∧ ∃ p ∈ s.pushes, p.1 = .fetchAdd)

/-! ### The invariant -/

/-- What the tests of a consumer have established, and the mutex keeps. -/
def Ready (queue : List α) (stopping : Bool) : Taker × TakePc α → Prop
  | (.waitAndPop, .testStopping) => queue ≠ [] ∨ stopping = true
  | (.waitAndPop, .testDrained) => stopping = true
  | (.waitAndPop, .testEmpty) => queue ≠ [] ∨ stopping = true
  | (.waitAndPop, .unlock none) => stopping = true
  | (_, .front) => queue ≠ []
  | (_, .pop _) => queue ≠ []
  | _ => True

/-- What every run along `Counted` keeps: the counter follows the container, each mutex has at most one
holder, and the consumer inside stands where its tests allow. -/
structure Inv (s : RowLockQueue α) : Prop where
  counted : s.mSize = s.dataQueue.length - s.pushes.countP (·.1 = .fetchAdd) +
    s.takers.countP (·.2.took)
  nonneg : 0 ≤ s.mSize
  started : s.dataQueue.length + s.takers.countP (·.2.took) + s.pushes.countP (·.1.entering) ≤ s.pushCalls
  producer : s.pushes.countP (·.1.inside) = s.enqueueLocked.toNat
  consumer : s.takers.countP (·.2.inside) = s.dequeueLocked.toNat
  ready : ∀ t ∈ s.takers, Ready s.dataQueue s.stopping t

theorem inv_empty : Inv (empty : RowLockQueue α) where
  counted := rfl
  nonneg := le_refl 0
  started := le_refl 0
  producer := rfl
  consumer := rfl
  ready := List.forall_mem_nil _

section Steps

variable {s s' : RowLockQueue α} {es : List (Event α)} {item : α} {caller : Taker}

theorem ready_testStopping {queue : List α} {stopping : Bool} (h : queue ≠ [] ∨ stopping = true) :
    Ready queue stopping (caller, .testStopping) := by
  cases caller with
  | waitAndPop => exact h
  | tryPop => trivial

theorem ready_testDrained {queue : List α} {stopping : Bool} (h : stopping = true) :
    Ready queue stopping (caller, .testDrained) := by
  cases caller with
  | waitAndPop => exact h
  | tryPop => trivial

theorem ready_testEmpty {queue : List α} {stopping : Bool} (h : queue ≠ [] ∨ stopping = true) :
    Ready queue stopping (caller, .testEmpty) := by
  cases caller with
  | waitAndPop => exact h
  | tryPop => trivial

theorem ready_front {queue : List α} {stopping : Bool} :
    Ready queue stopping (caller, .front) ↔ queue ≠ [] := by
  cases caller with
  | waitAndPop => exact Iff.rfl
  | tryPop => exact Iff.rfl

theorem ready_pop {queue : List α} {stopping : Bool} :
    Ready queue stopping (caller, .pop item) ↔ queue ≠ [] := by
  cases caller with
  | waitAndPop => exact Iff.rfl
  | tryPop => exact Iff.rfl

/-- What the mutex does not cover: a record or a stop that comes while the consumer looks. -/
theorem Ready.mono {queue queue' : List α} {stopping stopping' : Bool} {t : Taker × TakePc α}
    (h : Ready queue stopping t) (hqueue : queue ≠ [] → queue' ≠ [])
    (hstopping : stopping = true → stopping' = true) : Ready queue' stopping' t := by
  obtain ⟨caller, pc⟩ := t
  cases pc with
  | testStopping =>
    cases caller with
    | waitAndPop => exact ready_testStopping (Or.imp hqueue hstopping h)
    | tryPop => trivial
  | testDrained =>
    cases caller with
    | waitAndPop => exact ready_testDrained (hstopping h)
    | tryPop => trivial
  | testEmpty =>
    cases caller with
    | waitAndPop => exact ready_testEmpty (Or.imp hqueue hstopping h)
    | tryPop => trivial
  | unlock item =>
    cases caller with
    | waitAndPop =>
      cases item with
      | none => exact hstopping h
      | some item => trivial
    | tryPop => trivial
  | front => exact ready_front.mpr (hqueue (ready_front.mp h))
  | pop item => exact ready_pop.mpr (hqueue (ready_pop.mp h))
  | _ => cases caller <;> trivial

/-- A consumer outside the mutex has established nothing. -/
theorem ready_of_outside {queue : List α} {stopping : Bool} {t : Taker × TakePc α}
    (h : t.2.inside = false) : Ready queue stopping t := by
  obtain ⟨caller, pc⟩ := t
  cases pc with
  | lock => cases caller <;> trivial
  | asleep => cases caller <;> trivial
  | _ => exact absurd h (by simp [TakePc.inside])

theorem inside_of_took {pc : TakePc α} (h : pc.took = true) : pc.inside = true := by
  cases pc with
  | fetchSub item => rfl
  | _ => exact absurd h (by simp [TakePc.took])

/-- Who has taken a record holds the mutex. -/
theorem took_le_inside (takers : List (Taker × TakePc α)) :
    takers.countP (·.2.took) ≤ takers.countP (·.2.inside) :=
  List.countP_mono_left fun _ _ h => inside_of_took h

/-- One step of `push`, on its own: `before` and `after` are the other producers. -/
theorem Inv.push {before after : List (PushPc × α)} {pc : PushPc} {next : Option PushPc}
    {r : RowLockQueue α} (h : Inv s) (hsplit : s.pushes = before ++ (pc, item) :: after)
    (hr : s.push item pc = some (r, next)) :
    Inv { r with pushes := before ++ (next.map (·, item)).toList ++ after } := by
  obtain ⟨hcounted, hnonneg, hstarted, hproducer, hconsumer, hready⟩ := h
  rw [hsplit] at hcounted hstarted hproducer
  simp only [List.countP_append, List.countP_cons] at hcounted hstarted hproducer
  cases pc with
  | lock =>
    simp only [RowLockQueue.push] at hr
    split_ifs at hr with hlocked
    obtain ⟨rfl, rfl⟩ := hr
    refine ⟨?_, hnonneg, ?_, ?_, hconsumer, hready⟩
    · simpa using hcounted
    · simpa using hstarted
    · have hfree : s.enqueueLocked.toNat = 0 := by simp [hlocked]
      rw [hfree] at hproducer
      simp only [PushPc.inside_eq] at hproducer
      simp [List.countP_append]
      omega
  | enqueue =>
    obtain ⟨rfl, rfl⟩ := hr
    refine ⟨?_, hnonneg, ?_, ?_, hconsumer, ?_⟩
    · simp at hcounted ⊢
      omega
    · simp at hstarted ⊢
      omega
    · simpa using hproducer
    · intro t ht
      exact (hready t ht).mono (by simp) id
  | fetchAdd =>
    obtain ⟨rfl, rfl⟩ := hr
    refine ⟨?_, ?_, ?_, ?_, hconsumer, hready⟩
    · simp at hcounted ⊢
      omega
    · show 0 ≤ s.mSize + 1
      omega
    · simpa using hstarted
    · simpa using hproducer
  | unlock =>
    obtain ⟨rfl, rfl⟩ := hr
    refine ⟨?_, hnonneg, ?_, ?_, hconsumer, hready⟩
    · simpa using hcounted
    · simpa using hstarted
    · have hone := s.enqueueLocked.toNat_le
      simp only [PushPc.inside_eq, if_true] at hproducer
      show List.countP _ (before ++ [(PushPc.notifyOne, item)] ++ after) = 0
      simp only [List.countP_append, List.countP_cons, List.countP_nil, PushPc.inside_eq,
        Bool.false_eq_true, if_false]
      omega
  | notifyOne =>
    obtain ⟨rfl, rfl⟩ := hr
    refine ⟨?_, hnonneg, ?_, ?_, hconsumer, hready⟩
    · simpa using hcounted
    · simpa using hstarted
    · simpa using hproducer

/-- One step of `notifyAll`. -/
theorem Inv.notifyAll {notifiers : List NotifyPc} (h : Inv s) (pc : NotifyPc) :
    Inv { (s.notifyAll pc).1 with notifiers := notifiers } := by
  obtain ⟨hcounted, hnonneg, hstarted, hproducer, hconsumer, hready⟩ := h
  cases pc with
  | storeStopping =>
    refine ⟨hcounted, hnonneg, hstarted, hproducer, hconsumer, ?_⟩
    intro t ht
    exact (hready t ht).mono id (fun _ => rfl)
  | notifyAll => exact ⟨hcounted, hnonneg, hstarted, hproducer, hconsumer, hready⟩

section Takers

variable {before after : List (Taker × TakePc α)} {pc pc' : TakePc α}

/-- A step of a consumer, by what it leaves in the container, the counter and the mutex. -/
theorem Inv.takes (h : Inv s) (hsplit : s.takers = before ++ (caller, pc) :: after) (queue : List α)
    (size : ℤ) (locked : Bool) (next : Option (TakePc α))
    (hcount : size - queue.length - (next.any TakePc.took).toNat =
      s.mSize - s.dataQueue.length - pc.took.toNat)
    (hnonneg : 0 ≤ size)
    (hlength : queue.length + (next.any TakePc.took).toNat ≤ s.dataQueue.length + pc.took.toNat)
    (hlock : (next.any TakePc.inside).toNat + s.dequeueLocked.toNat = pc.inside.toNat + locked.toNat)
    (hothers : ∀ t, t ∈ before ∨ t ∈ after → Ready queue s.stopping t)
    (hready : ∀ pc' ∈ next, Ready queue s.stopping (caller, pc')) :
    Inv { s with
      dataQueue := queue
      mSize := size
      dequeueLocked := locked
      takers := before ++ (next.map (caller, ·)).toList ++ after } := by
  have hmove : ∀ p : TakePc α → Bool,
      (before ++ (next.map (caller, ·)).toList ++ after).countP (p ·.2) + (p pc).toNat =
        (before ++ (caller, pc) :: after).countP (p ·.2) + (next.any p).toNat := by
    intro p
    have hone := countP_move (p ·.2) before after (caller, pc) (next.map (caller, ·))
    rwa [Option.any_map] at hone
  have htook := hmove TakePc.took
  have hin := hmove TakePc.inside
  have hcounted := h.counted
  have hstarted := h.started
  have hconsumer := h.consumer
  rw [hsplit] at hcounted hstarted hconsumer
  refine ⟨?_, hnonneg, ?_, h.producer, ?_, ?_⟩
  · show size = queue.length - (s.pushes.countP _ : ℕ) +
      ((before ++ (next.map (caller, ·)).toList ++ after).countP _ : ℕ)
    omega
  · show queue.length + (before ++ (next.map (caller, ·)).toList ++ after).countP _ +
      s.pushes.countP _ ≤ s.pushCalls
    omega
  · show (before ++ (next.map (caller, ·)).toList ++ after).countP _ = locked.toNat
    omega
  · intro t ht
    simp only [List.mem_append, Option.mem_toList, Option.map_eq_some_iff] at ht
    rcases ht with (ht | ⟨pc', hpc', rfl⟩) | ht
    · exact hothers t (Or.inl ht)
    · exact hready pc' hpc'
    · exact hothers t (Or.inr ht)

/-- A consumer inside the mutex is the only one there. -/
theorem Inv.alone (h : Inv s) (hsplit : s.takers = before ++ (caller, pc) :: after)
    (hin : pc.inside = true) : s.dequeueLocked = true ∧
      ∀ t, t ∈ before ∨ t ∈ after → t.2.inside = false := by
  have hone := h.consumer
  rw [hsplit, List.countP_append, List.countP_cons, if_pos hin] at hone
  have hle := s.dequeueLocked.toNat_le
  refine ⟨?_, ?_⟩
  · rw [← Bool.toNat_eq_one]
    omega
  · rintro t (ht | ht)
    · have hzero : before.countP (·.2.inside) = 0 := by omega
      simpa using List.countP_eq_zero.mp hzero t ht
    · have hzero : after.countP (·.2.inside) = 0 := by omega
      simpa using List.countP_eq_zero.mp hzero t ht

/-- The others, while a consumer is inside. -/
theorem Inv.others (h : Inv s) (hsplit : s.takers = before ++ (caller, pc) :: after)
    (hin : pc.inside = true) (queue : List α) (stopping : Bool) :
    ∀ t, t ∈ before ∨ t ∈ after → Ready queue stopping t := by
  intro t ht
  exact ready_of_outside ((h.alone hsplit hin).2 t ht)

/-- No record is out and still counted but that of the consumer inside. -/
theorem Inv.took_inside (h : Inv s) (hsplit : s.takers = before ++ (caller, pc) :: after)
    (hin : pc.inside = true) : s.takers.countP (·.2.took) = pc.took.toNat := by
  have hone := h.consumer
  rw [hsplit, List.countP_append, List.countP_cons, if_pos hin] at hone
  have hle := s.dequeueLocked.toNat_le
  have hbefore := took_le_inside before
  have hafter := took_le_inside after
  have hif : (if pc.took = true then 1 else 0) = pc.took.toNat := by cases pc.took <;> rfl
  rw [hsplit, List.countP_append, List.countP_cons, hif]
  omega

/-- A consumer moves on under the mutex and touches nothing. -/
theorem Inv.moves (h : Inv s) (hsplit : s.takers = before ++ (caller, pc) :: after)
    (hin : pc.inside = true) (hin' : pc'.inside = true) (htook : pc.took = pc'.took)
    (hready : Ready s.dataQueue s.stopping (caller, pc')) :
    Inv { s with takers := before ++ [(caller, pc')] ++ after } := by
  have hnext := h.takes hsplit s.dataQueue s.mSize s.dequeueLocked
    (some pc') (by rw [htook]; rfl) h.nonneg (by rw [htook]; rfl) ?_ ?_ ?_
  · exact hnext
  · rw [hin]
    show pc'.inside.toNat + _ = _
    rw [hin']
  · exact h.others hsplit hin s.dataQueue s.stopping
  · rintro _ ⟨⟩
    exact hready

/-- A consumer takes the mutex. -/
theorem Inv.locks (h : Inv s) (hsplit : s.takers = before ++ (caller, pc) :: after)
    (hin : pc.inside = false) (hin' : pc'.inside = true) (htook : pc.took = pc'.took)
    (hfree : s.dequeueLocked = false) (hready : Ready s.dataQueue s.stopping (caller, pc')) :
    Inv { s with dequeueLocked := true, takers := before ++ [(caller, pc')] ++ after } := by
  have hnext := h.takes hsplit s.dataQueue s.mSize true
    (some pc') (by rw [htook]; rfl) h.nonneg (by rw [htook]; rfl) ?_ ?_ ?_
  · exact hnext
  · rw [hin, hfree]
    show pc'.inside.toNat + _ = _
    rw [hin']
    rfl
  · intro t ht
    apply h.ready t
    rw [hsplit]
    rcases ht with ht | ht <;> simp [ht]
  · rintro _ ⟨⟩
    exact hready

/-- A consumer leaves the mutex, to sleep or to return. -/
theorem Inv.unlocks (h : Inv s) (hsplit : s.takers = before ++ (caller, pc) :: after)
    (hin : pc.inside = true) (htook : pc.took = false) {next : Option (TakePc α)}
    (hin' : next.any TakePc.inside = false) :
    Inv { s with
      dequeueLocked := false
      takers := before ++ (next.map (caller, ·)).toList ++ after } := by
  have hout : ∀ pc' ∈ next, pc'.inside = false := by
    intro pc' hpc'
    rw [Option.mem_def.mp hpc'] at hin'
    exact hin'
  have htook' : next.any TakePc.took = false := by
    cases next with
    | none => rfl
    | some pc' =>
      refine Bool.eq_false_iff.mpr fun hyes => ?_
      exact absurd (inside_of_took hyes) (by simp [hout pc' rfl])
  refine h.takes hsplit _ _ _ next ?_ h.nonneg ?_ ?_ ?_ ?_
  · rw [htook', htook]
  · rw [htook', htook]
  · rw [hin', hin, (h.alone hsplit hin).1]
    rfl
  · exact h.others hsplit hin s.dataQueue s.stopping
  · intro pc' hpc'
    exact ready_of_outside (hout pc' hpc')

/-- A counter above zero, seen under the mutex with nothing taken: the container has a record. -/
theorem Inv.nonempty (h : Inv s) (hsplit : s.takers = before ++ (caller, pc) :: after)
    (hin : pc.inside = true) (htook : pc.took = false) (hsize : s.size ≠ 0) : s.dataQueue ≠ [] := by
  intro hnil
  have hcounted := h.counted
  rw [h.took_inside hsplit hin, htook, hnil, List.length_nil, Bool.toNat_false] at hcounted
  have hnonneg := h.nonneg
  have hzero : s.mSize = 0 := by omega
  exact hsize (by simp [size, hzero])

/-- One step of `waitAndPop` or `tryPop`; when it counts a record off, the counter is above zero. -/
theorem Inv.take {next : Option (TakePc α)} {r : RowLockQueue α} (h : Inv s)
    (hsplit : s.takers = before ++ (caller, pc) :: after)
    (hpositive : pc.took = true → 0 < s.mSize) (hr : s.take caller pc = some (r, next, es)) :
    Inv { r with takers := before ++ (next.map (caller, ·)).toList ++ after } := by
  have hmem : (caller, pc) ∈ s.takers := by simp [hsplit]
  have hready := h.ready _ hmem
  cases pc with
  | lock =>
    simp only [RowLockQueue.take] at hr
    split_ifs at hr with hlocked
    obtain ⟨rfl, rfl, -⟩ := hr
    cases caller with
    | waitAndPop => exact h.locks hsplit rfl rfl rfl (by simpa using hlocked) trivial
    | tryPop => exact h.locks hsplit rfl rfl rfl (by simpa using hlocked) trivial
  | loadSize =>
    simp only [RowLockQueue.take] at hr
    obtain ⟨rfl, rfl, -⟩ := hr
    split_ifs with hsize
    · exact h.moves hsplit rfl rfl rfl (by cases caller <;> trivial)
    · exact h.moves hsplit rfl rfl rfl (ready_testStopping (Or.inl (h.nonempty hsplit rfl rfl hsize)))
  | loadStopping =>
    simp only [RowLockQueue.take] at hr
    obtain ⟨rfl, rfl, -⟩ := hr
    split_ifs with hstopping
    · exact h.moves hsplit rfl rfl rfl (ready_testStopping (Or.inr hstopping))
    · exact h.moves hsplit rfl rfl rfl (by cases caller <;> trivial)
  | sleep =>
    simp only [RowLockQueue.take] at hr
    obtain ⟨rfl, rfl, -⟩ := hr
    exact h.unlocks hsplit rfl rfl rfl
  | asleep =>
    simp only [RowLockQueue.take] at hr
    split_ifs at hr with hlocked
    obtain ⟨rfl, rfl, -⟩ := hr
    exact h.locks hsplit rfl rfl rfl (by simpa using hlocked) (by cases caller <;> trivial)
  | testStopping =>
    simp only [RowLockQueue.take] at hr
    obtain ⟨rfl, rfl, -⟩ := hr
    split_ifs with hstopping
    · exact h.moves hsplit rfl rfl rfl (ready_testDrained hstopping)
    · refine h.moves hsplit rfl rfl rfl ?_
      cases caller with
      | waitAndPop => exact hready
      | tryPop => trivial
  | testDrained =>
    simp only [RowLockQueue.take] at hr
    obtain ⟨rfl, rfl, -⟩ := hr
    split_ifs with hnil
    · refine h.moves hsplit rfl rfl rfl ?_
      cases caller with
      | waitAndPop => exact hready
      | tryPop => trivial
    · exact h.moves hsplit rfl rfl rfl (ready_testEmpty (Or.inl hnil))
  | testEmpty =>
    simp only [RowLockQueue.take] at hr
    obtain ⟨rfl, rfl, -⟩ := hr
    split_ifs with hnil
    · refine h.moves hsplit rfl rfl rfl ?_
      cases caller with
      | waitAndPop => exact Or.resolve_left hready (not_not_intro hnil)
      | tryPop => trivial
    · exact h.moves hsplit rfl rfl rfl (ready_front.mpr hnil)
  | front =>
    simp only [RowLockQueue.take] at hr
    obtain ⟨item, -, heq⟩ := Option.map_eq_some_iff.mp hr
    obtain ⟨rfl, rfl, -⟩ := heq
    exact h.moves hsplit rfl rfl rfl (ready_pop.mpr (ready_front.mp hready))
  | pop item =>
    simp only [RowLockQueue.take] at hr
    obtain ⟨rfl, rfl, -⟩ := hr
    have hne : s.dataQueue ≠ [] := ready_pop.mp hready
    have hpos := List.length_pos_iff.mpr hne
    have hlen := s.dataQueue.length_tail
    refine h.takes hsplit _ _ _ (some (.fetchSub item)) ?_ h.nonneg ?_ rfl ?_ ?_
    · show s.mSize - s.dataQueue.tail.length - (1 : ℕ) = s.mSize - s.dataQueue.length - (0 : ℕ)
      omega
    · show s.dataQueue.tail.length + 1 ≤ s.dataQueue.length + 0
      omega
    · exact h.others hsplit rfl _ _
    · rintro _ ⟨⟩
      cases caller <;> trivial
  | fetchSub item =>
    -- the only step that lowers the counter
    simp only [RowLockQueue.take] at hr
    obtain ⟨rfl, rfl, -⟩ := hr
    have hpos := hpositive rfl
    refine h.takes hsplit _ _ _ (some (.unlock (some item))) ?_ ?_ ?_ rfl ?_ ?_
    · show s.mSize - 1 - s.dataQueue.length - (0 : ℕ) = s.mSize - s.dataQueue.length - (1 : ℕ)
      omega
    · show 0 ≤ s.mSize - 1
      omega
    · show s.dataQueue.length + 0 ≤ s.dataQueue.length + 1
      omega
    · exact h.others hsplit rfl _ _
    · rintro _ ⟨⟩
      cases caller <;> trivial
  | unlock item =>
    simp only [RowLockQueue.take] at hr
    obtain ⟨rfl, rfl, -⟩ := hr
    exact h.unlocks hsplit rfl rfl rfl

/-- Only a consumer that gives the mutex back at its end returns something. -/
theorem take_returned {next : Option (TakePc α)} {r : RowLockQueue α} {c : Taker} {item : Option α}
    (hr : s.take caller pc = some (r, next, es)) (hmem : .returned c item ∈ es) :
    caller = c ∧ pc = .unlock item := by
  cases pc with
  | lock =>
    simp only [RowLockQueue.take] at hr
    split_ifs at hr
    obtain ⟨-, -, rfl⟩ := hr
    exact absurd hmem List.not_mem_nil
  | asleep =>
    simp only [RowLockQueue.take] at hr
    split_ifs at hr
    obtain ⟨-, -, rfl⟩ := hr
    exact absurd hmem List.not_mem_nil
  | front =>
    simp only [RowLockQueue.take] at hr
    obtain ⟨item, -, heq⟩ := Option.map_eq_some_iff.mp hr
    obtain ⟨-, -, rfl⟩ := heq
    exact absurd hmem List.not_mem_nil
  | unlock item =>
    simp only [RowLockQueue.take] at hr
    obtain ⟨-, -, rfl⟩ := hr
    simp only [List.mem_singleton, Event.returned.injEq] at hmem
    obtain ⟨rfl, rfl⟩ := hmem
    exact ⟨rfl, rfl⟩
  | _ =>
    simp only [RowLockQueue.take] at hr
    obtain ⟨-, -, rfl⟩ := hr
    exact absurd hmem List.not_mem_nil

end Takers

/-- At most one record is in the container and not counted. -/
theorem Inv.uncounted_le (h : Inv s) : s.pushes.countP (·.1 = .fetchAdd) ≤ 1 := by
  have hinside : s.pushes.countP (·.1 = .fetchAdd) ≤ s.pushes.countP (·.1.inside) := by
    refine List.countP_mono_left fun p _ hp => ?_
    rw [decide_eq_true_iff.mp hp]
    rfl
  rw [h.producer] at hinside
  exact hinside.trans s.enqueueLocked.toNat_le

/-- When a record is counted off, the counter is above zero unless the record was never counted. -/
theorem Inv.positive_iff {a : Act α} (h : Inv s) (hoff : s.CountsOff a) :
    0 < s.mSize ↔ ¬ (s.dataQueue = [] ∧ ∃ p ∈ s.pushes, p.1 = .fetchAdd) := by
  have hunc : 0 < s.pushes.countP (·.1 = .fetchAdd) ↔ ∃ p ∈ s.pushes, p.1 = .fetchAdd := by
    simp [List.countP_pos_iff]
  rw [← hunc, ← List.length_eq_zero_iff]
  have hle := h.uncounted_le
  have hcounted := h.counted
  cases a with
  | takeStep i =>
    obtain ⟨⟨caller, pc⟩, ht, item, rfl⟩ := hoff
    obtain ⟨before, after, hsplit, -⟩ := moveAt_split ht
    -- the record that is counted off is the only one out: the counter is one more than what the
    -- container holds beyond the uncounted record
    rw [h.took_inside hsplit rfl] at hcounted
    simp only [TakePc.took, Bool.toNat_true] at hcounted
    omega
  | _ => exact hoff.elim

/-- Every step that meets `Counted` keeps the invariant. -/
theorem step_inv {a : Act α} (h : Inv s) (ha : s.Counted a) (hs : step s a = some (s', es)) :
    Inv s' := by
  cases a with
  | push item =>
    cases hs
    refine ⟨?_, h.nonneg, ?_, ?_, h.consumer, h.ready⟩
    · simpa using h.counted
    · have hstarted := h.started
      simp only [List.countP_append, List.countP_singleton, PushPc.entering_eq, if_true]
      omega
    · simpa using h.producer
  | pushStep i =>
    obtain ⟨⟨pc, item⟩, hp, hmap⟩ := Option.bind_eq_some_iff.mp hs
    obtain ⟨⟨r, next⟩, hr, heq⟩ := Option.map_eq_some_iff.mp hmap
    obtain ⟨before, after, hsplit, hmove⟩ := moveAt_split hp
    obtain ⟨rfl, -⟩ := Prod.mk.inj heq
    simp only [hmove]
    exact h.push hsplit hr
  | take caller =>
    cases hs
    refine ⟨?_, h.nonneg, ?_, h.producer, ?_, ?_⟩
    · simpa [TakePc.took] using h.counted
    · simpa [TakePc.took] using h.started
    · simpa [TakePc.inside] using h.consumer
    · intro t ht
      rcases List.mem_append.mp ht with ht | ht
      · exact h.ready t ht
      · obtain rfl := List.mem_singleton.mp ht
        exact ready_of_outside rfl
  | takeStep i =>
    obtain ⟨⟨caller, pc⟩, ht, hmap⟩ := Option.bind_eq_some_iff.mp hs
    obtain ⟨⟨r, next, es'⟩, hr, heq⟩ := Option.map_eq_some_iff.mp hmap
    obtain ⟨before, after, hsplit, hmove⟩ := moveAt_split ht
    obtain ⟨rfl, -⟩ := Prod.mk.inj heq
    simp only [hmove]
    refine h.take hsplit ?_ hr
    intro htook
    cases pc with
    | fetchSub item =>
      have hoff : s.CountsOff (.takeStep i) := ⟨(caller, .fetchSub item), ht, item, rfl⟩
      exact (h.positive_iff hoff).mpr (ha hoff)
    | _ => exact absurd htook (by simp [TakePc.took])
  | notifyAll =>
    cases hs
    exact ⟨h.counted, h.nonneg, h.started, h.producer, h.consumer, h.ready⟩
  | notifyStep i =>
    obtain ⟨pc, -, heq⟩ := Option.map_eq_some_iff.mp hs
    obtain ⟨rfl, -⟩ := Prod.mk.inj heq
    exact h.notifyAll pc

/-- A step is sound exactly when it meets `Counted`. -/
theorem Inv.sound_iff {a : Act α} (h : Inv s) : s.Sound a ↔ s.Counted a := by
  constructor
  · intro hsound hoff
    exact (h.positive_iff hoff).mp (hsound.positive hoff)
  · intro hcounted
    refine ⟨fun hoff => (h.positive_iff hoff).mpr (hcounted hoff), ?_, ?_, ?_⟩
    · have hnonneg := h.nonneg
      have hsize := h.counted
      have hstarted := h.started
      show (s.mSize % 2 ^ 64).toNat ≤ s.pushCalls
      omega
    · rintro ⟨hpushes, htakers, -⟩
      rw [h.counted, hpushes, htakers]
      simp
    · intro s' es hs hmem
      cases a with
      | takeStep i =>
        obtain ⟨⟨caller, pc⟩, ht, hmap⟩ := Option.bind_eq_some_iff.mp hs
        obtain ⟨⟨r, next, es'⟩, hr, heq⟩ := Option.map_eq_some_iff.mp hmap
        obtain ⟨-, rfl⟩ := Prod.mk.inj heq
        obtain ⟨rfl, rfl⟩ := take_returned hr hmem
        exact h.ready _ (List.mem_of_getElem? ht)
      | pushStep i =>
        obtain ⟨p, -, hmap⟩ := Option.bind_eq_some_iff.mp hs
        obtain ⟨r, -, heq⟩ := Option.map_eq_some_iff.mp hmap
        obtain ⟨-, rfl⟩ := Prod.mk.inj heq
        exact absurd hmem List.not_mem_nil
      | notifyStep i =>
        obtain ⟨pc, -, heq⟩ := Option.map_eq_some_iff.mp hs
        obtain ⟨-, rfl⟩ := Prod.mk.inj heq
        exact absurd hmem List.not_mem_nil
      | push item =>
        cases hs
        exact absurd hmem List.not_mem_nil
      | take caller =>
        cases hs
        exact absurd hmem List.not_mem_nil
      | notifyAll =>
        cases hs
        exact absurd hmem List.not_mem_nil

end Steps

/-- **The counter** — at every step of every schedule the counter is positive when a record is counted off,
`size` is at most the number of pushes, an idle queue is counted exactly and `waitAndPop` gives up only
after a stop, if and only if no step of the schedule counts a record off while the container is empty and a
producer has its record still to count. -/
theorem run_counter_iff (as : List (Act α)) :
    (threads α).Along Sound empty as ↔ (threads α).Along Counted empty as := by
  refine (Machine.Along.iff_of_invariant (J := Inv) ?_ ?_ inv_empty as).symm
  · intro s a h
    exact h.sound_iff.symm
  · intro s a s' es h ha hs
    exact step_inv h ha hs

/-- `tryPop` takes and counts off a record between its insertion and its count: the counter wraps.  A
`waitAndPop` that comes now finds the counter above zero and the container empty, and gives up with nobody
having asked to stop. -/
theorem counted_off_early : ∃ s₁ s₂ s₃ s₄ es,
    (threads ℕ).run empty [.push 7, .pushStep 0, .pushStep 0, .take .tryPop, .takeStep 0, .takeStep 0,
      .takeStep 0, .takeStep 0] = some (s₁, []) ∧
    s₁.mSize = 0 ∧ step s₁ (.takeStep 0) = some (s₂, []) ∧ s₂.mSize = -1 ∧ s₂.size = 2 ^ 64 - 1 ∧
    s₂.pushCalls = 1 ∧
    (threads ℕ).run s₂ [.takeStep 0, .take .waitAndPop, .takeStep 0, .takeStep 0, .takeStep 0,
      .takeStep 0] = some (s₃, es) ∧
    step s₃ (.takeStep 0) = some (s₄, [.returned .waitAndPop none]) ∧ s₃.stopping = false ∧
    s₄.stopping = false :=
  ⟨_, _, _, _, _, rfl, rfl, rfl, rfl, by decide, rfl, rfl, rfl, rfl, rfl⟩

end RowLockQueue

end LuspUpload.Upload
