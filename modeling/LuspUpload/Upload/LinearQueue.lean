import LuspUpload.Lib.Atomic
import LuspUpload.Upload.QueueCounter

/-!
# Upload.LinearQueue — `ThreadSafeRowLockQueue` is a linearizable FIFO queue

Calls of `push`, `waitAndPop`, `tryPop` and `clear` by any number of threads, each with a number;
`notifyAll` and `reset` are stores at any time.  The steps are those of `Upload.QueueCounter`, and `clear`
holds both mutexes.

A record goes in at `mDataQueue.push`, comes out at `mDataQueue.pop`, and a consumer gives up at its test
of `empty`: done at these moments, the calls are those of a sequential queue (`run_linearizable`).  The
counter plays no part in this, so it holds although the counter may be off.  `some_call_moves` : the two
mutexes never block each other.
-/

namespace LuspUpload.Upload

open Lib Lib.Atomic

/-- The next step of a call of `clear`. -/
inductive ClearPc where
  | lockEnqueue
  | lockDequeue
  | swap
  | store
  | unlockDequeue
  | unlockEnqueue
  deriving DecidableEq, Repr

/-- What is called. -/
inductive QueueOp (α : Type*) where
  | push (item : α)
  | take (caller : Taker)
  | clear
  deriving DecidableEq, Repr

/-- A call in progress. -/
inductive CallPc (α : Type*) where
  | push (pc : PushPc) (item : α)
  | take (caller : Taker) (pc : TakePc α)
  | clear (pc : ClearPc)
  deriving DecidableEq, Repr

universe u

variable {α : Type u}

/-- The queue as one would have it without threads. -/
def fifo (α : Type u) : Object (List α) (QueueOp α) (Option α) where
  init := []
  apply queue
    | .push item => (queue ++ [item], none)
    | .take _ => (queue.tail, queue.head?)
    | .clear => ([], none)

/-- One step of `clear`. -/
def RowLockQueue.clear (s : RowLockQueue α) : ClearPc → Option (RowLockQueue α × Option ClearPc)
  | .lockEnqueue =>
    if s.enqueueLocked then none else some ({ s with enqueueLocked := true }, some .lockDequeue)
  | .lockDequeue =>
    if s.dequeueLocked then none else some ({ s with dequeueLocked := true }, some .swap)
  | .swap => some ({ s with dataQueue := [] }, some .store)
  | .store => some ({ s with mSize := 0 }, some .unlockDequeue)
  | .unlockDequeue => some ({ s with dequeueLocked := false }, some .unlockEnqueue)
  | .unlockEnqueue => some ({ s with enqueueLocked := false }, none)

namespace CallPc

/-- The first step. -/
def start : QueueOp α → CallPc α
  | .push item => .push .lock item
  | .take caller => .take caller .lock
  | .clear => .clear .lockEnqueue

/-- What was called. -/
def op : CallPc α → QueueOp α
  | .push _ item => .push item
  | .take caller _ => .take caller
  | .clear _ => .clear

/-- What the call returns; `push` and `clear` return nothing. -/
def result : CallPc α → Option α
  | .take _ (.unlock item) => item
  | _ => none

/-- One step of a call. -/
def advance (s : RowLockQueue α) : CallPc α → Option (RowLockQueue α × Option (CallPc α))
  | .push pc item => (s.push item pc).map fun r => (r.1, r.2.map (.push · item))
  | .take caller pc => (s.take caller pc).map fun r => (r.1, r.2.1.map (.take caller))
  | .clear pc => (s.clear pc).map fun r => (r.1, r.2.map .clear)

/-- The step at which the call takes effect, with its result. -/
def effect (s : RowLockQueue α) : CallPc α → Option (Option α)
  | .push .enqueue _ => some none
  | .take _ (.pop item) => some (some item)
  | .take _ .testDrained => if s.dataQueue = [] then some none else none
  | .take _ .testEmpty => if s.dataQueue = [] then some none else none
  | .clear .swap => some none
  | _ => none

/-- Whether the call has taken effect. -/
def phase : CallPc α → Phase (QueueOp α) (Option α)
  | .push .lock item => .called (.push item)
  | .push .enqueue item => .called (.push item)
  | .push _ item => .effected (.push item) none
  | .take caller (.fetchSub item) => .effected (.take caller) (some item)
  | .take caller (.unlock item) => .effected (.take caller) item
  | .take caller _ => .called (.take caller)
  | .clear .lockEnqueue => .called .clear
  | .clear .lockDequeue => .called .clear
  | .clear .swap => .called .clear
  | .clear _ => .effected .clear none

/-- The call holds `mEnqueueMutex`. -/
def holdsEnqueue : CallPc α → Bool
  | .push pc _ => pc.inside
  | .take _ _ => false
  | .clear .lockEnqueue => false
  | .clear _ => true

/-- The call holds `mDequeueMutex`. -/
def holdsDequeue : CallPc α → Bool
  | .push _ _ => false
  | .take _ pc => pc.inside
  | .clear .swap => true
  | .clear .store => true
  | .clear .unlockDequeue => true
  | .clear _ => false

/-- The call sleeps in the wait of `waitAndPop`. -/
def Sleeps : CallPc α → Prop
  | .take _ .asleep => True
  | _ => False

/-- What a consumer under the mutex has seen. -/
def Ready (queue : List α) : CallPc α → Prop
  | .take _ .front => queue ≠ []
  | .take _ (.pop item) => queue.head? = some item
  | _ => True

end CallPc

/-- The queue, the calls in progress with their numbers, and the number of the next call.  The lists of
calls in `shared` stay empty. -/
structure CalledQueue (α : Type u) where
  shared : RowLockQueue α
  calls : List (ℕ × CallPc α)
  nextCall : ℕ

namespace CalledQueue

/-- A new queue. -/
def empty : CalledQueue α := ⟨RowLockQueue.empty, [], 0⟩

/-- A call is made, or makes its next step; `notifyAll` or `reset` stores the flag. -/
inductive Act (α : Type u) where
  | call (op : QueueOp α)
  | move (i : ℕ)
  | stopping (value : Bool)
  deriving DecidableEq, Repr

/-- One step of a schedule. -/
def step (s : CalledQueue α) : Act α → Option (CalledQueue α × List (Moment (QueueOp α) (Option α)))
  | .call op => some ({ s with calls := s.calls ++ [(s.nextCall, .start op)], nextCall := s.nextCall + 1 },
      [.call s.nextCall op])
  | .move i => s.calls[i]?.bind fun c => (c.2.advance s.shared).map fun r =>
      ({ s with shared := r.1, calls := moveAt s.calls i (r.2.map (c.1, ·)) },
        ((c.2.effect s.shared).map (.effect c.1)).toList ++
          if r.2.isNone then [.ret c.1 c.2.result] else [])
  | .stopping value => some ({ s with shared := { s.shared with stopping := value } }, [])

/-- The threads under a schedule. -/
def threads (α : Type u) : Machine (CalledQueue α) (Act α) (Moment (QueueOp α) (Option α)) := ⟨step⟩

end CalledQueue

/-! ### One step of a call -/

/-- What a step of a call does. -/
structure Advances (s : RowLockQueue α) (pc : CallPc α) (r : RowLockQueue α) (next : Option (CallPc α)) :
    Prop where
  quiet : pc.effect s = none → r.dataQueue = s.dataQueue ∧ ∀ pc' ∈ next, pc'.phase = pc.phase
  effect : ∀ res, pc.effect s = some res → pc.phase = .called pc.op ∧
    (fifo α).apply s.dataQueue pc.op = (r.dataQueue, res) ∧
      ∃ pc', next = some pc' ∧ pc'.phase = .effected pc.op res
  done : next = none → pc.effect s = none ∧ pc.phase = .effected pc.op pc.result
  enqueue : (next.any CallPc.holdsEnqueue).toNat + s.enqueueLocked.toNat =
    pc.holdsEnqueue.toNat + r.enqueueLocked.toNat
  dequeue : (next.any CallPc.holdsDequeue).toNat + s.dequeueLocked.toNat =
    pc.holdsDequeue.toNat + r.dequeueLocked.toNat
  ready : ∀ pc' ∈ next, pc'.Ready r.dataQueue
  others : pc.holdsDequeue = true ∨ ∃ behind, r.dataQueue = s.dataQueue ++ behind

section Advance

variable {s r : RowLockQueue α} {item : α} {caller : Taker}

theorem advances_push {pc : PushPc} {next : Option PushPc}
    (hlock : pc.inside = true → s.enqueueLocked = true)
    (hr : s.push item pc = some (r, next)) :
    Advances s (.push pc item) r (next.map (CallPc.push · item)) := by
  cases pc with
  | lock =>
    simp only [RowLockQueue.push] at hr
    split_ifs at hr with hfree
    obtain ⟨rfl, rfl⟩ := hr
    constructor <;> simp_all [CallPc.effect, CallPc.phase, CallPc.holdsEnqueue, CallPc.holdsDequeue,
      CallPc.Ready]
  | _ =>
    obtain ⟨rfl, rfl⟩ := hr
    constructor <;>
      simp_all [CallPc.effect, CallPc.phase, CallPc.op, CallPc.result, CallPc.holdsEnqueue,
        CallPc.holdsDequeue,
        CallPc.Ready, fifo]

theorem advances_clear {pc : ClearPc} {next : Option ClearPc}
    (henqueue : (CallPc.clear pc : CallPc α).holdsEnqueue = true → s.enqueueLocked = true)
    (hdequeue : (CallPc.clear pc : CallPc α).holdsDequeue = true → s.dequeueLocked = true)
    (hr : s.clear pc = some (r, next)) : Advances s (.clear pc) r (next.map .clear) := by
  cases pc with
  | lockEnqueue =>
    simp only [RowLockQueue.clear] at hr
    split_ifs at hr with hfree
    obtain ⟨rfl, rfl⟩ := hr
    constructor <;> simp_all [CallPc.effect, CallPc.phase, CallPc.holdsEnqueue, CallPc.holdsDequeue,
      CallPc.Ready]
  | lockDequeue =>
    simp only [RowLockQueue.clear] at hr
    split_ifs at hr with hfree
    obtain ⟨rfl, rfl⟩ := hr
    constructor <;> simp_all [CallPc.effect, CallPc.phase, CallPc.holdsEnqueue, CallPc.holdsDequeue,
      CallPc.Ready]
  | _ =>
    obtain ⟨rfl, rfl⟩ := hr
    constructor <;>
      simp_all [CallPc.effect, CallPc.phase, CallPc.op, CallPc.result, CallPc.holdsEnqueue,
        CallPc.holdsDequeue,
        CallPc.Ready, fifo]

/-- A test under the mutex. -/
theorem advances_test {pc pc' : TakePc α} (hin : pc.inside = true) (hin' : pc'.inside = true)
    (heffect : (CallPc.take caller pc).effect s = none)
    (hphase : (CallPc.take caller pc').phase = (CallPc.take caller pc).phase)
    (hready : (CallPc.take caller pc').Ready s.dataQueue) :
    Advances s (.take caller pc) s (some (.take caller pc')) where
  quiet _ := ⟨rfl, by rintro _ ⟨⟩; exact hphase⟩
  effect res hres := absurd (heffect.symm.trans hres) (by simp)
  done h := absurd h (by simp)
  enqueue := rfl
  dequeue := by
    show (pc'.inside).toNat + _ = (pc.inside).toNat + _
    rw [hin, hin']
  ready := by
    rintro _ ⟨⟩
    exact hready
  others := Or.inl hin

/-- A test that finds the queue empty: the call has taken effect, with no record. -/
theorem advances_empty {pc : TakePc α} (hin : pc.inside = true) (hnil : s.dataQueue = [])
    (heffect : (CallPc.take caller pc).effect s = some none)
    (hphase : (CallPc.take caller pc).phase = .called (.take caller)) :
    Advances s (.take caller pc) s (some (.take caller (.unlock none))) where
  quiet h := absurd (heffect.symm.trans h) (by simp)
  effect res hres := by
    obtain rfl := Option.some.inj (heffect.symm.trans hres)
    refine ⟨hphase, ?_, _, rfl, rfl⟩
    show (s.dataQueue.tail, s.dataQueue.head?) = (s.dataQueue, none)
    rw [hnil]
    rfl
  done h := absurd h (by simp)
  enqueue := rfl
  dequeue := by
    show 1 + _ = (pc.inside).toNat + _
    rw [hin]
    rfl
  ready := by
    rintro _ ⟨⟩
    trivial
  others := Or.inl hin

theorem advances_take {pc : TakePc α} {next : Option (TakePc α)} {es : List (RowLockQueue.Event α)}
    (hlock : pc.inside = true → s.dequeueLocked = true) (hready : (CallPc.take caller pc).Ready s.dataQueue)
    (hr : s.take caller pc = some (r, next, es)) :
    Advances s (.take caller pc) r (next.map (.take caller)) := by
  cases pc with
  | lock =>
    simp only [RowLockQueue.take] at hr
    split_ifs at hr with hfree
    obtain ⟨rfl, rfl, -⟩ := hr
    cases caller <;> constructor <;>
      simp_all [CallPc.effect, CallPc.phase, CallPc.holdsEnqueue, CallPc.holdsDequeue, CallPc.Ready,
        TakePc.inside]
  | asleep =>
    simp only [RowLockQueue.take] at hr
    split_ifs at hr with hfree
    obtain ⟨rfl, rfl, -⟩ := hr
    constructor <;>
      simp_all [CallPc.effect, CallPc.phase, CallPc.holdsEnqueue, CallPc.holdsDequeue, CallPc.Ready,
        TakePc.inside]
  | loadSize =>
    simp only [RowLockQueue.take] at hr
    obtain ⟨rfl, rfl, -⟩ := hr
    split_ifs
    · exact advances_test rfl rfl rfl rfl trivial
    · exact advances_test rfl rfl rfl rfl trivial
  | loadStopping =>
    simp only [RowLockQueue.take] at hr
    obtain ⟨rfl, rfl, -⟩ := hr
    split_ifs
    · exact advances_test rfl rfl rfl rfl trivial
    · exact advances_test rfl rfl rfl rfl trivial
  | testStopping =>
    simp only [RowLockQueue.take] at hr
    obtain ⟨rfl, rfl, -⟩ := hr
    split_ifs
    · exact advances_test rfl rfl rfl rfl trivial
    · exact advances_test rfl rfl rfl rfl trivial
  | testDrained =>
    simp only [RowLockQueue.take] at hr
    obtain ⟨rfl, rfl, -⟩ := hr
    split_ifs with hnil
    · exact advances_empty rfl hnil (if_pos hnil) rfl
    · exact advances_test rfl rfl (if_neg hnil) rfl trivial
  | testEmpty =>
    simp only [RowLockQueue.take] at hr
    obtain ⟨rfl, rfl, -⟩ := hr
    split_ifs with hnil
    · exact advances_empty rfl hnil (if_pos hnil) rfl
    · exact advances_test rfl rfl (if_neg hnil) rfl hnil
  | front =>
    simp only [RowLockQueue.take] at hr
    obtain ⟨item, hitem, heq⟩ := Option.map_eq_some_iff.mp hr
    obtain ⟨rfl, rfl, -⟩ := heq
    exact advances_test rfl rfl rfl rfl hitem
  | _ =>
    simp only [RowLockQueue.take] at hr
    obtain ⟨rfl, rfl, -⟩ := hr
    constructor <;>
      simp_all [CallPc.effect, CallPc.phase, CallPc.op, CallPc.result, CallPc.holdsEnqueue,
        CallPc.holdsDequeue,
        CallPc.Ready, TakePc.inside, fifo]

/-- Every step of a call. -/
theorem advances {pc : CallPc α} {next : Option (CallPc α)}
    (henqueue : pc.holdsEnqueue = true → s.enqueueLocked = true)
    (hdequeue : pc.holdsDequeue = true → s.dequeueLocked = true) (hready : pc.Ready s.dataQueue)
    (hr : pc.advance s = some (r, next)) : Advances s pc r next := by
  cases pc with
  | push pc item =>
    obtain ⟨⟨r, next⟩, hstep, heq⟩ := Option.map_eq_some_iff.mp hr
    obtain ⟨rfl, rfl⟩ := heq
    exact advances_push henqueue hstep
  | take caller pc =>
    obtain ⟨⟨r, next, es⟩, hstep, heq⟩ := Option.map_eq_some_iff.mp hr
    obtain ⟨rfl, rfl⟩ := heq
    exact advances_take hdequeue hready hstep
  | clear pc =>
    obtain ⟨⟨r, next⟩, hstep, heq⟩ := Option.map_eq_some_iff.mp hr
    obtain ⟨rfl, rfl⟩ := heq
    exact advances_clear henqueue hdequeue hstep

/-- Records behind the others change nothing for a consumer. -/
theorem CallPc.Ready.append {queue : List α} {pc : CallPc α} (h : pc.Ready queue) (behind : List α) :
    pc.Ready (queue ++ behind) := by
  cases pc with
  | take caller pc =>
    cases pc with
    | front => exact List.append_ne_nil_of_left_ne_nil h behind
    | pop item =>
      show (queue ++ behind).head? = some item
      rw [List.head?_append, show queue.head? = some item from h]
      rfl
    | _ => trivial
  | _ => trivial

/-- A call outside `mDequeueMutex` has seen nothing. -/
theorem CallPc.ready_of_outside {queue : List α} {pc : CallPc α} (h : pc.holdsDequeue = false) :
    pc.Ready queue := by
  cases pc with
  | take caller pc =>
    cases pc with
    | front => exact absurd h (by simp [holdsDequeue, TakePc.inside])
    | pop item => exact absurd h (by simp [holdsDequeue, TakePc.inside])
    | _ => trivial
  | _ => trivial

end Advance

/-! ### Runs -/

namespace CalledQueue

/-- The mutexes have at most one holder each, a consumer takes the head that it has seen, and the
automaton is where the calls are. -/
structure Follows (s : CalledQueue α) (A : State (List α) (QueueOp α) (Option α)) : Prop where
  enqueue : s.calls.countP (·.2.holdsEnqueue) = s.shared.enqueueLocked.toNat
  dequeue : s.calls.countP (·.2.holdsDequeue) = s.shared.dequeueLocked.toNat
  ready : ∀ c ∈ s.calls, c.2.Ready s.shared.dataQueue
  numbers : (s.calls.map Prod.fst).Nodup
  below : ∀ c ∈ s.calls, c.1 < s.nextCall
  object : A.object = s.shared.dataQueue
  phase : ∀ c ∈ s.calls, A.phase c.1 = c.2.phase
  fresh : ∀ id, s.nextCall ≤ id → A.phase id = .fresh

theorem follows_empty : Follows (empty : CalledQueue α) (fifo α).start where
  enqueue := rfl
  dequeue := rfl
  ready := List.forall_mem_nil _
  numbers := List.nodup_nil
  below := List.forall_mem_nil _
  object := rfl
  phase := List.forall_mem_nil _
  fresh _ _ := rfl

section Steps

variable {s : CalledQueue α} {A B : State (List α) (QueueOp α) (Option α)}
  {before after : List (ℕ × CallPc α)}
  {id : ℕ} {pc : CallPc α} {next : Option (CallPc α)} {r : RowLockQueue α}

/-- One of the calls has the property that a lock counts. -/
theorem locked_of_holds {p : CallPc α → Bool} {locked : Bool}
    (hsplit : s.calls = before ++ (id, pc) :: after)
    (hcount : s.calls.countP (p ·.2) = locked.toNat) (hholds : p pc = true) :
    locked = true ∧ ∀ c, c ∈ before ∨ c ∈ after → p c.2 = false := by
  rw [hsplit, List.countP_append, List.countP_cons, if_pos hholds] at hcount
  have hle := locked.toNat_le
  refine ⟨?_, ?_⟩
  · rw [← Bool.toNat_eq_one]
    omega
  · rintro c (hc | hc)
    · have hzero : before.countP (p ·.2) = 0 := by omega
      simpa using List.countP_eq_zero.mp hzero c hc
    · have hzero : after.countP (p ·.2) = 0 := by omega
      simpa using List.countP_eq_zero.mp hzero c hc

theorem Follows.advances (h : Follows s A) (hsplit : s.calls = before ++ (id, pc) :: after)
    (hr : pc.advance s.shared = some (r, next)) : Advances s.shared pc r next :=
  Upload.advances (fun hin => (locked_of_holds hsplit h.enqueue hin).1)
    (fun hin => (locked_of_holds hsplit h.dequeue hin).1) (h.ready (id, pc) (by simp [hsplit])) hr

/-- A call moves on, and the automaton with it. -/
theorem Follows.moves (h : Follows s A) (hsplit : s.calls = before ++ (id, pc) :: after)
    (hadv : Advances s.shared pc r next) (hobject : B.object = r.dataQueue)
    (hothers : ∀ x, x ≠ id → B.phase x = A.phase x) (hself : ∀ pc' ∈ next, B.phase id = pc'.phase) :
    Follows { s with shared := r, calls := before ++ (next.map (id, ·)).toList ++ after } B := by
  have hmem : (id, pc) ∈ s.calls := by simp [hsplit]
  have hnodup := h.numbers
  rw [hsplit, List.map_append, List.map_cons, List.nodup_middle, List.nodup_cons] at hnodup
  obtain ⟨hnew, hnodup⟩ := hnodup
  -- the other calls have other numbers
  have hne : ∀ c, c ∈ before ∨ c ∈ after → c ∈ s.calls ∧ c.1 ≠ id := by
    intro c hc
    refine ⟨?_, ?_⟩
    · rw [hsplit]
      rcases hc with hc | hc <;> simp [hc]
    · rintro rfl
      apply hnew
      rw [← List.map_append]
      exact List.mem_map.mpr ⟨c, List.mem_append.mpr hc, rfl⟩
  have hcalls : ∀ c, c ∈ before ++ (next.map (id, ·)).toList ++ after →
      (c ∈ before ∨ c ∈ after) ∨ ∃ pc' ∈ next, c = (id, pc') := by
    intro c hc
    simp only [List.mem_append, Option.mem_toList, Option.map_eq_some_iff] at hc
    rcases hc with (hc | ⟨pc', hpc', rfl⟩) | hc
    · exact Or.inl (Or.inl hc)
    · exact Or.inr ⟨pc', hpc', rfl⟩
    · exact Or.inl (Or.inr hc)
  have hcount : ∀ p : CallPc α → Bool,
      (before ++ (next.map (id, ·)).toList ++ after).countP (p ·.2) + (p pc).toNat =
        (before ++ (id, pc) :: after).countP (p ·.2) + (next.any p).toNat := by
    intro p
    have hone := countP_move (p ·.2) before after (id, pc) (next.map (id, ·))
    rwa [Option.any_map] at hone
  refine ⟨?_, ?_, ?_, ?_, ?_, hobject, ?_, ?_⟩
  · have hlock := hcount CallPc.holdsEnqueue
    rw [← hsplit, h.enqueue] at hlock
    have hgive := hadv.enqueue
    show (before ++ (next.map (id, ·)).toList ++ after).countP _ = r.enqueueLocked.toNat
    omega
  · have hlock := hcount CallPc.holdsDequeue
    rw [← hsplit, h.dequeue] at hlock
    have hgive := hadv.dequeue
    show (before ++ (next.map (id, ·)).toList ++ after).countP _ = r.dequeueLocked.toNat
    omega
  · intro c hc
    rcases hcalls c hc with hc | ⟨pc', hpc', rfl⟩
    · rcases hadv.others with hin | ⟨behind, heq⟩
      · exact CallPc.ready_of_outside ((locked_of_holds hsplit h.dequeue hin).2 c hc)
      · show c.2.Ready r.dataQueue
        rw [heq]
        exact (h.ready c (hne c hc).1).append behind
    · exact hadv.ready pc' hpc'
  · show ((before ++ (next.map (id, ·)).toList ++ after).map Prod.fst).Nodup
    cases next with
    | none => simpa using hnodup
    | some pc' =>
      simp only [Option.map_some, Option.toList_some, List.append_assoc, List.singleton_append,
        List.map_append,
        List.map_cons, List.nodup_middle, List.nodup_cons]
      exact ⟨hnew, hnodup⟩
  · intro c hc
    rcases hcalls c hc with hc | ⟨pc', -, rfl⟩
    · exact h.below c (hne c hc).1
    · exact h.below (id, pc) hmem
  · intro c hc
    rcases hcalls c hc with hc | ⟨pc', hpc', rfl⟩
    · rw [hothers c.1 (hne c hc).2]
      exact h.phase c (hne c hc).1
    · exact hself pc' hpc'
  · intro x hx
    have hlt := h.below (id, pc) hmem
    rw [hothers x (by rintro rfl; exact absurd hx (Nat.not_le.mpr hlt))]
    exact h.fresh x hx

/-- Every step is one of the automaton, or none. -/
theorem Follows.step {a : Act α} {s' : CalledQueue α} {ms : List (Moment (QueueOp α) (Option α))}
    (h : Follows s A) (hs : step s a = some (s', ms)) : ∃ B, (fifo α).Accepts A ms B ∧ Follows s' B := by
  cases a with
  | call op =>
    cases hs
    refine ⟨A.set A.object s.nextCall (.called op), ⟨_, .call op (h.fresh _ le_rfl), rfl⟩, ?_⟩
    have hstart : (CallPc.start op).holdsEnqueue = false ∧ (CallPc.start op).holdsDequeue = false ∧
        (CallPc.start op).phase = .called op := by cases op <;> exact ⟨rfl, rfl, rfl⟩
    obtain ⟨henqueue, hdequeue, hphase⟩ := hstart
    have hold : ∀ c ∈ s.calls, c.1 ≠ s.nextCall := fun c hc => (h.below c hc).ne
    refine ⟨?_, ?_, ?_, ?_, ?_, h.object, ?_, ?_⟩
    · simpa [henqueue] using h.enqueue
    · simpa [hdequeue] using h.dequeue
    · intro c hc
      rcases List.mem_append.mp hc with hc | hc
      · exact h.ready c hc
      · rw [List.mem_singleton.mp hc]
        exact CallPc.ready_of_outside hdequeue
    · rw [List.map_append, List.nodup_append]
      refine ⟨h.numbers, List.nodup_singleton _, ?_⟩
      intro x hx y hy
      obtain ⟨c, hc, rfl⟩ := List.mem_map.mp hx
      rw [List.mem_singleton.mp hy]
      exact hold c hc
    · intro c hc
      rcases List.mem_append.mp hc with hc | hc
      · exact (h.below c hc).trans (Nat.lt_succ_self _)
      · rw [List.mem_singleton.mp hc]
        exact Nat.lt_succ_self _
    · intro c hc
      rcases List.mem_append.mp hc with hc | hc
      · rw [State.set_phase_of_ne A _ _ (hold c hc)]
        exact h.phase c hc
      · rw [List.mem_singleton.mp hc, State.set_phase]
        exact hphase.symm
    · intro x hx
      rw [State.set_phase_of_ne A _ _ (Nat.lt_of_succ_le hx).ne']
      exact h.fresh x (Nat.le_of_succ_le hx)
  | move i =>
    obtain ⟨⟨id, pc⟩, hc, hmap⟩ := Option.bind_eq_some_iff.mp hs
    obtain ⟨⟨r, next⟩, hr, heq⟩ := Option.map_eq_some_iff.mp hmap
    obtain ⟨before, after, hsplit, hmove⟩ := moveAt_split hc
    obtain ⟨rfl, rfl⟩ := Prod.mk.inj heq
    simp only [hmove]
    have hadv := h.advances hsplit hr
    have hphase : A.phase id = pc.phase := h.phase (id, pc) (by simp [hsplit])
    have hfrom := h.object
    cases heffect : pc.effect s.shared with
    | some res =>
      -- the moment at which the operation is done
      obtain ⟨hcalled, hdo, pc', rfl, hnext⟩ := hadv.effect res heffect
      refine ⟨A.set r.dataQueue id (.effected pc.op res), ⟨_, .effect (hphase.trans hcalled) ?_, rfl⟩, ?_⟩
      · rw [hfrom]
        exact hdo
      · refine h.moves hsplit hadv rfl (fun x hx => State.set_phase_of_ne A _ _ hx) ?_
        rintro _ ⟨⟩
        rw [State.set_phase, hnext]
    | none =>
      obtain ⟨hqueue, hsame⟩ := hadv.quiet heffect
      cases hnext : next with
      | some pc' =>
        subst hnext
        refine ⟨A, rfl, h.moves hsplit hadv (hfrom.trans hqueue.symm) (fun _ _ => rfl) ?_⟩
        rintro _ ⟨⟩
        rw [hphase, hsame pc' rfl]
      | none =>
        subst hnext
        have hdone := (hadv.done rfl).2
        refine ⟨A.set A.object id .returned, ⟨_, .ret (hphase.trans hdone), rfl⟩, ?_⟩
        refine h.moves hsplit hadv (hfrom.trans hqueue.symm) (fun x hx => State.set_phase_of_ne A _ _ hx) ?_
        simp
  | stopping value =>
    cases hs
    exact ⟨A, rfl, ⟨h.enqueue, h.dequeue, h.ready, h.numbers, h.below, h.object, h.phase, h.fresh⟩⟩

end Steps

/-- The records that an order puts in. -/
def pushed (order : List (Entry (QueueOp α) (Option α))) : List α :=
  order.filterMap fun e =>
    match e.op with
    | .push item => some item
    | _ => none

/-- The records that it takes out. -/
def taken (order : List (Entry (QueueOp α) (Option α))) : List α :=
  order.filterMap fun e =>
    match e.op with
    | .take _ => e.res
    | _ => none

/-- As long as nobody clears the queue, what comes out and what is left is what went in, in this order. -/
theorem gives_conserves {queue queue' : List α} {order : List (Entry (QueueOp α) (Option α))}
    (hgives : (fifo α).Gives queue order queue') (hclear : ∀ e ∈ order, e.op ≠ .clear) :
    taken order ++ queue' = queue ++ pushed order := by
  induction order generalizing queue with
  | nil =>
    obtain rfl : queue = queue' := hgives
    exact (List.append_nil queue).symm
  | cons e order ih =>
    obtain ⟨id, op, res⟩ := e
    obtain ⟨hres, hrest⟩ := hgives
    have hnext := ih hrest fun e he => hclear e (List.mem_cons_of_mem _ he)
    cases op with
    | push item =>
      have hstep : taken order ++ queue' = queue ++ [item] ++ pushed order := hnext
      rw [List.append_assoc] at hstep
      exact hstep
    | take caller =>
      have hhead : queue.head? = res := hres
      have hstep : taken order ++ queue' = queue.tail ++ pushed order := hnext
      cases queue with
      | nil =>
        subst hhead
        exact hstep
      | cons item queue =>
        subst hhead
        exact congrArg (item :: ·) hstep
    | clear => exact absurd rfl (hclear _ List.mem_cons_self)

/-- **Linearizable** — every history of calls of `push`, `waitAndPop`, `tryPop` and `clear` by any number
of threads, whatever the counter says, is one of a sequential FIFO queue: there is an order of the calls,
which agrees with real time, in which they give the results that were returned and leave what the
container holds. Without `clear`, the records that came out and those that are left are the records that
went in, each once and in the same order. -/
theorem run_linearizable {as : List (Act α)} {s : CalledQueue α} {ms : List (Moment (QueueOp α) (Option α))}
    (hrun : (threads α).run empty as = some (s, ms)) :
    ∃ order, (fifo α).Linearizes (ms.filter Moment.visible) order s.shared.dataQueue ∧
      ((∀ id, .call id .clear ∉ ms) → taken order ++ s.shared.dataQueue = pushed order) := by
  obtain ⟨A, order, hfollows, hlinear⟩ :=
    linearizes_of_simulation (fun s A a s' ms h hs => h.step hs) follows_empty hrun
  rw [hfollows.object] at hlinear
  refine ⟨order, hlinear, ?_⟩
  intro hnever
  refine gives_conserves hlinear.legal ?_
  intro e he hclear
  refine hnever e.id ?_
  rw [← hclear]
  exact List.mem_of_mem_filter (hlinear.called e he)

/-- A `tryPop` takes the record of a `push` that is still on its way out, before it is counted. -/
theorem run_linearizable_overlap :
    ∃ order, (fifo ℕ).Linearizes
        [.call 0 (.push 7), .call 1 (.take .tryPop), .ret 1 (some 7), .ret 0 none] order [] ∧
      ((∀ id, .call id .clear ∉ ([.call 0 (.push 7), .call 1 (.take .tryPop), .effect 0 none,
          .effect 1 (some 7), .ret 1 (some 7), .ret 0 none] : List (Moment (QueueOp ℕ) (Option ℕ)))) →
        taken order ++ [] = pushed order) :=
  @run_linearizable ℕ [.call (.push 7), .call (.take .tryPop), .move 0, .move 1, .move 0, .move 1, .move 1,
    .move 1, .move 1, .move 1, .move 0, .move 0, .move 0] _ _ rfl

/-! ### No deadlock -/

section Progress

variable {s : RowLockQueue α} {pc : CallPc α}

/-- Who holds `mDequeueMutex` waits for nothing. -/
theorem advance_of_holdsDequeue (hready : pc.Ready s.dataQueue) (hholds : pc.holdsDequeue = true) :
    (pc.advance s).isSome := by
  cases pc with
  | push pc item => exact absurd hholds (by simp [CallPc.holdsDequeue])
  | take caller pc =>
    cases pc with
    | lock => exact absurd hholds (by simp [CallPc.holdsDequeue, TakePc.inside])
    | asleep => exact absurd hholds (by simp [CallPc.holdsDequeue, TakePc.inside])
    | front =>
      obtain ⟨item, queue, hqueue⟩ := List.exists_cons_of_ne_nil hready
      simp [CallPc.advance, RowLockQueue.take, hqueue]
    | _ => rfl
  | clear pc =>
    cases pc with
    | swap => rfl
    | store => rfl
    | unlockDequeue => rfl
    | _ => exact absurd hholds (by simp [CallPc.holdsDequeue])

/-- Who holds `mEnqueueMutex` waits at most for the other one. -/
theorem advance_of_holdsEnqueue (hfree : s.dequeueLocked = false) (hholds : pc.holdsEnqueue = true) :
    (pc.advance s).isSome := by
  cases pc with
  | push pc item =>
    cases pc with
    | lock => exact absurd hholds (by simp [CallPc.holdsEnqueue])
    | _ => rfl
  | take caller pc => exact absurd hholds (by simp [CallPc.holdsEnqueue])
  | clear pc =>
    cases pc with
    | lockEnqueue => exact absurd hholds (by simp [CallPc.holdsEnqueue])
    | lockDequeue => simp [CallPc.advance, RowLockQueue.clear, hfree]
    | _ => rfl

/-- Without locked mutexes nobody waits. -/
theorem advance_of_free (hready : pc.Ready s.dataQueue) (henqueue : s.enqueueLocked = false)
    (hdequeue : s.dequeueLocked = false) : (pc.advance s).isSome := by
  by_cases hholds : pc.holdsDequeue = true
  · exact advance_of_holdsDequeue hready hholds
  · cases pc with
    | push pc item =>
      cases pc with
      | lock => simp [CallPc.advance, RowLockQueue.push, henqueue]
      | _ => rfl
    | take caller pc =>
      cases pc with
      | lock => simp [CallPc.advance, RowLockQueue.take, hdequeue]
      | asleep => simp [CallPc.advance, RowLockQueue.take, hdequeue]
      | _ => exact absurd rfl hholds
    | clear pc =>
      cases pc with
      | lockEnqueue => simp [CallPc.advance, RowLockQueue.clear, henqueue]
      | lockDequeue => simp [CallPc.advance, RowLockQueue.clear, hdequeue]
      | _ => rfl

theorem not_sleeps_of_holds (h : pc.holdsEnqueue = true ∨ pc.holdsDequeue = true) : ¬ pc.Sleeps := by
  cases pc with
  | take caller pc =>
    cases pc with
    | asleep => simp [CallPc.holdsEnqueue, CallPc.holdsDequeue, TakePc.inside] at h
    | _ => exact id
  | _ => exact id

end Progress

/-- A locked mutex has a holder. -/
theorem exists_holder {s : CalledQueue α} {p : CallPc α → Bool} {locked : Bool}
    (hcount : s.calls.countP (p ·.2) = locked.toNat) (hlocked : locked = true) :
    ∃ c ∈ s.calls, p c.2 = true := by
  rw [hlocked, Bool.toNat_true] at hcount
  exact List.countP_pos_iff.mp (by omega)

theorem step_move {s : CalledQueue α} {c : ℕ × CallPc α} (hc : c ∈ s.calls)
    (hmoves : (c.2.advance s.shared).isSome) : ∃ i, s.calls[i]? = some c ∧ (step s (.move i)).isSome := by
  obtain ⟨i, hi⟩ := List.mem_iff_getElem?.mp hc
  refine ⟨i, hi, ?_⟩
  obtain ⟨r, hr⟩ := Option.isSome_iff_exists.mp hmoves
  simp [step, hi, hr]

/-- **No deadlock** — whatever the threads call, `clear` included, as long as a call is in progress that
does not sleep in the wait of `waitAndPop`, one that does not sleep there can make its next step. -/
theorem some_call_moves {as : List (Act α)} {s : CalledQueue α} {ms : List (Moment (QueueOp α) (Option α))}
    (hrun : (threads α).run empty as = some (s, ms)) (hawake : ∃ c ∈ s.calls, ¬ c.2.Sleeps) :
    ∃ i c, s.calls[i]? = some c ∧ ¬ c.2.Sleeps ∧ (step s (.move i)).isSome := by
  obtain ⟨A, -, h, -⟩ :=
    linearizes_of_simulation (fun s A a s' ms h hs => h.step hs) follows_empty hrun
  by_cases hdequeue : s.shared.dequeueLocked = true
  · obtain ⟨c, hc, hholds⟩ := exists_holder h.dequeue hdequeue
    obtain ⟨i, hi, hstep⟩ := step_move hc (advance_of_holdsDequeue (h.ready c hc) hholds)
    exact ⟨i, c, hi, not_sleeps_of_holds (Or.inr hholds), hstep⟩
  · rw [Bool.not_eq_true] at hdequeue
    by_cases henqueue : s.shared.enqueueLocked = true
    · obtain ⟨c, hc, hholds⟩ := exists_holder h.enqueue henqueue
      obtain ⟨i, hi, hstep⟩ := step_move hc (advance_of_holdsEnqueue hdequeue hholds)
      exact ⟨i, c, hi, not_sleeps_of_holds (Or.inl hholds), hstep⟩
    · rw [Bool.not_eq_true] at henqueue
      obtain ⟨c, hc, hnot⟩ := hawake
      obtain ⟨i, hi, hstep⟩ := step_move hc (advance_of_free (h.ready c hc) henqueue hdequeue)
      exact ⟨i, c, hi, hnot, hstep⟩

/-- `clear` waits for a `tryPop` that is inside. -/
theorem some_call_moves_clear : ∃ s ms, (threads ℕ).run empty [.call (.take .tryPop), .call .clear, .move 0,
    .move 1] = some (s, ms) ∧ step s (.move 1) = none ∧
      ∃ i c, s.calls[i]? = some c ∧ ¬ c.2.Sleeps ∧ (step s (.move i)).isSome :=
  ⟨_, _, rfl, rfl, @some_call_moves ℕ [.call (.take .tryPop), .call .clear, .move 0, .move 1] _ _ rfl
    ⟨(1, .clear .lockDequeue), by decide, id⟩⟩

end CalledQueue

end LuspUpload.Upload
