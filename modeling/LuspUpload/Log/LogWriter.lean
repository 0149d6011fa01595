import LuspUpload.Lib.Calls
import LuspUpload.Lib.CodePage
import LuspUpload.Lib.Runs

/-!
# Log.LogWriter — the log of the server, under any number of threads

`WriteLogContent` puts a log into a bounded queue and `RunWriteThread`, one thread, takes it out and
writes it. One mutex guards the queue and one condition variable serves both sides: with `Block` the
callers wait on it for room, the writer waits on it for a log or for the end.  A critical section is one
step here, for it touches only what the mutex guards; the writer's test of the wait is a step of its own,
because `bIsStopLogging` is stored without the mutex.

`run_accounts` : what was accepted is what came out and what is in the queue, in order; with `Block`
nothing is dropped, with `DropOldest` what is dropped is counted.  A log is written only into an open file,
and no file is open after the construction.
-/

namespace LuspUpload.Log

open Lib

/-- A text as a `std::wstring`: its code units. -/
def wide (text : String) : List UInt16 := utf16Units text.toList

structure LightLogWriteInfo where
  sLogTagNameVal : List UInt16
  sLogContentVal : List UInt16
  deriving DecidableEq, Repr

inductive LogQueueOverflowStrategy where
  | block
  | dropOldest
  deriving DecidableEq, Repr

/-- What the threads share; `isOpen` is that of `pLogFileStream`. -/
structure LightLogWrite where
  kMaxQueueSize : UInt64
  queueFullStrategy : LogQueueOverflowStrategy
  reportInterval : UInt64
  pLogWriteQueue : List LightLogWriteInfo := []
  bIsStopLogging : Bool := false
  discardCount : UInt64 := 0
  lastReportedDiscardCount : UInt64 := 0
  isOpen : Bool := false
  deriving DecidableEq, Repr

/-- Whose call of `WriteLogContent` it is: that of a caller, or the report of an overflow in it; and whether
`CloseLogStream` is the caller. -/
structure Caller where
  inErrorReport : Bool
  closing : Bool
  deriving DecidableEq, Repr

/-- The next step of a call of `WriteLogContent`, and of `CloseLogStream` after it. -/
inductive CallPc where
  | enter (caller : Caller) (info : LightLogWriteInfo)
  | asleep (caller : Caller) (info : LightLogWriteInfo)
  | notifyOne (caller : Caller) (report : Option UInt64)
  | stop
  | notifyAll
  | join
  deriving DecidableEq, Repr

/-- The next step of `RunWriteThread`.  At `release` the test of the wait has failed and the mutex is
held. -/
inductive WriterPc where
  | lock
  | release
  | asleep
  | output (info : LightLogWriteInfo)
  | close
  | exited
  deriving DecidableEq, Repr

/-- What happens to a log; the flag of `output` says whether it went into the file. -/
inductive Event where
  | pushed (caller : Caller) (info : LightLogWriteInfo)
  | discarded (info : LightLogWriteInfo)
  | taken (info : LightLogWriteInfo)
  | output (info : LightLogWriteInfo) (written : Bool)
  | reset
  deriving DecidableEq, Repr

/-- A thread that may be blocked in `pWrittenCondVar.wait`. -/
inductive Waiter where
  | writer
  | call (i : ℕ)
  deriving DecidableEq, Repr

/-- The report of an overflow. -/
def overflowReport (currentDiscard : UInt64) : LightLogWriteInfo :=
  ⟨wide "LOG_OVERFLOW",
    wide ("The log queue overflows and has been discarded " ++ toString currentDiscard.toNat ++ " logs")⟩

/-- The last log. -/
def stopMessage : LightLogWriteInfo :=
  ⟨wide "<================================              Stop log write thread    ",
    wide "================================>"⟩

namespace LightLogWrite

def Full (s : LightLogWrite) : Prop := s.kMaxQueueSize.toNat ≤ s.pLogWriteQueue.length

instance (s : LightLogWrite) : Decidable s.Full := inferInstanceAs (Decidable (_ ≤ _))

def push (s : LightLogWrite) (info : LightLogWriteInfo) : LightLogWrite :=
  { s with pLogWriteQueue := s.pLogWriteQueue ++ [info] }

/-- A log is dropped: the counters, and the number to report when it is time for it. -/
def countDiscard (s : LightLogWrite) : LightLogWrite × Option UInt64 :=
  let count := s.discardCount + 1
  if s.reportInterval ≤ count - s.lastReportedDiscardCount then
    ({ s with discardCount := count, lastReportedDiscardCount := count }, some count)
  else ({ s with discardCount := count }, none)

/-- The critical section of `WriteLogContent`.  `none` is the `pop()` of an empty queue, for a queue without
room for one log. -/
def enter (s : LightLogWrite) (caller : Caller) (info : LightLogWriteInfo) :
    Option (LightLogWrite × CallPc × List Event) :=
  if s.Full then
    match s.queueFullStrategy with
    | .block => some (s, .asleep caller info, [])
    | .dropOldest =>
      match s.pLogWriteQueue with
      | [] => none
      | oldest :: rest =>
        let (counted, report) := countDiscard { s with pLogWriteQueue := rest }
        some (counted.push info, .notifyOne caller report, [.discarded oldest, .pushed caller info])
  else some (s.push info, .notifyOne caller none, [.pushed caller info])

end LightLogWrite

/-- What a call does after `notify_one`: the report, once, then the end of the call. -/
def Caller.next (caller : Caller) : Option UInt64 → Option CallPc
  | some currentDiscard =>
    if caller.inErrorReport then if caller.closing then some .stop else none
    else some (.enter { caller with inErrorReport := true } (overflowReport currentDiscard))
  | none => if caller.closing then some .stop else none

/-- The call when it is woken: the wait takes the mutex and tests again. -/
def CallPc.wake : CallPc → CallPc
  | .asleep caller info => .enter caller info
  | pc => pc

def CallPc.isAsleep : CallPc → Bool
  | .asleep _ _ => true
  | _ => false

def WriterPc.wake : WriterPc → WriterPc
  | .asleep => .lock
  | pc => pc

/-- The object and its threads: the writer, the calls in progress, and whether the destructor was called. -/
structure LogSystem where
  shared : LightLogWrite
  writer : WriterPc := .lock
  calls : List CallPc := []
  destroyed : Bool := false
  deriving DecidableEq, Repr

/-- The constructor. -/
def LogSystem.create (maxQueueSize : UInt64) (strategy : LogQueueOverflowStrategy)
    (reportInterval : UInt64) :
    LogSystem :=
  { shared := ⟨maxQueueSize, strategy, reportInterval, [], false, 0, 0, false⟩ }

/-- What can happen: a call, the destructor, the next step of a call or of the writer with the thread that
its `notify_one` wakes, a wake-up without a notification, another log file, a reset of the counter. -/
inductive Act where
  | write (info : LightLogWriteInfo)
  | destroy
  | call (i : ℕ) (woken : Option Waiter)
  | writer (woken : Option Waiter)
  | wakeUp (waiter : Waiter)
  | openFile (ok : Bool)
  | resetDiscardCount
  deriving DecidableEq, Repr

namespace LogSystem

def sleeps (s : LogSystem) : Waiter → Bool
  | .writer => s.writer = .asleep
  | .call i => s.calls[i]?.any CallPc.isAsleep

def wake (s : LogSystem) : Waiter → LogSystem
  | .writer => { s with writer := s.writer.wake }
  | .call i => { s with calls := s.calls.modify i CallPc.wake }

/-- `notify_one` : one of the threads that are blocked, any of them; none only if there is none. -/
def notifyOne (s : LogSystem) : Option Waiter → Option LogSystem
  | some waiter => if s.sleeps waiter then some (s.wake waiter) else none
  | none => if s.writer = .asleep ∨ s.calls.any CallPc.isAsleep then none else some s

def notifyAll (s : LogSystem) : LogSystem :=
  { s with writer := s.writer.wake, calls := s.calls.map CallPc.wake }

/-- One step of a call. -/
def callStep (s : LogSystem) (i : ℕ) (woken : Option Waiter) : CallPc → Option (LogSystem × List Event)
  | .enter caller info =>
    if s.writer = .release then none
    else (s.shared.enter caller info).map fun r =>
      ({ s with shared := r.1, calls := moveAt s.calls i (some r.2.1) }, r.2.2)
  | .asleep _ _ => none
  | .notifyOne caller report => (s.notifyOne woken).map fun t =>
      ({ t with calls := moveAt t.calls i (caller.next report) }, [])
  | .stop =>
    some ({ s with shared := { s.shared with bIsStopLogging := true },
                   calls := moveAt s.calls i (some .notifyAll) }, [])
  | .notifyAll => some ({ s.notifyAll with calls := moveAt s.notifyAll.calls i (some .join) }, [])
  | .join => if s.writer = .exited then some ({ s with calls := moveAt s.calls i none }, []) else none

/-- One step of the writer. -/
def runWriteThread (s : LogSystem) (woken : Option Waiter) : Option (LogSystem × List Event) :=
  match s.writer with
  | .lock =>
    match s.shared.pLogWriteQueue with
    | info :: rest =>
      (notifyOne { s with shared := { s.shared with pLogWriteQueue := rest }, writer := .output info }
        woken).map
        fun t => (t, [.taken info])
    | [] => some ({ s with writer := if s.shared.bIsStopLogging then .close else .release }, [])
  | .release => some ({ s with writer := .asleep }, [])
  | .asleep => none
  | .output info =>
    some ({ s with writer := .lock }, [.output info (info.sLogContentVal ≠ [] ∧ s.shared.isOpen)])
  | .close => some ({ s with shared := { s.shared with isOpen := false }, writer := .exited }, [])
  | .exited => none

/-- One step.  The destructor runs when no call is in progress, and nothing is called after it: that is the
lifetime of an object. -/
def step (s : LogSystem) : Act → Option (LogSystem × List Event)
  | .write info =>
    if s.destroyed then none else some ({ s with calls := s.calls ++ [.enter ⟨false, false⟩ info] }, [])
  | .destroy =>
    if s.destroyed ∨ s.calls ≠ [] then none
    else some ({ s with calls := [.enter ⟨false, true⟩ stopMessage], destroyed := true }, [])
  | .call i woken => s.calls[i]?.bind (s.callStep i woken)
  | .writer woken => s.runWriteThread woken
  | .wakeUp waiter => if s.sleeps waiter then some (s.wake waiter, []) else none
  | .openFile ok =>
    if s.writer = .release then none else some ({ s with shared := { s.shared with isOpen := ok } }, [])
  | .resetDiscardCount => some ({ s with shared := { s.shared with discardCount := 0 } }, [.reset])

/-- The threads of the log. -/
def threads : Machine LogSystem Act Event := ⟨step⟩

/-! ### What a step can do -/

/-- One blocked thread is woken. -/
inductive Wakes (s : LogSystem) : LogSystem → Prop where
  | writer (hwriter : s.writer = .asleep) : Wakes s { s with writer := .lock }
  | call (before : List CallPc) (caller : Caller) (info : LightLogWriteInfo) (after : List CallPc)
      (hcalls : s.calls = before ++ .asleep caller info :: after) :
      Wakes s { s with calls := before ++ .enter caller info :: after }

/-- What `notify_one` does. -/
inductive Notified (s : LogSystem) : LogSystem → Prop where
  | nobody (hwriter : s.writer ≠ .asleep) (hcalls : s.calls.countP CallPc.isAsleep = 0) : Notified s s
  | one {t : LogSystem} (h : Wakes s t) : Notified s t

/-- The transitions, with what holds where they are made. -/
inductive Step (s : LogSystem) : Act → LogSystem → List Event → Prop where
  | write (info : LightLogWriteInfo) (halive : s.destroyed = false) :
      Step s (.write info) { s with calls := s.calls ++ [.enter ⟨false, false⟩ info] } []
  | destroy (halive : s.destroyed = false) (hnone : s.calls = []) :
      Step s .destroy { s with calls := [.enter ⟨false, true⟩ stopMessage], destroyed := true } []
  | sleep {i : ℕ} {woken : Option Waiter} {before after : List CallPc} {caller : Caller}
      {info : LightLogWriteInfo} (hcalls : s.calls = before ++ .enter caller info :: after)
      (hlock : s.writer ≠ .release) (hfull : s.shared.Full) (hblock : s.shared.queueFullStrategy = .block) :
      Step s (.call i woken) { s with calls := before ++ .asleep caller info :: after } []
  | push {i : ℕ} {woken : Option Waiter} {before after : List CallPc} {caller : Caller}
      {info : LightLogWriteInfo} (hcalls : s.calls = before ++ .enter caller info :: after)
      (hlock : s.writer ≠ .release) (hroom : ¬ s.shared.Full) :
      Step s (.call i woken)
        { s with shared := s.shared.push info, calls := before ++ .notifyOne caller none :: after }
        [.pushed caller info]
  | overflow {i : ℕ} {woken : Option Waiter} {before after : List CallPc} {caller : Caller}
      {info oldest : LightLogWriteInfo} {rest : List LightLogWriteInfo} {counted : LightLogWrite}
      {report : Option UInt64} (hcalls : s.calls = before ++ .enter caller info :: after)
      (hlock : s.writer ≠ .release) (hfull : s.shared.Full)
      (hdrop : s.shared.queueFullStrategy = .dropOldest) (hqueue : s.shared.pLogWriteQueue = oldest :: rest)
      (hcount : ({ s.shared with pLogWriteQueue := rest }).countDiscard = (counted, report)) :
      Step s (.call i woken)
        { s with shared := counted.push info, calls := before ++ .notifyOne caller report :: after }
        [.discarded oldest, .pushed caller info]
  | notify {i : ℕ} {woken : Option Waiter} {t : LogSystem} {before after : List CallPc} {caller : Caller}
      {report : Option UInt64} (hwoken : Notified s t) (hfrom : .notifyOne caller report ∈ s.calls)
      (hcalls : t.calls = before ++ .notifyOne caller report :: after) :
      Step s (.call i woken) { t with calls := before ++ (caller.next report).toList ++ after } []
  | stop {i : ℕ} {woken : Option Waiter} {before after : List CallPc}
      (hcalls : s.calls = before ++ .stop :: after) :
      Step s (.call i woken)
        { s with
          shared := { s.shared with bIsStopLogging := true }
          calls := before ++ .notifyAll :: after } []
  | notifyAll {i : ℕ} {woken : Option Waiter} {before after : List CallPc}
    (hfrom : s.calls[i]? = some .notifyAll)
      (hcalls : s.calls.map CallPc.wake = before ++ .notifyAll :: after) :
      Step s (.call i woken) { s with writer := s.writer.wake, calls := before ++ .join :: after } []
  | join {i : ℕ} {woken : Option Waiter} {before after : List CallPc}
      (hcalls : s.calls = before ++ .join :: after) (hexited : s.writer = .exited) :
      Step s (.call i woken) { s with calls := before ++ after } []
  | take {woken : Option Waiter} {t : LogSystem} {info : LightLogWriteInfo} {rest : List LightLogWriteInfo}
      (hwriter : s.writer = .lock) (hqueue : s.shared.pLogWriteQueue = info :: rest)
      (hwoken : Notified
        { s with shared := { s.shared with pLogWriteQueue := rest }, writer := .output info } t) :
      Step s (.writer woken) t [.taken info]
  | drained {woken : Option Waiter} (hwriter : s.writer = .lock) (hqueue : s.shared.pLogWriteQueue = [])
      (hstop : s.shared.bIsStopLogging = true) : Step s (.writer woken) { s with writer := .close } []
  | empty {woken : Option Waiter} (hwriter : s.writer = .lock) (hqueue : s.shared.pLogWriteQueue = [])
      (hstop : s.shared.bIsStopLogging = false) : Step s (.writer woken) { s with writer := .release } []
  | rest {woken : Option Waiter} (hwriter : s.writer = .release) :
      Step s (.writer woken) { s with writer := .asleep } []
  | output {woken : Option Waiter} {info : LightLogWriteInfo} (hwriter : s.writer = .output info) :
      Step s (.writer woken) { s with writer := .lock }
        [.output info (info.sLogContentVal ≠ [] ∧ s.shared.isOpen)]
  | close {woken : Option Waiter} (hwriter : s.writer = .close) :
      Step s (.writer woken) { s with shared := { s.shared with isOpen := false }, writer := .exited } []
  | wakeUp {waiter : Waiter} {t : LogSystem} (h : Wakes s t) : Step s (.wakeUp waiter) t []
  | openFile (ok : Bool) (hlock : s.writer ≠ .release) :
      Step s (.openFile ok) { s with shared := { s.shared with isOpen := ok } } []
  | resetDiscardCount :
      Step s .resetDiscardCount { s with shared := { s.shared with discardCount := 0 } } [.reset]

section Inversion

variable {s t s' : LogSystem} {es : List Event}

theorem wakes_of_sleeps {waiter : Waiter} (h : s.sleeps waiter = true) : Wakes s (s.wake waiter) := by
  cases waiter with
  | writer =>
    have hwriter : s.writer = .asleep := of_decide_eq_true h
    have hwake : s.wake .writer = { s with writer := .lock } := by
      simp only [wake, hwriter, WriterPc.wake]
    rw [hwake]
    exact .writer hwriter
  | call i =>
    obtain ⟨pc, hpc, hasleep⟩ := Option.any_eq_true .. |>.mp h
    obtain ⟨hlt, rfl⟩ := List.getElem?_eq_some_iff.mp hpc
    cases hget : s.calls[i] with
    | asleep caller info =>
      have hsplit : s.calls = s.calls.take i ++ .asleep caller info :: s.calls.drop (i + 1) := by
        rw [← hget, List.getElem_cons_drop, List.take_append_drop]
      have hwake : s.wake (.call i) =
          { s with calls := s.calls.take i ++ .enter caller info :: s.calls.drop (i + 1) } := by
        simp only [wake, List.modify_eq_take_cons_drop hlt, hget, CallPc.wake]
      rw [hwake]
      exact .call _ caller info _ hsplit
    | _ =>
      rw [hget] at hasleep
      exact absurd hasleep (by simp [CallPc.isAsleep])

theorem notified_of_notifyOne {woken : Option Waiter} (h : s.notifyOne woken = some t) : Notified s t := by
  cases woken with
  | none =>
    simp only [notifyOne] at h
    split_ifs at h with hsome
    · obtain rfl := Option.some.inj h
      rw [not_or, Bool.not_eq_true, List.any_eq_false] at hsome
      exact .nobody hsome.1 (List.countP_eq_zero.mpr hsome.2)
  | some waiter =>
    simp only [notifyOne] at h
    split_ifs at h with hsleeps
    · obtain rfl := Option.some.inj h
      exact .one (wakes_of_sleeps hsleeps)

/-- A thread that is not asleep stays where it is. -/
theorem notifyOne_getElem? {woken : Option Waiter} (h : s.notifyOne woken = some t) {i : ℕ} {pc : CallPc}
    (hpc : s.calls[i]? = some pc) (hawake : pc.wake = pc) : t.calls[i]? = some pc := by
  cases woken with
  | none =>
    simp only [notifyOne] at h
    split_ifs at h
    obtain rfl := Option.some.inj h
    exact hpc
  | some waiter =>
    simp only [notifyOne] at h
    split_ifs at h
    obtain rfl := Option.some.inj h
    cases waiter with
    | writer => exact hpc
    | call j =>
      show (s.calls.modify j CallPc.wake)[i]? = some pc
      rw [List.getElem?_modify, hpc]
      by_cases hij : j = i
      · simp [hij, hawake]
      · simp [hij]

theorem enter_cases {i : ℕ} {woken : Option Waiter} {before after : List CallPc} {caller : Caller}
    {info : LightLogWriteInfo} {shared : LightLogWrite} {next : CallPc}
    (hcalls : s.calls = before ++ .enter caller info :: after) (hlock : s.writer ≠ .release)
    (h : s.shared.enter caller info = some (shared, next, es)) :
    Step s (.call i woken) { s with shared := shared, calls := before ++ next :: after } es := by
  simp only [LightLogWrite.enter] at h
  split_ifs at h with hfull
  · cases hstrategy : s.shared.queueFullStrategy with
    | block =>
      simp only [hstrategy, Option.some.injEq, Prod.mk.injEq] at h
      obtain ⟨rfl, rfl, rfl⟩ := h
      exact .sleep hcalls hlock hfull hstrategy
    | dropOldest =>
      simp only [hstrategy] at h
      cases hqueue : s.shared.pLogWriteQueue with
      | nil => simp [hqueue] at h
      | cons oldest rest =>
        simp only [hqueue, Option.some.injEq, Prod.mk.injEq] at h
        obtain ⟨rfl, rfl, rfl⟩ := h
        exact .overflow hcalls hlock hfull hstrategy hqueue (by rw [← hstrategy])
  · simp only [Option.some.injEq, Prod.mk.injEq] at h
    obtain ⟨rfl, rfl, rfl⟩ := h
    exact .push hcalls hlock hfull

theorem call_cases {i : ℕ} {woken : Option Waiter} {pc : CallPc} (hpc : s.calls[i]? = some pc)
    (h : s.callStep i woken pc = some (s', es)) : Step s (.call i woken) s' es := by
  obtain ⟨before, after, hsplit, hmove⟩ := moveAt_split hpc
  cases pc with
  | enter caller info =>
    simp only [callStep] at h
    split_ifs at h with hlock
    · obtain ⟨⟨shared, next, events⟩, henter, hs⟩ := Option.map_eq_some_iff.mp h
      obtain ⟨rfl, rfl⟩ := Prod.mk.inj hs
      have hcalls : moveAt s.calls i (some next) = before ++ next :: after := by
        rw [hmove, Option.toList_some, List.append_assoc, List.singleton_append]
      simp only [hcalls]
      exact enter_cases hsplit hlock henter
  | asleep caller info => exact absurd h (by simp [callStep])
  | notifyOne caller report =>
    obtain ⟨t, hnotify, hs⟩ := Option.map_eq_some_iff.mp h
    obtain ⟨rfl, rfl⟩ := Prod.mk.inj hs
    obtain ⟨before', after', hsplit', hmove'⟩ := moveAt_split (notifyOne_getElem? hnotify hpc rfl)
    rw [hmove']
    exact .notify (notified_of_notifyOne hnotify) (List.mem_of_getElem? hpc) hsplit'
  | stop =>
    obtain ⟨rfl, rfl⟩ := Prod.mk.inj (Option.some.inj h)
    rw [hmove, Option.toList_some, List.append_assoc, List.singleton_append]
    exact .stop hsplit
  | notifyAll =>
    obtain ⟨rfl, rfl⟩ := Prod.mk.inj (Option.some.inj h)
    have hpc' : (s.calls.map CallPc.wake)[i]? = some .notifyAll := by
      rw [List.getElem?_map, hpc]
      rfl
    obtain ⟨before', after', hsplit', hmove'⟩ := moveAt_split hpc'
    simp only [notifyAll, hmove', Option.toList_some, List.append_assoc, List.singleton_append]
    exact .notifyAll hpc hsplit'
  | join =>
    simp only [callStep] at h
    split_ifs at h with hexited
    · obtain ⟨rfl, rfl⟩ := Prod.mk.inj (Option.some.inj h)
      rw [hmove, Option.toList_none, List.append_nil]
      exact .join hsplit hexited

theorem writer_cases {woken : Option Waiter} (h : s.runWriteThread woken = some (s', es)) :
    Step s (.writer woken) s' es := by
  simp only [runWriteThread] at h
  cases hwriter : s.writer with
  | lock =>
    simp only [hwriter] at h
    cases hqueue : s.shared.pLogWriteQueue with
    | nil =>
      simp only [hqueue, Option.some.injEq, Prod.mk.injEq] at h
      obtain ⟨rfl, rfl⟩ := h
      cases hstop : s.shared.bIsStopLogging with
      | false => exact .empty hwriter hqueue hstop
      | true => exact .drained hwriter hqueue hstop
    | cons info rest =>
      simp only [hqueue] at h
      obtain ⟨t, hnotify, hs⟩ := Option.map_eq_some_iff.mp h
      obtain ⟨rfl, rfl⟩ := Prod.mk.inj hs
      exact .take hwriter hqueue (notified_of_notifyOne hnotify)
  | release =>
    simp only [hwriter, Option.some.injEq, Prod.mk.injEq] at h
    obtain ⟨rfl, rfl⟩ := h
    exact .rest hwriter
  | asleep => simp [hwriter] at h
  | output info =>
    simp only [hwriter, Option.some.injEq, Prod.mk.injEq] at h
    obtain ⟨rfl, rfl⟩ := h
    exact .output hwriter
  | close =>
    simp only [hwriter, Option.some.injEq, Prod.mk.injEq] at h
    obtain ⟨rfl, rfl⟩ := h
    exact .close hwriter
  | exited => simp [hwriter] at h

/-- Every step is one of the transitions. -/
theorem step_cases {a : Act} (h : s.step a = some (s', es)) : Step s a s' es := by
  cases a with
  | write info =>
    simp only [step] at h
    split_ifs at h with halive
    · obtain ⟨rfl, rfl⟩ := Prod.mk.inj (Option.some.inj h)
      exact .write info (Bool.eq_false_iff.mpr halive)
  | destroy =>
    simp only [step] at h
    split_ifs at h with halive
    · obtain ⟨rfl, rfl⟩ := Prod.mk.inj (Option.some.inj h)
      rw [not_or, not_not] at halive
      exact .destroy (Bool.eq_false_iff.mpr halive.1) halive.2
  | call i woken =>
    obtain ⟨pc, hpc, hcall⟩ := Option.bind_eq_some_iff.mp h
    exact call_cases hpc hcall
  | writer woken => exact writer_cases h
  | wakeUp waiter =>
    simp only [step] at h
    split_ifs at h with hsleeps
    · obtain ⟨rfl, rfl⟩ := Prod.mk.inj (Option.some.inj h)
      exact .wakeUp (wakes_of_sleeps hsleeps)
  | openFile ok =>
    simp only [step] at h
    split_ifs at h with hlock
    · obtain ⟨rfl, rfl⟩ := Prod.mk.inj (Option.some.inj h)
      exact .openFile ok hlock
  | resetDiscardCount =>
    obtain ⟨rfl, rfl⟩ := Prod.mk.inj (Option.some.inj h)
    exact .resetDiscardCount

end Inversion

end LogSystem

/-! ### The account of a run -/

section Account

def Event.accepted? : Event → Option LightLogWriteInfo
  | .pushed _ info => some info
  | _ => none

def Event.removed? : Event → Option LightLogWriteInfo
  | .discarded info => some info
  | .taken info => some info
  | _ => none

def Event.taken? : Event → Option LightLogWriteInfo
  | .taken info => some info
  | _ => none

/-- The log that the writer is done with. -/
def Event.handled? : Event → Option LightLogWriteInfo
  | .output info _ => some info
  | _ => none

/-- The log that went into the file. -/
def Event.output? : Event → Option LightLogWriteInfo
  | .output info true => some info
  | _ => none

/-- A log without content is not written. -/
def LightLogWriteInfo.hasContent (info : LightLogWriteInfo) : Bool := !info.sLogContentVal.isEmpty

def Event.requested? : Event → Option LightLogWriteInfo
  | .pushed caller info => if caller.inErrorReport then none else some info
  | _ => none

/-- The log that a call has still to put into the queue, if it is its caller's. -/
def CallPc.requested? : CallPc → Option LightLogWriteInfo
  | .enter caller info => if caller.inErrorReport then none else some info
  | .asleep caller info => if caller.inErrorReport then none else some info
  | _ => none

/-- The log that is called for. -/
def Act.requested? : Act → Option LightLogWriteInfo
  | .write info => some info
  | .destroy => some stopMessage
  | _ => none

/-- The log that the writer has in its hand. -/
def WriterPc.hand : WriterPc → List LightLogWriteInfo
  | .output info => [info]
  | _ => []

/-- A log that the writer has in its hand finds the file open. -/
def LogSystem.Opened (s : LogSystem) : Act → Prop
  | .writer _ => s.writer.hand = [] ∨ s.shared.isOpen = true
  | _ => True

instance (s : LogSystem) : (a : Act) → Decidable (s.Opened a)
  | .writer _ => inferInstanceAs (Decidable (_ ∨ _))
  | .write _ | .destroy | .call _ _ | .wakeUp _ | .openFile _ | .resetDiscardCount => isTrue trivial

/-- The logs dropped since the counter was last reset. -/
def discards (n : ℕ) : Event → ℕ
  | .discarded _ => n + 1
  | .reset => 0
  | _ => n

/-- The account of a run: the calls made and what has happened. -/
structure Accounts (s : LogSystem) (as : List Act) (es : List Event) : Prop where
  fifo : es.filterMap Event.removed? ++ s.shared.pLogWriteQueue = es.filterMap Event.accepted?
  hand : es.filterMap Event.handled? ++ s.writer.hand = es.filterMap Event.taken?
  requests : (es.filterMap Event.requested? ++ s.calls.filterMap CallPc.requested?).Perm
    (as.filterMap Act.requested?)
  bounded : s.shared.pLogWriteQueue.length ≤ s.shared.kMaxQueueSize.toNat
  kept : s.shared.queueFullStrategy = .block →
    es.filterMap Event.removed? = es.filterMap Event.taken?
  counted : s.shared.discardCount.toNat = es.foldl discards 0 % 2 ^ 64

/-! What the account looks at is not touched by a wake-up. -/

theorem filterMap_cons_toList {α β : Type*} (f : α → Option β) (a : α) (l : List α) :
    (a :: l).filterMap f = (f a).toList ++ l.filterMap f := by
  cases h : f a <;> simp [h]

theorem wake_requested (pc : CallPc) : pc.wake.requested? = pc.requested? := by
  cases pc <;> rfl

theorem next_requested (caller : Caller) (report : Option UInt64) :
    (caller.next report).toList.filterMap CallPc.requested? = [] := by
  obtain ⟨inErrorReport, closing⟩ := caller
  cases report <;> cases inErrorReport <;> cases closing <;> rfl

theorem wake_hand (pc : WriterPc) : pc.wake.hand = pc.hand := by
  cases pc <;> rfl

theorem countDiscard_frame {s counted : LightLogWrite} {report : Option UInt64}
    (h : s.countDiscard = (counted, report)) :
    counted = { s with discardCount := s.discardCount + 1,
                       lastReportedDiscardCount := counted.lastReportedDiscardCount } := by
  simp only [LightLogWrite.countDiscard] at h
  split_ifs at h <;> obtain ⟨rfl, -⟩ := Prod.mk.inj h <;> rfl

variable {s t : LogSystem} {as : List Act} {es : List Event}

theorem LogSystem.Wakes.frame (h : s.Wakes t) : t.shared = s.shared ∧ t.writer.hand = s.writer.hand ∧
    t.calls.filterMap CallPc.requested? = s.calls.filterMap CallPc.requested? := by
  cases h with
  | writer hwriter => exact ⟨rfl, by rw [hwriter]; rfl, rfl⟩
  | call before caller info after hcalls =>
    refine ⟨rfl, rfl, ?_⟩
    rw [hcalls]
    simp only [List.filterMap_append, filterMap_cons_toList, CallPc.requested?]

theorem LogSystem.Notified.frame (h : s.Notified t) : t.shared = s.shared ∧ t.writer.hand = s.writer.hand ∧
    t.calls.filterMap CallPc.requested? = s.calls.filterMap CallPc.requested? := by
  cases h with
  | nobody => exact ⟨rfl, rfl, rfl⟩
  | one hwakes => exact hwakes.frame

theorem accounts_create (maxQueueSize : UInt64) (strategy : LogQueueOverflowStrategy)
    (reportInterval : UInt64) :
    Accounts (.create maxQueueSize strategy reportInterval) [] [] where
  fifo := rfl
  hand := rfl
  requests := List.Perm.refl _
  bounded := Nat.zero_le _
  kept _ := rfl
  counted := rfl

/-- An action that calls for nothing, with events of no account, that leaves what the account looks at. -/
theorem Accounts.quiet (h : Accounts s as es) {a : Act} (ha : a.requested? = none)
    (hshared : t.shared = { s.shared with bIsStopLogging := t.shared.bIsStopLogging,
                                          isOpen := t.shared.isOpen })
    (hhand : t.writer.hand = s.writer.hand)
    (hcalls : t.calls.filterMap CallPc.requested? = s.calls.filterMap CallPc.requested?) :
    Accounts t (as ++ [a]) (es ++ []) where
  fifo := by rw [hshared, List.append_nil]; exact h.fifo
  hand := by rw [hhand, List.append_nil]; exact h.hand
  requests := by
    rw [hcalls, List.append_nil, List.filterMap_append, filterMap_cons_toList, ha]
    simpa using h.requests
  bounded := by rw [hshared]; exact h.bounded
  kept := by rw [hshared, List.append_nil]; exact h.kept
  counted := by rw [hshared, List.append_nil]; exact h.counted

/-- A call puts its log into the queue, which had room or has got it: `before ++ .enter caller info ::
after` are the calls, `dropped` is what was dropped for it. -/
theorem requests_push {before after : List CallPc} {caller : Caller} {info : LightLogWriteInfo}
    {report : Option UInt64} {dropped : List Event} {i : ℕ} {woken : Option Waiter}
    (h : (es.filterMap Event.requested? ++
      (before ++ CallPc.enter caller info :: after).filterMap CallPc.requested?).Perm
        (as.filterMap Act.requested?))
    (hdropped : dropped.filterMap Event.requested? = []) :
    ((es ++ (dropped ++ [Event.pushed caller info])).filterMap Event.requested? ++
      (before ++ CallPc.notifyOne caller report :: after).filterMap CallPc.requested?).Perm
        ((as ++ [Act.call i woken]).filterMap Act.requested?) := by
  have hcall : (as ++ [Act.call i woken]).filterMap Act.requested? = as.filterMap Act.requested? := by
    simp [filterMap_cons_toList, Act.requested?]
  rw [hcall]
  refine List.Perm.trans ?_ h
  simp only [List.filterMap_append, filterMap_cons_toList, hdropped, List.filterMap_nil, List.append_nil,
    List.nil_append, CallPc.requested?, Event.requested?, Option.toList_none, List.append_assoc]
  exact (List.perm_append_comm_assoc _ _ _).append_left _

/-- One step keeps the account. -/
theorem Accounts.step {a : Act} {new : List Event} (h : Accounts s as es) (hstep : s.Step a t new) :
    Accounts t (as ++ [a]) (es ++ new) := by
  cases hstep with
  | write info halive =>
    refine ⟨?_, ?_, ?_, h.bounded, ?_, ?_⟩
    · rw [List.append_nil]
      exact h.fifo
    · rw [List.append_nil]
      exact h.hand
    · have hrequests := h.requests.append_right [info]
      simpa [filterMap_cons_toList, CallPc.requested?, Act.requested?] using hrequests
    · rw [List.append_nil]
      exact h.kept
    · rw [List.append_nil]
      exact h.counted
  | destroy halive hnone =>
    refine ⟨?_, ?_, ?_, h.bounded, ?_, ?_⟩
    · rw [List.append_nil]
      exact h.fifo
    · rw [List.append_nil]
      exact h.hand
    · have hrequests := h.requests.append_right [stopMessage]
      rw [hnone] at hrequests
      simpa [filterMap_cons_toList, CallPc.requested?, Act.requested?] using hrequests
    · rw [List.append_nil]
      exact h.kept
    · rw [List.append_nil]
      exact h.counted
  | sleep hcalls =>
    refine h.quiet rfl rfl rfl ?_
    rw [hcalls]
    simp only [List.filterMap_append, filterMap_cons_toList, CallPc.requested?]
  | @push i woken before after caller info hcalls hlock hroom =>
    refine ⟨?_, ?_, ?_, ?_, ?_, ?_⟩
    · simp only [List.filterMap_append, ← h.fifo]
      simp [filterMap_cons_toList, LightLogWrite.push, Event.removed?, Event.accepted?]
    · simpa [filterMap_cons_toList, Event.handled?, Event.taken?] using h.hand
    · exact @requests_push as es before after caller info none [] i woken (hcalls ▸ h.requests) rfl
    · rw [LightLogWrite.Full, not_le] at hroom
      show (s.shared.pLogWriteQueue ++ [info]).length ≤ s.shared.kMaxQueueSize.toNat
      rw [List.length_append, List.length_singleton]
      omega
    · intro hblock
      simpa [filterMap_cons_toList, Event.removed?, Event.taken?] using h.kept hblock
    · show s.shared.discardCount.toNat = _
      rw [h.counted, List.foldl_append]
      rfl
  | @overflow i woken before after caller info oldest rest counted report hcalls hlock hfull hdrop hqueue
    hcount =>
    have hframe := countDiscard_frame hcount
    have hfifo := h.fifo
    have hbounded := h.bounded
    rw [hqueue] at hfifo hbounded
    refine ⟨?_, ?_, ?_, ?_, ?_, ?_⟩
    · show _ ++ (counted.pLogWriteQueue ++ [info]) = _
      rw [hframe]
      simp only [List.filterMap_append, ← hfifo]
      simp [filterMap_cons_toList, Event.removed?, Event.accepted?]
    · simpa [filterMap_cons_toList, Event.handled?, Event.taken?] using h.hand
    · exact @requests_push as es before after caller info report [.discarded oldest] i woken
        (hcalls ▸ h.requests) rfl
    · show (counted.pLogWriteQueue ++ [info]).length ≤ counted.kMaxQueueSize.toNat
      rw [hframe]
      simpa using hbounded
    · intro hblock
      have hstrategy : counted.queueFullStrategy = .dropOldest := by rw [hframe, hdrop]
      exact absurd (hstrategy.symm.trans hblock) (by decide)
    · show counted.discardCount.toNat = _
      rw [hframe, List.foldl_append]
      show (s.shared.discardCount + 1).toNat = (es.foldl discards 0 + 1) % 2 ^ 64
      rw [UInt64.toNat_add, h.counted]
      show (_ % 2 ^ 64 + 1) % 2 ^ 64 = _
      omega
  | @notify i woken t before after caller report hwoken hfrom hcalls =>
    obtain ⟨hshared, hhand, hsame⟩ := hwoken.frame
    refine h.quiet rfl (by rw [hshared]) hhand ?_
    rw [← hsame, hcalls]
    simp only [List.filterMap_append, filterMap_cons_toList, next_requested, List.append_nil,
      CallPc.requested?,
      Option.toList_none, List.nil_append]
  | stop hcalls =>
    refine h.quiet rfl rfl rfl ?_
    rw [hcalls]
    simp only [List.filterMap_append, filterMap_cons_toList, CallPc.requested?]
  | notifyAll hfrom hcalls =>
    refine h.quiet rfl rfl (wake_hand _) ?_
    have hwake : (s.calls.map CallPc.wake).filterMap CallPc.requested? =
        s.calls.filterMap CallPc.requested? := by
      rw [List.filterMap_map]
      exact congrArg (List.filterMap · _) (funext wake_requested)
    rw [← hwake, hcalls]
    simp only [List.filterMap_append, filterMap_cons_toList, CallPc.requested?]
  | join hcalls hexited =>
    refine h.quiet rfl rfl rfl ?_
    rw [hcalls]
    simp only [List.filterMap_append, filterMap_cons_toList, CallPc.requested?, Option.toList_none,
      List.nil_append]
  | @take woken t info rest hwriter hqueue hwoken =>
    obtain ⟨hshared, hhand, hsame⟩ := hwoken.frame
    have hfifo := h.fifo
    have hbounded := h.bounded
    rw [hqueue] at hfifo hbounded
    have hout : es.filterMap Event.handled? = es.filterMap Event.taken? := by
      simpa [hwriter, WriterPc.hand] using h.hand
    refine ⟨?_, ?_, ?_, ?_, ?_, ?_⟩
    · rw [hshared, List.filterMap_append, List.filterMap_append, ← hfifo]
      simp [filterMap_cons_toList, Event.removed?, Event.accepted?]
    · rw [hhand, List.filterMap_append, List.filterMap_append, ← hout]
      simp [filterMap_cons_toList, Event.handled?, Event.taken?, WriterPc.hand]
    · rw [hsame]
      simpa [filterMap_cons_toList, Event.requested?, Act.requested?] using h.requests
    · rw [hshared]
      exact Nat.le_of_succ_le hbounded
    · intro hblock
      rw [hshared] at hblock
      simp only [List.filterMap_append, h.kept hblock]
      rfl
    · rw [hshared]
      simpa [discards] using h.counted
  | drained hwriter => exact h.quiet rfl rfl (by rw [hwriter]; rfl) rfl
  | empty hwriter => exact h.quiet rfl rfl (by rw [hwriter]; rfl) rfl
  | rest hwriter => exact h.quiet rfl rfl (by rw [hwriter]; rfl) rfl
  | @output woken info hwriter =>
    have hout := h.hand
    rw [hwriter, WriterPc.hand] at hout
    refine ⟨?_, ?_, ?_, h.bounded, ?_, ?_⟩
    · simpa [filterMap_cons_toList, Event.removed?, Event.accepted?] using h.fifo
    · rw [List.filterMap_append, List.filterMap_append, ← hout]
      simp [filterMap_cons_toList, Event.handled?, Event.taken?, WriterPc.hand]
    · simpa [filterMap_cons_toList, Event.requested?, Act.requested?] using h.requests
    · intro hblock
      simpa [filterMap_cons_toList, Event.removed?, Event.taken?] using h.kept hblock
    · simpa [discards] using h.counted
  | close hwriter => exact h.quiet rfl rfl (by rw [hwriter]; rfl) rfl
  | wakeUp hwakes =>
    obtain ⟨hshared, hhand, hsame⟩ := hwakes.frame
    exact h.quiet rfl (by rw [hshared]) hhand hsame
  | openFile ok hlock => exact h.quiet rfl rfl rfl rfl
  | resetDiscardCount =>
    refine ⟨?_, ?_, ?_, h.bounded, ?_, ?_⟩
    · simpa [filterMap_cons_toList, Event.removed?, Event.accepted?] using h.fifo
    · simpa [filterMap_cons_toList, Event.handled?, Event.taken?] using h.hand
    · simpa [filterMap_cons_toList, Event.requested?, Act.requested?] using h.requests
    · intro hblock
      simpa [filterMap_cons_toList, Event.removed?, Event.taken?] using h.kept hblock
    · simp [discards]

theorem run_account {K : UInt64} {strategy : LogQueueOverflowStrategy} {interval : UInt64}
    (hrun : LogSystem.threads.run (.create K strategy interval) as = some (s, es)) : Accounts s as es := by
  have hkeep := @Lib.Machine.Along.invariant_calls _ _ _ LogSystem.threads (fun _ _ => True)
    (fun s as es => Accounts s as es)
    (fun s as es a t new h _ hstep => h.step (LogSystem.step_cases hstep)) _ _ [] as [] es
    (Lib.Machine.along_of_forall (fun _ _ => trivial) _) (accounts_create K strategy interval) hrun
  simpa using hkeep

/-- What goes into the file in one step: the log that is done with, if it has content and the file is open. -/
theorem LogSystem.Step.written {a : Act} {new : List Event} (h : s.Step a t new) :
    (new.filterMap Event.output?).Sublist
        ((new.filterMap Event.handled?).filter LightLogWriteInfo.hasContent) ∧
      (s.Opened a → new.filterMap Event.output? =
        (new.filterMap Event.handled?).filter LightLogWriteInfo.hasContent) := by
  cases h with
  | @output woken info hwriter =>
    cases hcontent : info.sLogContentVal with
    | nil => simp [Event.output?, Event.handled?, LightLogWriteInfo.hasContent, hcontent]
    | cons unit units =>
      cases hopen : s.shared.isOpen with
      | false =>
        refine ⟨by simp [filterMap_cons_toList, Event.output?], fun hopened => ?_⟩
        simp [LogSystem.Opened, hwriter, WriterPc.hand, hopen] at hopened
      | true =>
        simp [Event.output?, Event.handled?, LightLogWriteInfo.hasContent, hcontent]
  | _ => exact ⟨List.nil_sublist _, fun _ => rfl⟩

/-- What goes into the file in a run. -/
theorem run_written {s t : LogSystem} {as : List Act} {es : List Event}
    (hrun : LogSystem.threads.run s as = some (t, es)) :
    (es.filterMap Event.output?).Sublist
        ((es.filterMap Event.handled?).filter LightLogWriteInfo.hasContent) ∧
      (LogSystem.threads.Along LogSystem.Opened s as → es.filterMap Event.output? =
        (es.filterMap Event.handled?).filter LightLogWriteInfo.hasContent) := by
  induction as generalizing s es with
  | nil =>
    obtain ⟨rfl, rfl⟩ := Prod.mk.inj (Option.some.inj hrun)
    exact ⟨List.Sublist.refl _, fun _ => rfl⟩
  | cons a as ih =>
    obtain ⟨s₁, es₁, es₂, hstep, hrest, rfl⟩ := Lib.Machine.run_cons_inv hrun
    obtain ⟨hfirst, hall⟩ := (LogSystem.step_cases hstep).written
    obtain ⟨hsub, hwhole⟩ := ih hrest
    simp only [List.filterMap_append, List.filter_append]
    refine ⟨hfirst.append hsub, fun hopened => ?_⟩
    rw [hall hopened.1, hwhole (hopened.2 s₁ es₁ hstep)]

/-- The parameters of the constructor stay. -/
theorem LogSystem.Step.config {a : Act} {new : List Event} (h : s.Step a t new) :
    t.shared.kMaxQueueSize = s.shared.kMaxQueueSize ∧
      t.shared.queueFullStrategy = s.shared.queueFullStrategy := by
  cases h with
  | overflow _ _ _ _ _ hcount =>
    have hframe := countDiscard_frame hcount
    exact ⟨by rw [LightLogWrite.push, hframe], by rw [LightLogWrite.push, hframe]⟩
  | notify hwoken =>
    have hshared := hwoken.frame.1
    exact ⟨by rw [hshared], by rw [hshared]⟩
  | take _ _ hwoken =>
    have hshared := hwoken.frame.1
    exact ⟨by rw [hshared], by rw [hshared]⟩
  | wakeUp hwakes =>
    have hshared := hwakes.frame.1
    exact ⟨by rw [hshared], by rw [hshared]⟩
  | _ => exact ⟨rfl, rfl⟩

theorem run_config {s t : LogSystem} {as : List Act} {es : List Event}
    (hrun : LogSystem.threads.run s as = some (t, es)) :
    t.shared.kMaxQueueSize = s.shared.kMaxQueueSize ∧
      t.shared.queueFullStrategy = s.shared.queueFullStrategy := by
  refine Lib.Machine.run_induction (M := LogSystem.threads)
    (R := fun s _ t => t.shared.kMaxQueueSize = s.shared.kMaxQueueSize ∧
      t.shared.queueFullStrategy = s.shared.queueFullStrategy) ?_ ?_ ?_ hrun
  · exact fun _ => ⟨rfl, rfl⟩
  · exact fun _ _ _ _ _ h₁ h₂ => ⟨h₂.1.trans h₁.1, h₂.2.trans h₁.2⟩
  · exact fun _ _ _ _ hstep => (LogSystem.step_cases hstep).config

end Account

end LuspUpload.Log
