import Mathlib.Algebra.Order.Ring.Nat
import LuspUpload.Log.LogWriter

/-!
# Log.LogWakeup — who sleeps through a notification of the log

The callers and the writer wait on one condition variable, and a `notify_one` may wake a caller where it
was meant for the writer.  With at most `kMaxQueueSize` calls in progress it never matters (`log_drains`),
with one more it may leave everybody asleep in front of a full queue (`waits_end_iff`).  `CloseLogStream`
stores the flag and notifies without the mutex: if the writer stands between its test and its sleep,
nobody wakes it again and the destructor does not return (`destructor_returns_iff`).
-/

namespace LuspUpload.Log

open Lib

/-- The call is about to notify. -/
def CallPc.notifies : CallPc → Bool
  | .notifyOne _ _ => true
  | _ => false

/-- The call is that of the destructor. -/
def CallPc.closing : CallPc → Bool
  | .enter caller _ => caller.closing
  | .asleep caller _ => caller.closing
  | .notifyOne caller _ => caller.closing
  | _ => true

/-- The destructor has stored `bIsStopLogging`. -/
def CallPc.stopped : CallPc → Bool
  | .notifyAll => true
  | .join => true
  | _ => false

/-- The writer has found nothing to do: it sleeps, or is about to. -/
def WriterPc.resting : WriterPc → Bool
  | .release => true
  | .asleep => true
  | _ => false

/-- The steps of the threads themselves. -/
def Act.isThread : Act → Bool
  | .call _ _ => true
  | .writer _ => true
  | _ => false

/-- A wake-up without a notification. -/
def Act.isSpurious : Act → Bool
  | .wakeUp _ => true
  | _ => false

def Act.isWrite : Act → Bool
  | .write _ => true
  | _ => false

namespace LogSystem

/-- With `Block`, there are no more calls in progress than places in the queue. -/
def NotCrowded (s : LogSystem) : Prop :=
  s.shared.queueFullStrategy = .block → s.calls.length ≤ s.shared.kMaxQueueSize.toNat

/-- The `notify_all` of the destructor does not come between the writer's test and its sleep. -/
def Heeded (s : LogSystem) : Act → Prop
  | .call i _ => s.calls[i]? = some .notifyAll → s.writer ≠ .release
  | _ => True

/-- No thread can make a step. -/
def Still (s : LogSystem) : Prop := ∀ a : Act, a.isThread = true → s.step a = none

instance (s : LogSystem) : Decidable s.NotCrowded := inferInstanceAs (Decidable (_ → _))

instance (s : LogSystem) (a : Act) : Decidable (s.Heeded a) :=
  match a with
  | .call _ _ => inferInstanceAs (Decidable (_ → _))
  | .write _ => isTrue trivial
  | .destroy => isTrue trivial
  | .writer _ => isTrue trivial
  | .wakeUp _ => isTrue trivial
  | .openFile _ => isTrue trivial
  | .resetDiscardCount => isTrue trivial

/-! ### The life of the object -/

/-- The destructor is the only call when it is called, and the writer ends only after it has stored the
flag. -/
structure Lifetime (s : LogSystem) : Prop where
  alive : s.destroyed = false →
    s.shared.bIsStopLogging = false ∧ ∀ pc ∈ s.calls, pc.closing = false
  closing : s.destroyed = true →
    (∃ pc, s.calls = [pc] ∧ pc.closing = true ∧ s.shared.bIsStopLogging = pc.stopped) ∨
      s.calls = [] ∧ s.shared.bIsStopLogging = true ∧ s.writer = .exited
  ended : s.writer = .close ∨ s.writer = .exited →
    s.shared.bIsStopLogging = true ∧ s.shared.pLogWriteQueue = []

section Lifetime

variable {s t : LogSystem}

theorem lifetime_create (K : UInt64) (strategy : LogQueueOverflowStrategy) (interval : UInt64) :
    Lifetime (create K strategy interval) where
  alive _ := ⟨rfl, by simp [create]⟩
  closing h := absurd h (by simp [create])
  ended h := absurd h (by simp [create])

theorem split_eq_singleton {α : Type*} {before after : List α} {x y : α} (h : before ++ x :: after = [y]) :
    before = [] ∧ x = y ∧ after = [] := by
  cases before with
  | nil => simpa using h
  | cons b bs => simp at h

/-- A call in progress that has not stored the flag: the flag is not set. -/
theorem Lifetime.running (h : Lifetime s) {pc : CallPc} (hpc : pc ∈ s.calls)
    (hstopped : pc.stopped = false) :
    s.shared.bIsStopLogging = false := by
  cases hdestroyed : s.destroyed with
  | false => exact (h.alive hdestroyed).1
  | true =>
    rcases h.closing hdestroyed with ⟨pc', hcalls, -, hflag⟩ | ⟨hnone, -⟩
    · rw [hcalls, List.mem_singleton] at hpc
      rw [hflag, ← hpc, hstopped]
    · rw [hnone] at hpc
      exact absurd hpc List.not_mem_nil

/-- A call that has stored the flag is that of the destructor, and the only one. -/
theorem Lifetime.only (h : Lifetime s) {pc : CallPc} (hpc : pc ∈ s.calls) (hclosing : pc.closing = true) :
    s.destroyed = true ∧ s.calls = [pc] ∧ s.shared.bIsStopLogging = pc.stopped := by
  cases hdestroyed : s.destroyed with
  | false =>
    have hopen := (h.alive hdestroyed).2 pc hpc
    rw [hclosing] at hopen
    exact absurd hopen (by decide)
  | true =>
    rcases h.closing hdestroyed with ⟨pc', hcalls, -, hflag⟩ | ⟨hnone, -⟩
    · rw [hcalls, List.mem_singleton] at hpc
      exact ⟨rfl, by rw [hcalls, hpc], by rw [hflag, hpc]⟩
    · rw [hnone] at hpc
      exact absurd hpc List.not_mem_nil

theorem Lifetime.wakes (h : Lifetime s) (hwakes : Wakes s t) : Lifetime t := by
  cases hwakes with
  | writer hwriter =>
    refine ⟨h.alive, ?_, fun hend => absurd hend (by simp)⟩
    intro hdestroyed
    rcases h.closing hdestroyed with hone | ⟨-, -, hexited⟩
    · exact Or.inl hone
    · rw [hwriter] at hexited
      exact absurd hexited (by decide)
  | call before caller info after hcalls =>
    refine ⟨?_, ?_, h.ended⟩
    · intro hdestroyed
      refine ⟨(h.alive hdestroyed).1, ?_⟩
      have hall := (h.alive hdestroyed).2
      rw [hcalls] at hall
      simp only [List.forall_mem_append, List.forall_mem_cons] at hall ⊢
      exact hall
    · intro hdestroyed
      rcases h.closing hdestroyed with ⟨pc, hpc, hclosing, hflag⟩ | ⟨hnone, -⟩
      · obtain ⟨rfl, rfl, rfl⟩ := split_eq_singleton (hcalls.symm.trans hpc)
        exact Or.inl ⟨_, rfl, hclosing, hflag⟩
      · rw [hcalls] at hnone
        exact absurd hnone (by simp)

theorem Lifetime.notified (h : Lifetime s) (hnotified : Notified s t) : Lifetime t := by
  cases hnotified with
  | nobody => exact h
  | one hwakes => exact h.wakes hwakes

/-- A call goes on, before it stores the flag or after it. -/
theorem Lifetime.move (h : Lifetime s) {before after : List CallPc} {pc : CallPc} {next : Option CallPc}
    (hcalls : s.calls = before ++ pc :: after) (hshared : t.shared.bIsStopLogging = s.shared.bIsStopLogging)
    (hdestroyed : t.destroyed = s.destroyed) (hmoved : t.calls = before ++ next.toList ++ after)
    (hnext : ∀ n, next = some n → n.closing = pc.closing ∧ n.stopped = pc.stopped)
    (hreturns : next = none → pc.closing = false)
    (hended : t.writer = .close ∨ t.writer = .exited →
      t.shared.bIsStopLogging = true ∧ t.shared.pLogWriteQueue = []) : Lifetime t := by
  refine ⟨?_, ?_, hended⟩
  · intro halive
    rw [hdestroyed] at halive
    obtain ⟨hflag, hopen⟩ := h.alive halive
    refine ⟨hshared.trans hflag, ?_⟩
    intro n hn
    rw [hmoved, List.append_assoc, List.mem_append, List.mem_append] at hn
    rw [hcalls] at hopen
    rcases hn with hn | hn | hn
    · exact hopen n (List.mem_append_left _ hn)
    · rw [(hnext n (Option.mem_toList.mp hn)).1]
      exact hopen pc (by simp)
    · exact hopen n (List.mem_append_right _ (List.mem_cons_of_mem _ hn))
  · intro hdead
    rw [hdestroyed] at hdead
    rcases h.closing hdead with ⟨pc', hpc, hclosing, hflag⟩ | ⟨hnone, -⟩
    · obtain ⟨rfl, rfl, rfl⟩ := split_eq_singleton (hcalls.symm.trans hpc)
      cases hn : next with
      | none =>
        rw [hreturns hn] at hclosing
        exact absurd hclosing (by decide)
      | some n =>
        obtain ⟨hnclosing, hnstopped⟩ := hnext n hn
        refine Or.inl ⟨n, by simp [hmoved, hn], hnclosing.trans hclosing, ?_⟩
        rw [hshared, hflag, hnstopped]
    · rw [hcalls] at hnone
      exact absurd hnone (by simp)

theorem next_cases (caller : Caller) (report : Option UInt64) :
    (∀ n, caller.next report = some n → n.closing = caller.closing ∧ n.stopped = false) ∧
      (caller.next report = none → caller.closing = false) := by
  obtain ⟨inErrorReport, closing⟩ := caller
  cases report <;> cases inErrorReport <;> cases closing <;>
    simp [Caller.next, CallPc.closing, CallPc.stopped]

theorem shown {α : Type*} (before after : List α) (x : α) :
    before ++ x :: after = before ++ (some x).toList ++ after := by
  simp

/-- A turn of the writer. -/
theorem Lifetime.turn (h : Lifetime s) (hcalls : t.calls = s.calls) (hdestroyed : t.destroyed = s.destroyed)
    (hflag : t.shared.bIsStopLogging = s.shared.bIsStopLogging) (hwriter : s.writer ≠ .exited)
    (hended : t.writer = .close ∨ t.writer = .exited →
      t.shared.bIsStopLogging = true ∧ t.shared.pLogWriteQueue = []) : Lifetime t := by
  refine ⟨?_, ?_, hended⟩
  · rw [hdestroyed, hflag, hcalls]
    exact h.alive
  · rw [hdestroyed, hflag, hcalls]
    intro hdead
    exact Or.inl ((h.closing hdead).resolve_right fun hgone => hwriter hgone.2.2)

theorem Lifetime.step {a : Act} {new : List Event} (h : Lifetime s) (hstep : s.Step a t new) :
    Lifetime t := by
  cases hstep with
  | write info halive =>
    obtain ⟨hflag, hopen⟩ := h.alive halive
    refine ⟨fun _ => ⟨hflag, ?_⟩, fun hdead => absurd (halive.symm.trans hdead) (by decide), h.ended⟩
    simp only [List.forall_mem_append, List.forall_mem_cons]
    exact ⟨hopen, rfl, by simp⟩
  | destroy halive hnone =>
    refine ⟨fun hdead => absurd hdead (by simp), ?_, h.ended⟩
    intro _
    exact Or.inl ⟨_, rfl, rfl, (h.alive halive).1⟩
  | @sleep i woken before after caller info hcalls =>
    exact h.move hcalls rfl rfl (shown before after (.asleep caller info))
      (by rintro _ ⟨⟩; exact ⟨rfl, rfl⟩)
      (fun hnone => absurd hnone (by simp)) h.ended
  | @push i woken before after caller info hcalls hlock =>
    refine h.move hcalls rfl rfl (shown before after (.notifyOne caller none))
      (by rintro _ ⟨⟩; exact ⟨rfl, rfl⟩)
      (fun hnone => absurd hnone (by simp)) ?_
    intro hend
    have hmem : CallPc.enter caller info ∈ s.calls := hcalls ▸ List.mem_append_right _ List.mem_cons_self
    have hflag := h.running hmem rfl
    rw [(h.ended hend).1] at hflag
    exact absurd hflag (by decide)
  | @overflow i woken before after caller info oldest rest counted report hcalls hlock hfull hdrop hqueue
    hcount =>
    have hframe := countDiscard_frame hcount
    refine h.move hcalls (by rw [LightLogWrite.push, hframe]) rfl
      (shown before after (.notifyOne caller report))
      (by rintro _ ⟨⟩; exact ⟨rfl, rfl⟩) (fun hnone => absurd hnone (by simp)) ?_
    intro hend
    have hempty := (h.ended hend).2
    rw [hqueue] at hempty
    exact absurd hempty (by simp)
  | notify hwoken hfrom hcalls =>
    obtain ⟨hnext, hreturns⟩ := next_cases _ _
    exact (h.notified hwoken).move hcalls rfl rfl rfl hnext hreturns (h.notified hwoken).ended
  | stop hcalls =>
    obtain ⟨hdead, honly, hflag⟩ := h.only (hcalls ▸ List.mem_append_right _ List.mem_cons_self) rfl
    obtain ⟨rfl, -, rfl⟩ := split_eq_singleton (hcalls.symm.trans honly)
    refine ⟨fun halive => absurd (halive.symm.trans hdead) (by decide), fun _ => Or.inl ⟨_, rfl, rfl, rfl⟩,
      ?_⟩
    exact fun hend => ⟨rfl, (h.ended hend).2⟩
  | notifyAll hfrom hcalls =>
    obtain ⟨hdead, honly, hflag⟩ := h.only (List.mem_of_getElem? hfrom) rfl
    have hsingle : s.calls.map CallPc.wake = [.notifyAll] := by
      rw [honly]
      rfl
    obtain ⟨rfl, -, rfl⟩ := split_eq_singleton (hcalls.symm.trans hsingle)
    refine ⟨fun halive => absurd (halive.symm.trans hdead) (by decide), fun _ =>
      Or.inl ⟨_, rfl, rfl, hflag⟩, ?_⟩
    intro hend
    refine h.ended ?_
    cases hwriter : s.writer <;> simp_all [WriterPc.wake]
  | join hcalls hexited =>
    obtain ⟨hdead, honly, hflag⟩ := h.only (hcalls ▸ List.mem_append_right _ List.mem_cons_self) rfl
    obtain ⟨rfl, -, rfl⟩ := split_eq_singleton (hcalls.symm.trans honly)
    exact ⟨fun halive => absurd (halive.symm.trans hdead) (by decide), fun _ =>
      Or.inr ⟨rfl, hflag, hexited⟩, h.ended⟩
  | take hwriter hqueue hwoken =>
    refine Lifetime.notified ?_ hwoken
    exact h.turn rfl rfl rfl (by simp [hwriter]) (by simp)
  | drained hwriter hqueue hstop =>
    exact h.turn rfl rfl rfl (by simp [hwriter]) fun _ => ⟨hstop, hqueue⟩
  | empty hwriter => exact h.turn rfl rfl rfl (by simp [hwriter]) (by simp)
  | rest hwriter => exact h.turn rfl rfl rfl (by simp [hwriter]) (by simp)
  | output hwriter => exact h.turn rfl rfl rfl (by simp [hwriter]) (by simp)
  | close hwriter => exact h.turn rfl rfl rfl (by simp [hwriter]) fun _ => h.ended (Or.inl hwriter)
  | wakeUp hwakes => exact h.wakes hwakes
  | openFile ok hlock => exact ⟨h.alive, h.closing, h.ended⟩
  | resetDiscardCount => exact ⟨h.alive, h.closing, h.ended⟩

end Lifetime

/-! ### Somebody will come back to the queue -/

/-- What a run keeps as long as the calls are not crowded and the destructor is heeded. -/
structure Attentive (s : LogSystem) : Prop where
  /-- Each caller that sleeps has a log in the queue: when the writer takes it, it wakes one of them. -/
  callers : s.calls.countP CallPc.isAsleep ≤ s.shared.pLogWriteQueue.length
  dropping : s.shared.queueFullStrategy = .dropOldest → s.calls.countP CallPc.isAsleep = 0
  /-- Each log that came while the writer sleeps has its notification still to come, and no caller can
  catch it. -/
  consumer : s.writer.resting = true → s.calls.countP CallPc.isAsleep = 0 ∧
    s.shared.pLogWriteQueue.length ≤ s.calls.countP CallPc.notifies
  released : s.writer = .release → s.shared.pLogWriteQueue = []
  stopping : s.shared.bIsStopLogging = true → s.writer.resting = true → .notifyAll ∈ s.calls

section Attentive

variable {s t : LogSystem}

theorem attentive_create (K : UInt64) (strategy : LogQueueOverflowStrategy) (interval : UInt64) :
    Attentive (create K strategy interval) where
  callers := Nat.le_refl 0
  dropping _ := rfl
  consumer h := absurd h (by simp [create, WriterPc.resting])
  released _ := rfl
  stopping h := absurd h (by simp [create])

/-- What a wake-up changes in the counts. -/
theorem Wakes.counts (h : Wakes s t) :
    t.calls.countP CallPc.notifies = s.calls.countP CallPc.notifies ∧
      (t.writer.resting = true → t.calls.countP CallPc.isAsleep + 1 = s.calls.countP CallPc.isAsleep ∧
        t.writer = s.writer) ∧
      t.calls.countP CallPc.isAsleep ≤ s.calls.countP CallPc.isAsleep ∧
      (s.writer ≠ .asleep → t.calls.countP CallPc.isAsleep + 1 = s.calls.countP CallPc.isAsleep) ∧
      (.notifyAll ∈ s.calls → .notifyAll ∈ t.calls) := by
  cases h with
  | writer hwriter =>
    refine ⟨rfl, ?_, Nat.le_refl _, fun hawake => absurd hwriter hawake, id⟩
    intro hresting
    exact absurd hresting (by simp [WriterPc.resting])
  | call before caller info after hcalls =>
    have hasleep : (before ++ .enter caller info :: after).countP CallPc.isAsleep + 1 =
        s.calls.countP CallPc.isAsleep := by
      simp only [hcalls, List.countP_append, List.countP_cons, CallPc.isAsleep]
      simp
      omega
    refine ⟨?_, fun _ => ⟨hasleep, rfl⟩, (Nat.le_succ _).trans hasleep.le, fun _ => hasleep, ?_⟩
    · simp [hcalls, List.countP_append, CallPc.notifies]
    · rw [hcalls]
      simp

theorem Attentive.wakes (h : Attentive s) (hwakes : Wakes s t) : Attentive t := by
  obtain ⟨hnotifies, hresting, hle, -, hmem⟩ := hwakes.counts
  obtain ⟨hshared, -, -⟩ := hwakes.frame
  refine ⟨?_, ?_, ?_, ?_, ?_⟩
  · rw [hshared]
    exact hle.trans h.callers
  · rw [hshared]
    intro hdrop
    exact Nat.eq_zero_of_le_zero (hle.trans (h.dropping hdrop).le)
  · intro hrest
    obtain ⟨hfewer, hwriter⟩ := hresting hrest
    rw [hwriter] at hrest
    have hnone := (h.consumer hrest).1
    omega
  · intro hrelease
    have hrest : t.writer.resting = true := by
      rw [hrelease]
      rfl
    rw [(hresting hrest).2] at hrelease
    rw [hshared]
    exact h.released hrelease
  · rw [hshared]
    intro hstop hrest
    have hrest' := hrest
    rw [(hresting hrest).2] at hrest'
    exact hmem (h.stopping hstop hrest')

/-- After a call has put in its log: `calls` are those after it, `queue` the queue after it. -/
theorem Attentive.entered (h : Attentive s) {before after : List CallPc} {caller : Caller}
    {info : LightLogWriteInfo} {report : Option UInt64}
      (hcalls : s.calls = before ++ .enter caller info :: after)
    (hlock : s.writer ≠ .release) (hmoved : t.calls = before ++ .notifyOne caller report :: after)
    (hwriter : t.writer = s.writer) (hstrategy : t.shared.queueFullStrategy = s.shared.queueFullStrategy)
    (hflag : t.shared.bIsStopLogging = s.shared.bIsStopLogging)
    (hlower : s.shared.pLogWriteQueue.length ≤ t.shared.pLogWriteQueue.length)
    (hupper : t.shared.pLogWriteQueue.length ≤ s.shared.pLogWriteQueue.length + 1) : Attentive t := by
  have hasleep : t.calls.countP CallPc.isAsleep = s.calls.countP CallPc.isAsleep := by
    simp [hmoved, hcalls, List.countP_append, CallPc.isAsleep]
  have hnotifies : t.calls.countP CallPc.notifies = s.calls.countP CallPc.notifies + 1 := by
    simp only [hmoved, hcalls, List.countP_append, List.countP_cons, CallPc.notifies]
    simp
    omega
  refine ⟨?_, ?_, ?_, ?_, ?_⟩
  · rw [hasleep]
    exact h.callers.trans hlower
  · rw [hasleep, hstrategy]
    exact h.dropping
  · rw [hwriter, hasleep, hnotifies]
    intro hrest
    obtain ⟨hnone, hcome⟩ := h.consumer hrest
    exact ⟨hnone, by omega⟩
  · rw [hwriter]
    intro hrelease
    exact absurd hrelease hlock
  · rw [hwriter, hflag, hmoved]
    intro hstop hrest
    have hmem := h.stopping hstop hrest
    rw [hcalls] at hmem
    simpa using hmem

/-- A call has notified. -/
theorem Attentive.notified (h : Attentive s) (hwoken : Notified s t) {before after : List CallPc}
    {caller : Caller} {report : Option UInt64}
      (hcalls : t.calls = before ++ .notifyOne caller report :: after) :
    Attentive { t with calls := before ++ (caller.next report).toList ++ after } := by
  have ht : Attentive t := by
    cases hwoken with
    | nobody => exact h
    | one hwakes => exact h.wakes hwakes
  have hasleep : (before ++ (caller.next report).toList ++ after).countP CallPc.isAsleep =
      t.calls.countP CallPc.isAsleep := by
    have hone := countP_move CallPc.isAsleep before after (.notifyOne caller report) (caller.next report)
    rw [← hcalls] at hone
    have hnext : (caller.next report).any CallPc.isAsleep = false := by
      obtain ⟨inErrorReport, closing⟩ := caller
      cases report <;> cases inErrorReport <;> cases closing <;> rfl
    rw [hnext] at hone
    exact hone
  refine ⟨by rw [hasleep]; exact ht.callers, by rw [hasleep]; exact ht.dropping, ?_, ht.released, ?_⟩
  · -- a writer that still rests has missed nothing, for no log was in the queue
    intro hrest
    rw [hasleep]
    refine ⟨(ht.consumer hrest).1, ?_⟩
    cases hwoken with
    | nobody hawake =>
      have hrelease : s.writer = .release := by
        cases hwriter : s.writer <;> simp_all [WriterPc.resting]
      rw [h.released hrelease]
      exact Nat.zero_le _
    | one hwakes =>
      obtain ⟨hfewer, hwriter⟩ := hwakes.counts.2.1 hrest
      have hnone := (h.consumer (hwriter ▸ hrest)).1
      omega
  · intro hstop hrest
    have hmem := ht.stopping hstop hrest
    rw [hcalls] at hmem
    simp only [List.mem_append, List.mem_cons] at hmem ⊢
    rcases hmem with hmem | hmem | hmem
    · exact Or.inl (Or.inl hmem)
    · exact absurd hmem (by simp)
    · exact Or.inr hmem

/-- The writer has taken a log. -/
theorem Attentive.taken (h : Attentive s) {info : LightLogWriteInfo} {rest : List LightLogWriteInfo}
    (hqueue : s.shared.pLogWriteQueue = info :: rest)
    (hwoken : Notified
      { s with shared := { s.shared with pLogWriteQueue := rest }, writer := .output info } t) :
    Attentive t := by
  have hcallers := h.callers
  rw [hqueue, List.length_cons] at hcallers
  have hfewer : t.calls.countP CallPc.isAsleep ≤ rest.length ∧
      t.calls.countP CallPc.isAsleep ≤ s.calls.countP CallPc.isAsleep ∧ t.writer = .output info := by
    cases hwoken with
    | nobody hawake hnone => exact ⟨hnone ▸ Nat.zero_le _, Nat.le_refl _, rfl⟩
    | one hwakes =>
      obtain ⟨-, -, hle, hone, -⟩ := hwakes.counts
      have hone := hone (by simp)
      refine ⟨?_, hle, ?_⟩
      · dsimp only at hone
        omega
      · cases hwakes with
        | writer hasleep => exact absurd hasleep (by simp)
        | call => rfl
  obtain ⟨hroom, hle, htaken⟩ := hfewer
  have hshared := hwoken.frame.1
  refine ⟨?_, ?_, ?_, ?_, ?_⟩
  · rw [hshared]
    exact hroom
  · rw [hshared]
    intro hdrop
    exact Nat.eq_zero_of_le_zero (hle.trans (h.dropping hdrop).le)
  all_goals rw [htaken]
  · exact fun hrest => absurd hrest (by simp [WriterPc.resting])
  · exact fun hrelease => absurd hrelease (by simp)
  · exact fun _ hrest => absurd hrest (by simp [WriterPc.resting])

/-- A writer that does not rest; the calls that sleep are no more than before. -/
theorem Attentive.awake (h : Attentive s)
    (hstrategy : t.shared.queueFullStrategy = s.shared.queueFullStrategy)
    (hqueue : t.shared.pLogWriteQueue = s.shared.pLogWriteQueue)
    (hcalls : t.calls.countP CallPc.isAsleep ≤ s.calls.countP CallPc.isAsleep)
    (hwriter : t.writer.resting = false) : Attentive t := by
  refine ⟨by rw [hqueue]; exact hcalls.trans h.callers, ?_, ?_, ?_, ?_⟩
  · rw [hstrategy]
    exact fun hdrop => Nat.eq_zero_of_le_zero (hcalls.trans (h.dropping hdrop).le)
  · rw [hwriter]
    exact fun hrest => absurd hrest (by decide)
  · intro hrelease
    rw [hrelease] at hwriter
    exact absurd hwriter (by decide)
  · rw [hwriter]
    exact fun _ hrest => absurd hrest (by decide)

/-- A caller finds the queue full and goes to sleep: it is one of at most `kMaxQueueSize` calls. -/
theorem Attentive.slept (h : Attentive s) {before after : List CallPc} {caller : Caller}
    {info : LightLogWriteInfo} (hcalls : s.calls = before ++ .enter caller info :: after)
    (hlock : s.writer ≠ .release) (hfull : s.shared.Full) (hblock : s.shared.queueFullStrategy = .block)
    (hroom : s.NotCrowded) : Attentive { s with calls := before ++ .asleep caller info :: after } := by
  have hlength := hroom hblock
  have hnotifies : (before ++ .asleep caller info :: after).countP CallPc.notifies =
      s.calls.countP CallPc.notifies := by
    simp [hcalls, List.countP_append, CallPc.notifies]
  have hothers : s.calls.countP CallPc.notifies + 1 ≤ s.calls.length := by
    have hbefore := List.countP_le_length (p := CallPc.notifies) (l := before)
    have hafter := List.countP_le_length (p := CallPc.notifies) (l := after)
    simp only [hcalls, List.countP_append, List.countP_cons, CallPc.notifies, List.length_append,
      List.length_cons]
    simp
    omega
  have hasleep : (before ++ .asleep caller info :: after).countP CallPc.isAsleep ≤ s.calls.length := by
    have hle := List.countP_le_length (p := CallPc.isAsleep) (l := before ++ .asleep caller info :: after)
    rw [hcalls]
    simpa using hle
  refine ⟨hasleep.trans (hlength.trans hfull), ?_, ?_, fun hrelease => absurd hrelease hlock, ?_⟩
  · exact fun hdrop => absurd (hblock.symm.trans hdrop) (by decide)
  · -- were the writer resting, the queue would be full of logs whose calls have still to notify
    intro hrest
    have hcome := (h.consumer hrest).2
    have hfull' : s.shared.kMaxQueueSize.toNat ≤ s.shared.pLogWriteQueue.length := hfull
    omega
  · intro hstop hrest
    have hmem := h.stopping hstop hrest
    rw [hcalls] at hmem
    simpa using hmem

/-- One step keeps it. -/
theorem Attentive.step {a : Act} {new : List Event} (h : Attentive s) (hroom : s.NotCrowded)
    (hheeded : s.Heeded a) (hstep : s.Step a t new) : Attentive t := by
  cases hstep with
  | write info halive =>
    refine ⟨?_, ?_, ?_, h.released, ?_⟩
    · simpa [List.countP_append, CallPc.isAsleep] using h.callers
    · simpa [List.countP_append, CallPc.isAsleep] using h.dropping
    · simpa [List.countP_append, CallPc.isAsleep, CallPc.notifies] using h.consumer
    · exact fun hstop hrest => List.mem_append_left _ (h.stopping hstop hrest)
  | destroy halive hnone =>
    have hconsumer := h.consumer
    have hstopping := h.stopping
    rw [hnone] at hconsumer hstopping
    refine ⟨Nat.zero_le _, fun _ => rfl, hconsumer, h.released, ?_⟩
    exact fun hstop hrest => absurd (hstopping hstop hrest) List.not_mem_nil
  | sleep hcalls hlock hfull hblock => exact h.slept hcalls hlock hfull hblock hroom
  | push hcalls hlock =>
    exact h.entered hcalls hlock rfl rfl rfl rfl (by simp [LightLogWrite.push])
      (by simp [LightLogWrite.push])
  | overflow hcalls hlock hfull hdrop hqueue hcount =>
    have hframe := countDiscard_frame hcount
    refine h.entered hcalls hlock rfl rfl (by rw [LightLogWrite.push, hframe])
      (by rw [LightLogWrite.push, hframe]) ?_ ?_
    · rw [LightLogWrite.push, hframe, hqueue]
      simp
    · rw [LightLogWrite.push, hframe, hqueue]
      simp
  | notify hwoken hfrom hcalls => exact h.notified hwoken hcalls
  | @stop i woken before after hcalls =>
    have hasleep : (before ++ .notifyAll :: after).countP CallPc.isAsleep =
        s.calls.countP CallPc.isAsleep := by
      simp [hcalls, List.countP_append, CallPc.isAsleep]
    have hnotifies : (before ++ .notifyAll :: after).countP CallPc.notifies =
        s.calls.countP CallPc.notifies := by
      simp [hcalls, List.countP_append, CallPc.notifies]
    refine ⟨by rw [hasleep]; exact h.callers, by rw [hasleep]; exact h.dropping, ?_, h.released, ?_⟩
    · rw [hasleep, hnotifies]
      exact h.consumer
    · exact fun _ _ => List.mem_append_right _ List.mem_cons_self
  | @notifyAll i woken before after hfrom hcalls =>
    have hnone : (s.calls.map CallPc.wake).countP CallPc.isAsleep = 0 := by
      rw [List.countP_eq_zero]
      intro pc hpc
      obtain ⟨pc', -, rfl⟩ := List.mem_map.mp hpc
      cases pc' <;> simp [CallPc.wake, CallPc.isAsleep]
    have hrest : s.writer.wake.resting = false := by
      have hlock := hheeded hfrom
      cases hwriter : s.writer with
      | release => exact absurd hwriter hlock
      | _ => rfl
    refine h.awake rfl rfl ?_ hrest
    have hsame : (before ++ .join :: after).countP CallPc.isAsleep =
        (before ++ .notifyAll :: after).countP CallPc.isAsleep := by
      simp [List.countP_append, CallPc.isAsleep]
    rw [hsame, ← hcalls, hnone]
    exact Nat.zero_le _
  | @join i woken before after hcalls hexited =>
    refine h.awake rfl rfl ?_ (by rw [hexited]; rfl)
    simp [hcalls, List.countP_append, CallPc.isAsleep]
  | take hwriter hqueue hwoken => exact h.taken hqueue hwoken
  | drained hwriter => exact h.awake rfl rfl (Nat.le_refl _) rfl
  | empty hwriter hqueue hstop =>
    have hcallers := h.callers
    rw [hqueue] at hcallers
    refine ⟨h.callers, h.dropping, ?_, fun _ => hqueue, fun hset => absurd (hstop.symm.trans hset)
      (by decide)⟩
    intro _
    rw [hqueue]
    exact ⟨Nat.eq_zero_of_le_zero hcallers, Nat.zero_le _⟩
  | rest hwriter =>
    have hrest : s.writer.resting = true := by
      rw [hwriter]
      rfl
    exact ⟨h.callers, h.dropping, fun _ => h.consumer hrest, fun hrelease => absurd hrelease (by simp),
      fun hstop _ => h.stopping hstop hrest⟩
  | output hwriter => exact h.awake rfl rfl (Nat.le_refl _) rfl
  | close hwriter => exact h.awake rfl rfl (Nat.le_refl _) rfl
  | wakeUp hwakes => exact h.wakes hwakes
  | openFile ok hlock => exact ⟨h.callers, h.dropping, h.consumer, h.released, h.stopping⟩
  | resetDiscardCount => exact ⟨h.callers, h.dropping, h.consumer, h.released, h.stopping⟩

end Attentive

/-! ### When no thread can move -/

section Still

variable {s t : LogSystem}

theorem exists_notifyOne (s : LogSystem) : ∃ woken t, s.notifyOne woken = some t := by
  by_cases hwriter : s.writer = .asleep
  · exact ⟨some .writer, s.wake .writer, by simp [notifyOne, sleeps, hwriter]⟩
  · by_cases hcalls : s.calls.any CallPc.isAsleep = true
    · obtain ⟨pc, hpc, hasleep⟩ := List.any_eq_true.mp hcalls
      obtain ⟨i, hi⟩ := List.mem_iff_getElem?.mp hpc
      exact ⟨some (.call i), s.wake (.call i), by simp [notifyOne, sleeps, hi, hasleep]⟩
    · refine ⟨none, s, ?_⟩
      simp only [notifyOne]
      rw [if_neg]
      rw [not_or]
      exact ⟨hwriter, hcalls⟩

theorem enter_isSome {s : LightLogWrite} (hmax : 0 < s.kMaxQueueSize.toNat) (caller : Caller)
    (info : LightLogWriteInfo) : (s.enter caller info).isSome := by
  simp only [LightLogWrite.enter]
  split_ifs with hfull
  · cases s.queueFullStrategy with
    | block => rfl
    | dropOldest =>
      cases hqueue : s.pLogWriteQueue with
      | nil =>
        rw [LightLogWrite.Full, hqueue, List.length_nil] at hfull
        omega
      | cons oldest rest => rfl
  · rfl

theorem Still.writer (h : s.Still) : s.writer = .asleep ∨ s.writer = .exited := by
  cases hwriter : s.writer with
  | asleep => exact Or.inl rfl
  | exited => exact Or.inr rfl
  | lock =>
    cases hqueue : s.shared.pLogWriteQueue with
    | nil =>
      have hnone := h (.writer none) rfl
      simp [step, runWriteThread, hwriter, hqueue] at hnone
    | cons info rest =>
      obtain ⟨woken, t, hnotify⟩ := exists_notifyOne
        { s with shared := { s.shared with pLogWriteQueue := rest }, writer := .output info }
      have hnone := h (.writer woken) rfl
      simp only [step, runWriteThread, hwriter, hqueue, hnotify] at hnone
      exact absurd hnone (by simp)
  | _ =>
    have hnone := h (.writer none) rfl
    simp [step, runWriteThread, hwriter] at hnone

theorem Still.call (h : s.Still) (hmax : 0 < s.shared.kMaxQueueSize.toNat) {pc : CallPc}
    (hpc : pc ∈ s.calls) :
    pc.isAsleep = true ∨ pc = .join ∧ s.writer ≠ .exited := by
  obtain ⟨i, hi⟩ := List.mem_iff_getElem?.mp hpc
  have hnone : ∀ woken, s.callStep i woken pc = none := by
    intro woken
    have hstep := h (.call i woken) rfl
    rwa [step, hi, Option.bind_some] at hstep
  cases pc with
  | asleep caller info => exact Or.inl rfl
  | enter caller info =>
    have hlock : s.writer ≠ .release := by
      rcases h.writer with hwriter | hwriter <;> rw [hwriter] <;> decide
    obtain ⟨r, hr⟩ := Option.isSome_iff_exists.mp (enter_isSome hmax caller info)
    have hstep := hnone none
    rw [callStep, if_neg hlock, hr] at hstep
    exact absurd hstep (by simp)
  | notifyOne caller report =>
    obtain ⟨woken, t, hnotify⟩ := exists_notifyOne s
    have hstep := hnone woken
    rw [callStep, hnotify] at hstep
    exact absurd hstep (by simp)
  | stop => exact absurd (hnone none) (by simp [callStep])
  | notifyAll => exact absurd (hnone none) (by simp [callStep])
  | join =>
    refine Or.inr ⟨rfl, ?_⟩
    intro hexited
    exact absurd (hnone none) (by simp [callStep, hexited])

/-- The state in which a run may come to rest: all calls have returned, all logs are out. -/
structure Settled (s : LogSystem) : Prop where
  calls : s.calls = []
  queue : s.shared.pLogWriteQueue = []
  hand : s.writer.hand = []
  writer : s.destroyed = false ∧ s.writer = .asleep ∨ s.destroyed = true ∧ s.writer = .exited

/-- Nobody sleeps through: a state in which no thread can move is settled. -/
theorem Still.settled (h : s.Still) (hmax : 0 < s.shared.kMaxQueueSize.toNat) (hlife : Lifetime s)
    (hattentive : Attentive s) : Settled s := by
  have hasleep : s.calls.countP CallPc.isAsleep = 0 → ∀ pc ∈ s.calls, pc = .join ∧ s.writer ≠ .exited := by
    intro hnone pc hpc
    refine (h.call hmax hpc).resolve_left ?_
    exact List.countP_eq_zero.mp hnone pc hpc
  rcases h.writer with hwriter | hwriter
  · -- the writer sleeps: every log in the queue has a call that has still to notify, and there is none
    obtain ⟨hnone, hcome⟩ := hattentive.consumer (by rw [hwriter]; rfl)
    have hjoin := hasleep hnone
    have hqueue : s.shared.pLogWriteQueue = [] := by
      have hnotifies : s.calls.countP CallPc.notifies = 0 := by
        rw [List.countP_eq_zero]
        intro pc hpc
        rw [(hjoin pc hpc).1]
        decide
      exact List.eq_nil_of_length_eq_zero (by omega)
    have hcalls : s.calls = [] := by
      refine List.eq_nil_iff_forall_not_mem.mpr ?_
      intro pc hpc
      obtain rfl := (hjoin pc hpc).1
      obtain ⟨-, honly, hflag⟩ := hlife.only hpc rfl
      have hmem := hattentive.stopping hflag (by rw [hwriter]; rfl)
      rw [honly] at hmem
      exact absurd hmem (by simp)
    refine ⟨hcalls, hqueue, by rw [hwriter]; rfl, Or.inl ⟨?_, hwriter⟩⟩
    cases hdestroyed : s.destroyed with
    | false => rfl
    | true =>
      rcases hlife.closing hdestroyed with ⟨pc, hone, -⟩ | ⟨-, -, hexited⟩
      · rw [hcalls] at hone
        exact absurd hone (by simp)
      · exact absurd (hwriter.symm.trans hexited) (by decide)
  · obtain ⟨hflag, hqueue⟩ := hlife.ended (Or.inr hwriter)
    have hcallers := hattentive.callers
    rw [hqueue, List.length_nil] at hcallers
    have hcalls : s.calls = [] := by
      refine List.eq_nil_iff_forall_not_mem.mpr ?_
      intro pc hpc
      exact (hasleep (Nat.eq_zero_of_le_zero hcallers) pc hpc).2 hwriter
    refine ⟨hcalls, hqueue, by rw [hwriter]; rfl, Or.inr ⟨?_, hwriter⟩⟩
    cases hdestroyed : s.destroyed with
    | true => rfl
    | false => exact absurd ((hlife.alive hdestroyed).1.symm.trans hflag) (by decide)

end Still

/-! ### Every run comes to rest -/

/-- What a call may still cost: its own steps, the writer's for its log, and those of the threads it
wakes. -/
def weight : CallPc → ℕ
  | .enter caller _ => (if caller.inErrorReport then 7 else 14) + if caller.closing then 5 else 0
  | .asleep caller _ => (if caller.inErrorReport then 6 else 13) + if caller.closing then 5 else 0
  | .notifyOne caller report =>
    (if caller.inErrorReport ∨ report = none then 3 else 10) + if caller.closing then 5 else 0
  | .stop => 5
  | .notifyAll => 4
  | .join => 1

def weights : List CallPc → ℕ
  | [] => 0
  | pc :: calls => weight pc + weights calls

def writerWeight : WriterPc → ℕ
  | .lock => 2
  | .release => 1
  | .asleep => 0
  | .output _ => 3
  | .close => 1
  | .exited => 0

/-- The steps the threads can still make. -/
def work (s : LogSystem) : ℕ := writerWeight s.writer + 3 * s.shared.pLogWriteQueue.length + weights s.calls

@[simp] theorem weights_nil : weights [] = 0 := rfl

@[simp] theorem weights_cons (pc : CallPc) (calls : List CallPc) :
    weights (pc :: calls) = weight pc + weights calls := rfl

@[simp] theorem weights_append (before after : List CallPc) :
    weights (before ++ after) = weights before + weights after := by
  induction before with
  | nil => simp
  | cons pc before ih => simp [ih, Nat.add_assoc]

section Work

variable {s t : LogSystem}

theorem Wakes.work_le (h : Wakes s t) : work t ≤ work s + 2 ∧
    (s.writer ≠ .asleep → work t ≤ work s + 1) := by
  cases h with
  | writer hwriter =>
    refine ⟨?_, fun hawake => absurd hwriter hawake⟩
    simp only [work, hwriter, writerWeight]
    omega
  | call before caller info after hcalls =>
    have hone : weight (.enter caller info) = weight (.asleep caller info) + 1 := by
      obtain ⟨inErrorReport, closing⟩ := caller
      cases inErrorReport <;> cases closing <;> rfl
    have hwork : work { s with calls := before ++ .enter caller info :: after } = work s + 1 := by
      simp only [work, hcalls, weights_append, weights_cons, hone]
      omega
    exact ⟨by omega, fun _ => hwork.le⟩

theorem Notified.work_le (h : Notified s t) : work t ≤ work s + 2 ∧
    (s.writer ≠ .asleep → work t ≤ work s + 1) := by
  cases h with
  | nobody => exact ⟨Nat.le_add_right _ _, fun _ => Nat.le_add_right _ _⟩
  | one hwakes => exact hwakes.work_le

/-- A call goes on. -/
theorem work_move {before after : List CallPc} {pc : CallPc} {next : Option CallPc} {n : ℕ}
    (hcalls : s.calls = before ++ pc :: after) (hmoved : t.calls = before ++ next.toList ++ after)
    (hrest : writerWeight t.writer + 3 * t.shared.pLogWriteQueue.length ≤
      writerWeight s.writer + 3 * s.shared.pLogWriteQueue.length + n)
    (hnext : weights next.toList + n < weight pc) : work t < work s := by
  simp only [work, hcalls, hmoved, weights_append, weights_cons]
  omega

theorem weight_enter (caller : Caller) (info : LightLogWriteInfo) (report : Option UInt64) :
    weight (.notifyOne caller none) + 3 < weight (.enter caller info) ∧
      weight (.notifyOne caller report) < weight (.enter caller info) ∧
      weight (.asleep caller info) < weight (.enter caller info) := by
  obtain ⟨inErrorReport, closing⟩ := caller
  cases report <;> cases inErrorReport <;> cases closing <;> simp [weight]

theorem weight_next (caller : Caller) (report : Option UInt64) :
    weights (caller.next report).toList + 2 < weight (.notifyOne caller report) := by
  obtain ⟨inErrorReport, closing⟩ := caller
  cases report <;> cases inErrorReport <;> cases closing <;> simp [Caller.next, weight]

/-- Every step of a thread lowers the work, and every other action adds little to it. -/
theorem Step.work {a : Act} {new : List Event} (hlife : Lifetime s) (h : s.Step a t new) :
    (a.isThread = true → work t < work s) ∧ (a.isThread = false → work t ≤ work s + 19) := by
  cases h with
  | write info halive =>
    refine ⟨fun hthread => absurd hthread (by simp [Act.isThread]), fun _ => ?_⟩
    simp only [LogSystem.work, weights_append, weights_cons, weights_nil]
    simp [weight]
    omega
  | destroy halive hnone =>
    refine ⟨fun hthread => absurd hthread (by simp [Act.isThread]), fun _ => ?_⟩
    simp only [LogSystem.work, hnone, weights_cons, weights_nil]
    simp [weight]
  | @sleep i woken before after caller info hcalls =>
    refine ⟨fun _ => ?_, fun hthread => absurd hthread (by simp [Act.isThread])⟩
    refine work_move (n := 0) hcalls (shown before after _) (by simp) ?_
    simpa using (weight_enter caller info none).2.2
  | @push i woken before after caller info hcalls =>
    refine ⟨fun _ => ?_, fun hthread => absurd hthread (by simp [Act.isThread])⟩
    refine work_move (n := 3) hcalls (shown before after _) ?_ ?_
    · simp [LightLogWrite.push]
      omega
    · simpa using (weight_enter caller info none).1
  | @overflow i woken before after caller info oldest rest counted report hcalls hlock hfull hdrop hqueue
    hcount =>
    refine ⟨fun _ => ?_, fun hthread => absurd hthread (by simp [Act.isThread])⟩
    have hframe := countDiscard_frame hcount
    refine work_move (n := 0) hcalls (shown before after _) ?_ ?_
    · rw [LightLogWrite.push, hframe, hqueue]
      simp
    · simpa using (weight_enter caller info report).2.1
  | @notify i woken t before after caller report hwoken hfrom hcalls =>
    refine ⟨fun _ => ?_, fun hthread => absurd hthread (by simp [Act.isThread])⟩
    have hle := hwoken.work_le.1
    have hnext := weight_next caller report
    simp only [LogSystem.work, hcalls, weights_append, weights_cons] at hle ⊢
    omega
  | stop hcalls =>
    refine ⟨fun _ => ?_, fun hthread => absurd hthread (by simp [Act.isThread])⟩
    exact work_move (n := 0) hcalls (shown _ _ CallPc.notifyAll) (by simp) (by simp [weight])
  | notifyAll hfrom hcalls =>
    refine ⟨fun _ => ?_, fun hthread => absurd hthread (by simp [Act.isThread])⟩
    obtain ⟨-, honly, -⟩ := hlife.only (List.mem_of_getElem? hfrom) rfl
    rw [honly] at hcalls
    obtain ⟨rfl, -, rfl⟩ := split_eq_singleton hcalls.symm
    simp only [LogSystem.work, honly, weights_append, weights_cons, weights_nil, weight]
    cases s.writer with
    | asleep =>
      simp only [WriterPc.wake, writerWeight]
      omega
    | _ => simp [WriterPc.wake, writerWeight]
  | join hcalls hexited =>
    refine ⟨fun _ => ?_, fun hthread => absurd hthread (by simp [Act.isThread])⟩
    exact @work_move _ _ _ _ _ none 0 hcalls (by simp) (by simp) (by simp [weight])
  | take hwriter hqueue hwoken =>
    refine ⟨fun _ => ?_, fun hthread => absurd hthread (by simp [Act.isThread])⟩
    have hle := hwoken.work_le.2 (by simp)
    simp only [LogSystem.work, hwriter, hqueue, writerWeight, List.length_cons] at hle ⊢
    omega
  | wakeUp hwakes =>
    refine ⟨fun hthread => absurd hthread (by simp [Act.isThread]), fun _ => ?_⟩
    have hle := hwakes.work_le.1
    omega
  | openFile | resetDiscardCount =>
    refine ⟨fun hthread => absurd hthread (by simp [Act.isThread]), fun _ => ?_⟩
    simp [LogSystem.work]
  | drained hwriter | empty hwriter | rest hwriter | output hwriter | close hwriter =>
    refine ⟨fun _ => ?_, fun hthread => absurd hthread (by simp [Act.isThread])⟩
    simp [LogSystem.work, hwriter, writerWeight]

end Work

/-! ### Runs -/

section Runs

variable {K : UInt64} {strategy : LogQueueOverflowStrategy} {interval : UInt64} {as : List Act}
  {s t : LogSystem}
  {es : List Event}

theorem run_lifetime (hrun : threads.run (create K strategy interval) as = some (s, es)) : Lifetime s :=
  Machine.Reaches.invariant (fun _ _ _ _ h hstep => h.step (step_cases hstep)) ⟨as, es, hrun⟩
    (lifetime_create K strategy interval)

theorem run_attentive
    (hheeded : threads.Along (fun s a => s.NotCrowded ∧ s.Heeded a) (create K strategy interval) as)
    (hrun : threads.run (create K strategy interval) as = some (s, es)) : Attentive s :=
  hheeded.invariant (I := fun s _ => Attentive s)
    (fun _ _ _ _ _ h hcond hstep => h.step hcond.1 hcond.2 (step_cases hstep)) (h := [])
    (attentive_create K strategy interval) hrun

theorem run_work_le (hrun : threads.run (create K strategy interval) as = some (s, es)) :
    as.countP Act.isThread ≤ 2 + 19 * as.countP fun a => !a.isThread := by
  have hcount := Machine.run_countP_le (M := threads) (I := Lifetime) (μ := work) (p := Act.isThread)
      (k := 19)
    (fun _ _ _ _ h hstep => h.step (step_cases hstep))
      (fun _ _ _ _ h hstep => ((step_cases hstep).work h).1)
    (fun _ _ _ _ h hstep => ((step_cases hstep).work h).2) (lifetime_create K strategy interval) hrun
  have hwork : work (create K strategy interval) = 2 := rfl
  omega

/-- When nothing can move any more, nothing is left to do. -/
theorem run_settled (hmax : 0 < K.toNat)
    (hheeded : threads.Along (fun s a => s.NotCrowded ∧ s.Heeded a) (create K strategy interval) as)
    (hrun : threads.run (create K strategy interval) as = some (s, es)) (hstill : s.Still) : Settled s := by
  have hsame := (run_config hrun).1
  exact hstill.settled (by rw [hsame]; exact hmax) (run_lifetime hrun) (run_attentive hheeded hrun)

end Runs

/-! ### One call too many -/

section Crowd

variable {s t : LogSystem}

theorem Step.calls_le {a : Act} {new : List Event} (h : s.Step a t new) (hdestroy : a ≠ .destroy) :
    t.destroyed = s.destroyed ∧ t.calls.length ≤ s.calls.length + a.isWrite.toNat := by
  have hwakes : ∀ {s t : LogSystem}, Wakes s t → t.destroyed = s.destroyed ∧
      t.calls.length = s.calls.length := by
    intro s t h
    cases h with
    | writer => exact ⟨rfl, rfl⟩
    | call before caller info after hcalls => exact ⟨rfl, by simp [hcalls]⟩
  have hnotified : ∀ {s t : LogSystem}, Notified s t →
      t.destroyed = s.destroyed ∧ t.calls.length = s.calls.length := by
    intro s t h
    cases h with
    | nobody => exact ⟨rfl, rfl⟩
    | one h => exact hwakes h
  cases h with
  | write info halive => exact ⟨rfl, by simp [Act.isWrite]⟩
  | destroy => exact absurd rfl hdestroy
  | sleep hcalls | push hcalls | overflow hcalls | stop hcalls => exact ⟨rfl, by simp [hcalls]⟩
  | join hcalls =>
    refine ⟨rfl, ?_⟩
    simp only [hcalls, List.length_append, List.length_cons]
    omega
  | @notify i woken t before after caller report hwoken hfrom hcalls =>
    obtain ⟨hsame, hlength⟩ := hnotified hwoken
    refine ⟨hsame, ?_⟩
    rw [hcalls] at hlength
    have hone : (caller.next report).toList.length ≤ 1 := by
      cases caller.next report <;> simp
    simp only [List.length_append, List.length_cons] at hlength ⊢
    omega
  | notifyAll hfrom hcalls =>
    have hlength := congrArg List.length hcalls
    refine ⟨rfl, ?_⟩
    simp only [List.length_map, List.length_append, List.length_cons] at hlength ⊢
    omega
  | take hwriter hqueue hwoken =>
    obtain ⟨hsame, hlength⟩ := hnotified hwoken
    exact ⟨hsame, hlength.le.trans (Nat.le_add_right _ _)⟩
  | wakeUp h =>
    obtain ⟨hsame, hlength⟩ := hwakes h
    exact ⟨hsame, hlength.le.trans (Nat.le_add_right _ _)⟩
  | _ => exact ⟨rfl, Nat.le_add_right _ _⟩

/-- As long as the destructor is not called, there are as many calls at once as were made, and nobody is
there to be heeded. -/
theorem along_few {n : ℕ} {as : List Act} (hlife : Lifetime s) (halive : s.destroyed = false)
    (hfew : s.calls.length + as.countP Act.isWrite ≤ n) (hdestroy : .destroy ∉ as) :
    threads.Along (fun s a => s.calls.length ≤ n ∧ s.Heeded a) s as := by
  induction as generalizing s with
  | nil => trivial
  | cons a as ih =>
    rw [List.mem_cons, not_or] at hdestroy
    rw [List.countP_cons] at hfew
    refine ⟨⟨by omega, ?_⟩, ?_⟩
    · cases a with
      | call i woken =>
        intro hall
        have hclosing := (hlife.alive halive).2 _ (List.mem_of_getElem? hall)
        exact absurd hclosing (by decide)
      | _ => trivial
    · intro t new hstep
      obtain ⟨hsame, hlength⟩ := (step_cases hstep).calls_le (Ne.symm hdestroy.1)
      refine ih (hlife.step (step_cases hstep)) (hsame.trans halive) ?_ hdestroy.2
      cases hwrite : a.isWrite with
      | false =>
        rw [hwrite] at hfew hlength
        simp only [Bool.toNat_false, Bool.false_eq_true, if_false] at hlength hfew
        omega
      | true =>
        rw [hwrite] at hfew hlength
        simp only [Bool.toNat_true, if_true] at hlength hfew
        omega

/-- A call of a caller that has put in its log, and one that sleeps. -/
def plainCaller : Caller := ⟨false, false⟩

/-- The writer sleeps; `j` of the calls have put `info` in and have still to notify. -/
def filling (K interval : UInt64) (info : LightLogWriteInfo) (j : ℕ) : LogSystem :=
  ⟨⟨K, .block, interval, List.replicate j info, false, 0, 0, false⟩, .asleep,
    List.replicate j (.notifyOne plainCaller none), false⟩

/-- The queue is full and the writer sleeps; `j` calls have still to notify and one caller sleeps. -/
def starving (K interval : UInt64) (info : LightLogWriteInfo) (j : ℕ) : LogSystem :=
  ⟨⟨K, .block, interval, List.replicate K.toNat info, false, 0, 0, false⟩, .asleep,
    List.replicate j (.notifyOne plainCaller none) ++ [.asleep plainCaller info], false⟩

/-- `j` callers fill the queue. -/
def fill (info : LightLogWriteInfo) : ℕ → List Act
  | 0 => []
  | j + 1 => fill info j ++ [.write info, .call j none]

/-- The calls notify one after another, and each wakes the caller that sleeps, in front of a full queue. -/
def starve : ℕ → List Act
  | 0 => []
  | j + 1 => .call 0 (some (.call (j + 1))) :: .call j none :: starve j

theorem fill_acts (info : LightLogWriteInfo) (j : ℕ) :
    (fill info j).countP Act.isWrite = j ∧ .destroy ∉ fill info j := by
  induction j with
  | zero => simp [fill]
  | succ j ih => simp [fill, ih, List.countP_cons, Act.isWrite]

theorem starve_acts (j : ℕ) : (starve j).countP Act.isWrite = 0 ∧ .destroy ∉ starve j := by
  induction j with
  | zero => simp [starve]
  | succ j ih => simp [starve, ih, Act.isWrite]

theorem moveAt_last {α : Type*} (before : List α) (pc next : α) {j : ℕ} (hj : before.length = j) :
    moveAt (before ++ [pc]) j (some next) = before ++ [next] := by
  subst hj
  simp [moveAt]

theorem modify_last {α : Type*} (f : α → α) (before : List α) (pc : α) {j : ℕ} (hj : before.length = j) :
    (before ++ [pc]).modify j f = before ++ [f pc] := by
  subst hj
  induction before with
  | nil => rfl
  | cons b before ih => simp [ih]

theorem run_fill (K interval : UInt64) (info : LightLogWriteInfo) {j : ℕ} (hj : j ≤ K.toNat) :
    ∃ es, threads.run (filling K interval info 0) (fill info j) = some (filling K interval info j, es) := by
  induction j with
  | zero => exact ⟨[], rfl⟩
  | succ j ih =>
    obtain ⟨es, hes⟩ := ih (Nat.le_of_succ_le hj)
    have hwrite : threads.step (filling K interval info j) (.write info) =
        some ({ filling K interval info j with
          calls := List.replicate j (.notifyOne plainCaller none) ++ [.enter plainCaller info] }, []) := rfl
    have hroom : ¬ (filling K interval info j).shared.Full := by
      simp [LightLogWrite.Full, filling]
      omega
    have henter : threads.step { filling K interval info j with
          calls := List.replicate j (.notifyOne plainCaller none) ++ [.enter plainCaller info] }
            (.call j none) =
        some (filling K interval info (j + 1), [.pushed plainCaller info]) := by
      have hget : (List.replicate j (CallPc.notifyOne plainCaller none) ++ [.enter plainCaller info])[j]? =
          some (.enter plainCaller info) := by simp
      simp only [threads, step, hget, Option.bind_some, callStep]
      rw [if_neg (by simp [filling]), LightLogWrite.enter, if_neg hroom]
      simp only [Option.map_some, moveAt_last _ _ _ (List.length_replicate (n := j))]
      simp [filling, LightLogWrite.push, List.replicate_succ']
    refine ⟨es ++ ([] ++ ([.pushed plainCaller info] ++ [])), ?_⟩
    exact Machine.run_append hes (Machine.run_cons hwrite (Machine.run_cons henter rfl))

theorem run_starve (K interval : UInt64) (info : LightLogWriteInfo) (j : ℕ) :
    ∃ es, threads.run (starving K interval info j) (starve j) = some (starving K interval info 0, es) := by
  induction j with
  | zero => exact ⟨[], rfl⟩
  | succ j ih =>
    obtain ⟨es, hes⟩ := ih
    have hnotify : threads.step (starving K interval info (j + 1)) (.call 0 (some (.call (j + 1)))) =
        some ({ starving K interval info j with
          calls := List.replicate j (.notifyOne plainCaller none) ++ [.enter plainCaller info] }, []) := by
      simp only [threads, step, starving, List.replicate_succ, List.cons_append, List.getElem?_cons_zero,
        Option.bind_some, callStep]
      have hsleeper : (CallPc.notifyOne plainCaller none ::
          (List.replicate j (CallPc.notifyOne plainCaller none) ++ [.asleep plainCaller info]))[j + 1]? =
          some (.asleep plainCaller info) := by simp
      have hwoken : (CallPc.notifyOne plainCaller none ::
          (List.replicate j (CallPc.notifyOne plainCaller none) ++ [.asleep plainCaller info])).modify
            (j + 1)
            CallPc.wake =
          CallPc.notifyOne plainCaller none ::
            (List.replicate j (CallPc.notifyOne plainCaller none) ++ [.enter plainCaller info]) := by
        rw [List.modify_succ_cons, modify_last _ _ _ List.length_replicate, CallPc.wake]
      simp only [notifyOne, sleeps, hsleeper, Option.any_some, CallPc.isAsleep, if_true, wake, hwoken]
      rfl
    have henter : threads.step { starving K interval info j with
          calls := List.replicate j (.notifyOne plainCaller none) ++ [.enter plainCaller info] }
            (.call j none) =
        some (starving K interval info j, []) := by
      have hget : (List.replicate j (CallPc.notifyOne plainCaller none) ++ [.enter plainCaller info])[j]? =
          some (.enter plainCaller info) := by simp
      have hfull : (starving K interval info j).shared.Full := by simp [LightLogWrite.Full, starving]
      simp only [threads, step, hget, Option.bind_some, callStep]
      rw [if_neg (by simp [starving]), LightLogWrite.enter, if_pos hfull]
      simp only [starving, Option.map_some, moveAt_last _ _ _ (List.length_replicate (n := j))]
    exact ⟨_, Machine.run_cons hnotify (Machine.run_cons henter hes)⟩

/-- With one call more than the queue has places: a full queue, a caller that sleeps, a writer that
sleeps. -/
theorem crowded_still (K interval : UInt64) (info : LightLogWriteInfo) :
    ∃ as s es, as.countP Act.isWrite = K.toNat + 1 ∧ .destroy ∉ as ∧
      threads.run (create K .block interval) as = some (s, es) ∧ s.Still ∧ s.calls ≠ [] := by
  obtain ⟨es₁, hfill⟩ := run_fill K interval info (Nat.le_refl K.toNat)
  obtain ⟨es₂, hstarve⟩ := run_starve K interval info K.toNat
  have hsleep : threads.run (create K .block interval) [.writer none, .writer none] =
      some (filling K interval info 0, []) := rfl
  have hlast : threads.run (filling K interval info K.toNat) [.write info, .call K.toNat none] =
      some (starving K interval info K.toNat, []) := by
    have hwrite : threads.step (filling K interval info K.toNat) (.write info) =
        some ({ filling K interval info K.toNat with
          calls := List.replicate K.toNat (.notifyOne plainCaller none) ++ [.enter plainCaller info] },
            []) := rfl
    have hget : (List.replicate K.toNat (CallPc.notifyOne plainCaller none) ++
        [.enter plainCaller info])[K.toNat]? = some (.enter plainCaller info) := by simp
    have hfull : (filling K interval info K.toNat).shared.Full := by simp [LightLogWrite.Full, filling]
    have henter : threads.step { filling K interval info K.toNat with
          calls := List.replicate K.toNat (.notifyOne plainCaller none) ++ [.enter plainCaller info] }
          (.call K.toNat none) = some (starving K interval info K.toNat, []) := by
      simp only [threads, step, hget, Option.bind_some, callStep]
      rw [if_neg (by simp [filling]), LightLogWrite.enter, if_pos hfull]
      simp only [filling, starving, Option.map_some, moveAt_last _ _ _ List.length_replicate]
    exact Machine.run_cons hwrite (Machine.run_cons henter rfl)
  refine ⟨_, starving K interval info 0, _, ?_, ?_,
    Machine.run_append hsleep (Machine.run_append hfill (Machine.run_append hlast hstarve)), ?_, ?_⟩
  · simp [List.countP_append, List.countP_cons, fill_acts, starve_acts, Act.isWrite]
  · simp [fill_acts, starve_acts]
  · intro a hthread
    cases a with
    | call i woken => cases i <;> rfl
    | writer woken => rfl
    | _ => exact absurd hthread (by simp [Act.isThread])
  · simp [starving]

/-- **As many as there are places** — with `Block`, all calls return in every schedule of at most `n`
calls at a time if and only if the queue has places for `n`. -/
theorem waits_end_iff {K : UInt64} (hmax : 0 < K.toNat) (interval : UInt64) (n : ℕ) :
    (∀ as s es, threads.Along (fun s a => s.calls.length ≤ n ∧ s.Heeded a) (create K .block interval) as →
      threads.run (create K .block interval) as = some (s, es) → s.Still → s.calls = []) ↔ n ≤ K.toNat := by
  refine ⟨?_, ?_⟩
  · intro hall
    by_contra hmore
    obtain ⟨as, s, es, hwrites, hdestroy, hrun, hstill, hcalls⟩ := crowded_still K interval stopMessage
    have halong := @along_few (create K .block interval) n as (lifetime_create K .block interval) rfl
      (by rw [hwrites]; simp [create]; omega) hdestroy
    exact hcalls (hall as s es halong hrun hstill)
  · intro hn as s es halong hrun hstill
    have hsame : threads.Along (fun s _ => s.shared.kMaxQueueSize = K) (create K .block interval) as := by
      refine halong.holds (I := fun s => s.shared.kMaxQueueSize = K) ?_ rfl
      exact fun s a t new hK _ hstep => (step_cases hstep).config.1.trans hK
    have hcond : threads.Along (fun s a => s.NotCrowded ∧ s.Heeded a) (create K .block interval) as := by
      refine (halong.and hsame).mono ?_
      intro s a ⟨⟨hfew, hheeded⟩, hK⟩
      exact ⟨fun _ => hfew.trans (hK ▸ hn), hheeded⟩
    exact (run_settled hmax hcond hrun hstill).calls

/-- Two callers and a queue of one place. -/
theorem waits_end_iff_one : ¬ ∀ as s es, threads.Along (fun s a => s.calls.length ≤ 2 ∧ s.Heeded a)
      (create 1 .block 100) as → threads.run (create 1 .block 100) as = some (s, es) → s.Still →
        s.calls = [] := by
  rw [waits_end_iff (by decide)]
  decide

end Crowd

/-! ### The end -/

/-- The destructor waits for a writer that sleeps, or is about to. -/
structure Hung (s : LogSystem) : Prop where
  destroyed : s.destroyed = true
  calls : s.calls = [.join]
  queue : s.shared.pLogWriteQueue = []
  writer : s.writer.resting = true

section End

variable {s t : LogSystem}

theorem Hung.step {a : Act} {new : List Event} (h : Hung s) (hspurious : a.isSpurious = false)
    (hstep : s.Step a t new) : Hung t := by
  have hjoin : ∀ pc ∈ s.calls, pc = .join := by
    rw [h.calls]
    simp
  cases hstep with
  | write info halive => exact absurd (halive.symm.trans h.destroyed) (by decide)
  | destroy halive hnone => exact absurd (halive.symm.trans h.destroyed) (by decide)
  | sleep hcalls | push hcalls | overflow hcalls | stop hcalls =>
    exact absurd (hjoin _ (hcalls ▸ List.mem_append_right _ List.mem_cons_self)) (by simp)
  | notify hwoken hfrom => exact absurd (hjoin _ hfrom) (by simp)
  | notifyAll hfrom => exact absurd (hjoin _ (List.mem_of_getElem? hfrom)) (by simp)
  | join hcalls hexited =>
    have hrest := h.writer
    rw [hexited] at hrest
    exact absurd hrest (by decide)
  | rest hwriter => exact ⟨h.destroyed, h.calls, h.queue, rfl⟩
  | wakeUp => exact absurd hspurious (by simp [Act.isSpurious])
  | openFile ok hlock => exact ⟨h.destroyed, h.calls, h.queue, h.writer⟩
  | resetDiscardCount => exact ⟨h.destroyed, h.calls, h.queue, h.writer⟩
  | take hwriter | drained hwriter | empty hwriter | output hwriter | close hwriter =>
    have hrest := h.writer
    rw [hwriter] at hrest
    exact absurd hrest (by simp [WriterPc.resting])

/-- A `notify_all` that comes between the writer's test and its sleep wakes nobody, and the writer then
sleeps. -/
theorem hung_of_unheeded {a : Act} {new : List Event} (hlife : Lifetime s) (h : Attentive s)
    (ha : ¬ s.Heeded a)
    (hstep : s.step a = some (t, new)) : Hung t := by
  cases a with
  | call i woken =>
    simp only [Heeded, Classical.not_imp, not_not] at ha
    obtain ⟨hall, hrelease⟩ := ha
    obtain ⟨hdead, honly, -⟩ := hlife.only (List.mem_of_getElem? hall) rfl
    rw [step, hall, Option.bind_some] at hstep
    obtain ⟨rfl, -⟩ := Prod.mk.inj (Option.some.inj hstep)
    have hi : i = 0 := by
      rw [honly] at hall
      cases i with
      | zero => rfl
      | succ i => simp at hall
    refine ⟨hdead, ?_, h.released hrelease, ?_⟩
    · simp [notifyAll, honly, hi, moveAt]
    · simp only [notifyAll, hrelease]
      rfl
  | _ => exact absurd trivial ha

/-- **Whether the destructor returns** — in a run of not too many calls, without wake-ups for no reason,
that has come to rest after the destructor was called: the destructor has returned if and only if its
`notify_all` never came between the writer's test and its sleep.  If it did, the destructor waits for a
writer that sleeps in front of an empty queue. -/
theorem destructor_returns_iff {K : UInt64} {strategy : LogQueueOverflowStrategy} {interval : UInt64}
    {as : List Act} {es : List Event} (hmax : 0 < K.toNat)
    (hcond : threads.Along (fun s a => s.NotCrowded ∧ a.isSpurious = false) (create K strategy interval) as)
    (hrun : threads.run (create K strategy interval) as = some (s, es)) (hstill : s.Still)
    (hdestroyed : s.destroyed = true) :
    (threads.Along Heeded (create K strategy interval) as ↔ s.calls = [] ∧ s.writer = .exited) ∧
      (¬ threads.Along Heeded (create K strategy interval) as ↔ s.calls = [.join] ∧
        s.writer = .asleep) := by
  have hsplit := hcond.split (P := Heeded) (I := fun s => Lifetime s ∧ Attentive s) (J := Hung)
    (fun s a t new h hq hp hs => ⟨h.1.step (step_cases hs), h.2.step hq.1 hp (step_cases hs)⟩)
    (fun s a t new h hq hp hs => hung_of_unheeded h.1 h.2 hp hs)
    (fun s a t new h hq hs => h.step hq.2 (step_cases hs))
    ⟨lifetime_create K strategy interval, attentive_create K strategy interval⟩ hrun
  rcases hsplit with ⟨halong, hlife, hattentive⟩ | ⟨hbroken, hhung⟩
  · have hsettled := hstill.settled (by rw [(run_config hrun).1]; exact hmax) hlife hattentive
    have hexited : s.writer = .exited := by
      rcases hsettled.writer with ⟨halive, -⟩ | ⟨-, hexited⟩
      · exact absurd (halive.symm.trans hdestroyed) (by decide)
      · exact hexited
    refine ⟨iff_of_true halong ⟨hsettled.calls, hexited⟩, iff_of_false (not_not_intro halong) ?_⟩
    rintro ⟨-, hasleep⟩
    exact absurd (hexited.symm.trans hasleep) (by decide)
  · have hasleep : s.writer = .asleep := by
      rcases hstill.writer with hasleep | hexited
      · exact hasleep
      · have hrest := hhung.writer
        rw [hexited] at hrest
        exact absurd hrest (by decide)
    refine ⟨iff_of_false hbroken ?_, iff_of_true hbroken ⟨hhung.calls, hasleep⟩⟩
    rintro ⟨-, hexited⟩
    exact absurd (hasleep.symm.trans hexited) (by decide)

/-- Construct, destroy: the writer outputs the last log and finds the queue empty; the destructor stores
the flag and notifies; the writer goes to sleep. -/
def hanging : List Act :=
  [.destroy, .call 0 none, .call 0 none, .writer none, .writer none, .writer none, .call 0 none,
    .call 0 none,
    .writer none]

theorem destructor_returns_iff_hung : ¬ threads.Along Heeded (create 500000 .block 100) hanging := by
  have hrun : (threads.run (create 500000 .block 100) hanging).map
      (fun r => (r.1.writer, r.1.calls, r.1.destroyed)) = some (.asleep, [.join], true) := rfl
  obtain ⟨⟨s, es⟩, hs, hvalues⟩ := Option.map_eq_some_iff.mp hrun
  simp only [Prod.mk.injEq] at hvalues
  obtain ⟨hwriter, hcalls, hdestroyed⟩ := hvalues
  have hstill : s.Still := by
    intro a hthread
    cases a with
    | call i woken =>
      cases i with
      | zero => simp [step, callStep, hcalls, hwriter]
      | succ i => simp [step, hcalls]
    | writer woken => simp [step, runWriteThread, hwriter]
    | _ => exact absurd hthread (by simp [Act.isThread])
  exact (destructor_returns_iff (by decide) (by decide) hs hstill hdestroyed).2.mpr ⟨hcalls, hwriter⟩

end End

end LogSystem

end LuspUpload.Log
