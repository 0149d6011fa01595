import LuspUpload.Upload.OneProducer
import LuspUpload.Upload.Pushed

/-!
# Upload.Forward — the UI thread and the notification loop on the queue they share

`Upload.Service` with `ThreadSafeRowLockQueue` in place of its atomic queue: the UI thread goes through the
steps of `push`, `stop` through those of `notifyAll` and the loop through those of `waitAndPop`.  While nobody
stops the loop, every schedule comes to rest (`run_bounded`, `Going.atRest_or_moves`), and at rest what was
handed over are the named records up to the first nameless one, less those that the loop sleeps over
(`run_adds_up`).
-/

namespace LuspUpload.Upload

open Lib

/-- The three threads; `calls` are the calls of `push` to come, the first one in progress. -/
structure NotificationService where
  calls : List (List Element)
  uploadQueue : ThreadSafeRowLockQueue SyncUploadFileInfo
  shouldStop : Bool
  loop : LoopPc
  stop : StopPc

namespace NotificationService

/-- Who moves; `spuriousWake` wakes the loop for no reason. -/
inductive Move where
  | ui
  | loop
  | stop
  | spuriousWake
  deriving DecidableEq, Repr

/-- The next step of the call of `ThreadSafeRowLockQueue::push` in progress; or the next element of
`pushFiles`, or the return from it. -/
def uiStep (env : Env) (s : NotificationService) : Option NotificationService :=
  if s.uploadQueue.pushes = [] then
    match s.calls with
    | [] => none
    | [] :: calls => some { s with calls := calls }
    | (e :: es) :: calls =>
      match pushFile env e with
      | none => some { s with calls := calls }
      | some info => (s.uploadQueue.step (.push info)).map fun r =>
          { s with calls := es :: calls, uploadQueue := r.1 }
  else (s.uploadQueue.step (.pushStep 0)).map fun r => { s with uploadQueue := r.1 }

/-- Where the loop is when a step of `waitAndPop` has been made. -/
def popped (s : NotificationService) : List (ThreadSafeRowLockQueue.Event SyncUploadFileInfo) → LoopPc
  | .popped info :: _ => .popped info
  -- `waitAndPop` returns false
  | .gaveUp :: _ => if s.shouldStop then .exited else .testStop
  | _ => .waitAndPop

/-- One step of `notificationLoop`, with the records handed to `socketSendFunc`. -/
def loopStep (s : NotificationService) : Option (NotificationService × List SyncUploadFileInfo) :=
  match s.loop with
  | .testStop =>
    if s.shouldStop then some ({ s with loop := .exited }, [])
    else (s.uploadQueue.step .waitAndPop).map fun r =>
      ({ s with uploadQueue := r.1, loop := .waitAndPop }, [])
  | .waitAndPop => (s.uploadQueue.step .consumerStep).map fun r =>
      ({ s with uploadQueue := r.1, loop := s.popped r.2 }, [])
  | .popped info =>
    if s.shouldStop then some ({ s with loop := .exited }, [])
    -- a record without a name is taken for the sentinel
    else if info.sFileFullNameValue = [] then some ({ s with loop := .exited }, [])
    else some ({ s with loop := .send info }, [])
  | .send info => some ({ s with loop := .testStop }, [info])
  | .exited => none

/-- One step of `stop`. -/
def stopStep (s : NotificationService) : Option NotificationService :=
  match s.stop with
  | .notCalled => (s.uploadQueue.step .notifyAll).map fun r =>
      { s with shouldStop := true, uploadQueue := r.1, stop := .notifyAll }
  | .notifyAll => (s.uploadQueue.step (.notifyStep 0)).map fun r =>
      { s with uploadQueue := r.1, stop := if r.1.notifiers = [] then .returned else .notifyAll }
  | .returned => none

/-- One step of a schedule; `none` when the thread that is to move cannot. -/
def step (env : Env) (s : NotificationService) : Move → Option (NotificationService × List SyncUploadFileInfo)
  | .ui => (s.uiStep env).map (·, [])
  | .loop => s.loopStep
  | .stop => s.stopStep.map (·, [])
  | .spuriousWake => (s.uploadQueue.step .spuriousWake).map fun r => ({ s with uploadQueue := r.1 }, [])

/-- The threads under a schedule; the events are the records handed to `socketSendFunc`. -/
def threads (env : Env) : Machine NotificationService Move SyncUploadFileInfo := ⟨step env⟩

/-- A running service before the calls `calls`. -/
def start (calls : List (List Element)) : NotificationService := ⟨calls, .empty, false, .testStop, .notCalled⟩

/-- All calls of `push` have returned, and the loop has left or sleeps. -/
def AtRest (s : NotificationService) : Prop :=
  s.calls = [] ∧ s.uploadQueue.pushes = [] ∧ (s.loop = .exited ∨ s.uploadQueue.consumer = .asleep)

/-- The notification of the last record to be queued does not come between the loop's false test and its sleep
while a named record is the next to be taken. -/
def LastHeard (env : Env) (s : NotificationService) (m : Move) : Prop :=
  m = .ui → s.uploadQueue.Notifies (.pushStep 0) → s.uploadQueue.Unaware →
    queuedInfos env s.calls = [] → handed s.uploadQueue.dataQueue = []

instance (env : Env) (s : NotificationService) (m : Move) : Decidable (LastHeard env s m) :=
  inferInstanceAs (Decidable (m = .ui → s.uploadQueue.pushes[0]?.map Prod.fst = some .notifyOne →
    s.uploadQueue.consumer = .sleep → queuedInfos env s.calls = [] → handed s.uploadQueue.dataQueue = []))

/-! ### What every run keeps -/

/-- What is still to be handed over if nothing stops the loop and it does not sleep over it. -/
def remaining (env : Env) (s : NotificationService) : List SyncUploadFileInfo :=
  let behind := s.uploadQueue.inside ++ queuedInfos env s.calls
  match s.loop with
  | .testStop => handed behind
  | .waitAndPop => handed behind
  | .popped info => handed (info :: behind)
  | .send info => info :: handed behind
  | .exited => []

/-- The steps of the loop that are left outside `waitAndPop`. -/
def loopWeight : LoopPc → ℕ
  | .testStop => 4
  | .waitAndPop => 0
  | .popped _ => 6
  | .send _ => 5
  | .exited => 0

/-- An upper bound on the steps that are left. -/
def weight (s : NotificationService) : ℕ :=
  (s.calls.map fun call => 20 * call.length + 1).sum + s.uploadQueue.weight + loopWeight s.loop

/-- What every run keeps while nobody stops the loop. -/
structure Going (env : Env) (s : NotificationService) : Prop where
  queue : s.uploadQueue.Steady
  shouldStop : s.shouldStop = false
  inside : s.uploadQueue.consumer = .idle ↔ s.loop ≠ .waitAndPop
  converts : ∀ e ∈ s.calls.flatten, env.Converts e.path

/-- If the loop waits over a named record, then another one will be queued or a producer is on the way. -/
def Told (env : Env) (s : NotificationService) : Prop :=
  ThreadSafeRowLockQueue.Waits s.uploadQueue.consumer →
    s.uploadQueue.pushes = [] → queuedInfos env s.calls = [] → handed s.uploadQueue.dataQueue = []

/-- The loop waits over a named record, and nobody is on the way. -/
structure Asleep (env : Env) (s : NotificationService) : Prop where
  waits : ThreadSafeRowLockQueue.Waits s.uploadQueue.consumer
  pushes : s.uploadQueue.pushes = []
  calls : queuedInfos env s.calls = []
  named : handed s.uploadQueue.dataQueue ≠ []

/-- What one step of the UI thread or the loop, or a spurious wake-up, does. -/
structure Goes (env : Env) (s : NotificationService) (m : Move) (s' : NotificationService)
    (es : List SyncUploadFileInfo) : Prop where
  going : Going env s'
  remaining : es ++ s'.remaining env = s.remaining env
  weight : m ≠ .spuriousWake → s'.weight < s.weight
  wakes : m = .spuriousWake → s'.weight ≤ s.weight + 3
  told : LastHeard env s m → Told env s → Told env s'

section Steps

variable {env : Env} {s s' : NotificationService} {es : List SyncUploadFileInfo}

/-- A step of the UI thread moves records from the calls into the queue. -/
theorem Going.ui (h : Going env s) (hs : s.uiStep env = some s') : Goes env s .ui s' [] := by
  unfold uiStep at hs
  split_ifs at hs with hpushes
  · rcases hcalls : s.calls with _ | ⟨_ | ⟨e, call⟩, calls⟩
    · simp [hcalls] at hs
    · -- `push` returns
      simp only [hcalls] at hs
      cases hs
      refine ⟨⟨h.queue, h.shouldStop, h.inside, ?_⟩, ?_, ?_, nofun, ?_⟩
      · simpa [hcalls] using h.converts
      · simp only [remaining, hcalls, queuedInfos_returned, List.nil_append]
      · intro _
        simp [weight, hcalls]
      · intro _ htold
        simpa only [Told, hcalls, queuedInfos_returned] using htold
    · have hconverts := h.converts
      rw [hcalls, List.flatten_cons, List.cons_append] at hconverts
      obtain ⟨henv, hconverts⟩ := List.forall_mem_cons.mp hconverts
      simp only [hcalls] at hs
      rcases hpush : pushFile env e with _ | info
      · -- the exception leaves the whole call
        rw [hpush] at hs
        cases hs
        refine ⟨⟨h.queue, h.shouldStop, h.inside, ?_⟩, ?_, ?_, nofun, ?_⟩
        · exact fun e he => hconverts e (List.mem_append_right _ he)
        · simp only [remaining, hcalls, queuedInfos_throws henv hpush, List.nil_append]
        · intro _
          simp only [weight, hcalls, List.map_cons, List.sum_cons, List.length_cons]
          omega
        · intro _ htold
          simpa only [Told, hcalls, queuedInfos_throws henv hpush] using htold
      · rw [hpush] at hs
        obtain ⟨⟨q, _⟩, hq, rfl⟩ := Option.map_eq_some_iff.mp hs
        obtain ⟨rfl, -⟩ := Prod.mk.inj (Option.some.inj hq)
        refine ⟨⟨h.queue.push hpushes, h.shouldStop, h.inside, hconverts⟩, ?_, ?_, nofun, ?_⟩
        · simp only [remaining, hcalls, queuedInfos_pushed henv hpush,
            ThreadSafeRowLockQueue.inside_push, List.append_assoc, List.singleton_append,
            List.nil_append]
        · intro _
          simp only [weight, hcalls, ThreadSafeRowLockQueue.weight_push, List.map_cons, List.sum_cons,
            List.length_cons]
          omega
        · intro _ _ _ hnil
          exact absurd hnil (by simp)
  · obtain ⟨⟨q, _⟩, hq, rfl⟩ := Option.map_eq_some_iff.mp hs
    obtain ⟨hsteady, hinside, hweight, hidle, hreturns⟩ := h.queue.pushStep hq
    refine ⟨⟨hsteady, h.shouldStop, hidle.trans h.inside, h.converts⟩, ?_, ?_, nofun, ?_⟩
    · simp only [remaining, hinside, List.nil_append]
    · intro _
      simp only [weight]
      omega
    · intro hheard _ hwaits hnil hlast
      -- the call has returned, so this was its notification
      obtain ⟨hnotifies, hqueue, hwoken⟩ := hreturns hnil
      show handed q.dataQueue = []
      rw [hqueue]
      replace hwaits : ThreadSafeRowLockQueue.Waits q.consumer := hwaits
      rw [hwoken] at hwaits
      exact hheard rfl hnotifies (ThreadSafeRowLockQueue.waits_wake hwaits) hlast

/-- The loop moves outside `waitAndPop`. -/
theorem Going.outside (h : Going env s) {pc : LoopPc} (hloop : s.loop ≠ .waitAndPop) (hpc : pc ≠ .waitAndPop)
    (hremaining : es ++ remaining env { s with loop := pc } = s.remaining env)
    (hweight : loopWeight pc < loopWeight s.loop) : Goes env s .loop { s with loop := pc } es where
  going := ⟨h.queue, h.shouldStop,
    ⟨fun _ => hpc, fun _ => h.inside.mpr hloop⟩, h.converts⟩
  remaining := hremaining
  weight _ := by
    simp only [weight]
    omega
  wakes := nofun
  told _ htold := htold

/-- A step of the loop hands over the first of what remains, or nothing. -/
theorem Going.loop (h : Going env s) (hs : s.loopStep = some (s', es)) : Goes env s .loop s' es := by
  have hgo : ¬ s.shouldStop = true := by simp [h.shouldStop]
  unfold loopStep at hs
  rcases hloop : s.loop with _ | _ | info | info | _
  · simp only [hloop, if_neg hgo] at hs
    obtain ⟨⟨q, _⟩, hq, heq⟩ := Option.map_eq_some_iff.mp hs
    obtain ⟨rfl, rfl⟩ := Prod.mk.inj heq
    obtain ⟨hsteady, hinside, hweight, -, hlock⟩ := h.queue.waitAndPop hq
    refine ⟨⟨hsteady, h.shouldStop, ?_, h.converts⟩, ?_, ?_, nofun, ?_⟩
    · simp [hlock]
    · simp only [remaining, hloop, hinside, List.nil_append]
    · intro _
      simp only [weight, hloop, hweight, loopWeight]
      omega
    · intro _ _ hwaits
      replace hwaits : ThreadSafeRowLockQueue.Waits q.consumer := hwaits
      rw [hlock] at hwaits
      exact hwaits.elim
  · simp only [hloop] at hs
    obtain ⟨⟨q, es'⟩, hq, heq⟩ := Option.map_eq_some_iff.mp hs
    obtain ⟨rfl, rfl⟩ := Prod.mk.inj heq
    obtain ⟨hsteady, hpushes, hweight, hgoes, hwaits⟩ := h.queue.consumerStep hq
    have htold : Told env s → Told env { s with uploadQueue := q, loop := s.popped es' } := by
      intro htold hw hnil hlast
      obtain ⟨hqueue, hwhy⟩ := hwaits hw
      show handed q.dataQueue = []
      replace hnil : q.pushes = [] := hnil
      rw [hpushes] at hnil
      rw [hqueue]
      rcases hwhy with hw | hpushes' | hempty
      · exact htold hw hnil hlast
      · exact absurd hnil hpushes'
      · rw [hempty]
        rfl
    rcases hgoes with ⟨rfl, hinside, hidle⟩ | ⟨info, rfl, hinside, hidle, hdone⟩
    · refine ⟨⟨hsteady, h.shouldStop, ?_, h.converts⟩, ?_, ?_, nofun, fun _ => htold⟩
      · simp [popped, hidle]
      · simp only [remaining, popped, hloop, hinside, List.nil_append]
      · intro _
        simp only [weight, popped, hloop]
        omega
    · refine ⟨⟨hsteady, h.shouldStop, ?_, h.converts⟩, ?_, ?_, nofun, fun _ => htold⟩
      · simp [popped, hidle]
      · simp only [remaining, popped, hloop, ← hinside, List.nil_append, List.cons_append]
      · intro _
        simp only [weight, popped, hloop, loopWeight]
        omega
  · by_cases hname : info.sFileFullNameValue = []
    · simp only [hloop, if_neg hgo, if_pos hname] at hs
      obtain ⟨rfl, rfl⟩ := Prod.mk.inj (Option.some.inj hs)
      refine h.outside (by simp [hloop]) nofun ?_ (by simp [hloop, loopWeight])
      simp [remaining, hloop, handed_cons, hname]
    · simp only [hloop, if_neg hgo, if_neg hname] at hs
      obtain ⟨rfl, rfl⟩ := Prod.mk.inj (Option.some.inj hs)
      refine h.outside (by simp [hloop]) nofun ?_ (by simp [hloop, loopWeight])
      simp [remaining, hloop, handed_cons, hname]
  · simp only [hloop] at hs
    obtain ⟨rfl, rfl⟩ := Prod.mk.inj (Option.some.inj hs)
    exact h.outside (by simp [hloop]) nofun (by simp [remaining, hloop]) (by simp [hloop, loopWeight])
  · simp [hloop] at hs

/-- Every step but one of `stop` keeps what has been and will be handed over. -/
theorem Going.goes {m : Move} (h : Going env s) (hm : m ≠ .stop) (hs : s.step env m = some (s', es)) :
    Goes env s m s' es := by
  cases m with
  | ui =>
    obtain ⟨s₁, hui, heq⟩ := Option.map_eq_some_iff.mp hs
    obtain ⟨rfl, rfl⟩ := Prod.mk.inj heq
    exact h.ui hui
  | loop => exact h.loop hs
  | stop => exact absurd rfl hm
  | spuriousWake =>
    obtain ⟨rfl, rfl⟩ := Prod.mk.inj (Option.some.inj hs)
    refine ⟨⟨h.queue.wake, h.shouldStop, ?_, h.converts⟩, ?_, (absurd rfl ·), ?_, ?_⟩
    · exact ThreadSafeRowLockQueue.wake_eq_idle_iff.trans h.inside
    · simp only [remaining, ThreadSafeRowLockQueue.inside, ThreadSafeRowLockQueue.held_wake,
        List.nil_append]
    · intro _
      have hwoken := ThreadSafeRowLockQueue.popWeight_wake_le s.uploadQueue.consumer
      simp only [weight, ThreadSafeRowLockQueue.weight, ThreadSafeRowLockQueue.claims_wake]
      omega
    · intro _ htold hwaits
      refine htold ?_
      rw [ThreadSafeRowLockQueue.waits_wake hwaits]
      trivial

/-- As long as the service is not at rest, the UI thread or the loop can move. -/
theorem Going.atRest_or_moves (h : Going env s) :
    s.AtRest ∨ ∃ m, (m = .ui ∨ m = .loop) ∧ ∃ r, s.step env m = some r := by
  by_cases hpushes : s.uploadQueue.pushes = []
  · by_cases hcalls : s.calls = []
    · rcases hloop : s.loop with _ | _ | info | info | _
      · refine Or.inr ⟨.loop, Or.inr rfl, ?_⟩
        have hidle : s.uploadQueue.consumer = .idle := h.inside.mpr (by simp [hloop])
        simp [step, loopStep, hloop, h.shouldStop, ThreadSafeRowLockQueue.step, hidle]
      · by_cases hasleep : s.uploadQueue.consumer = .asleep
        · exact Or.inl ⟨hcalls, hpushes, Or.inr hasleep⟩
        · have hidle : s.uploadQueue.consumer ≠ .idle := fun hp => h.inside.mp hp hloop
          obtain ⟨r, hr⟩ := h.queue.pop_moves hidle hasleep
          exact Or.inr ⟨.loop, Or.inr rfl, _, by simp only [step, loopStep, hloop, hr]; rfl⟩
      · refine Or.inr ⟨.loop, Or.inr rfl, ?_⟩
        simp only [step, loopStep, hloop]
        split_ifs <;> exact ⟨_, rfl⟩
      · exact Or.inr ⟨.loop, Or.inr rfl, _, by simp only [step, loopStep, hloop]; rfl⟩
      · exact Or.inl ⟨hcalls, hpushes, Or.inl hloop⟩
    · obtain ⟨call, calls, hc⟩ := List.exists_cons_of_ne_nil hcalls
      refine Or.inr ⟨.ui, Or.inl rfl, ?_⟩
      rcases call with _ | ⟨e, call⟩
      · simp [step, uiStep, hpushes, hc]
      · rcases hpush : pushFile env e with _ | info
        · simp [step, uiStep, hpushes, hc, hpush]
        · simp [step, uiStep, hpushes, hc, hpush, ThreadSafeRowLockQueue.step]
  · obtain ⟨r, hr⟩ := h.queue.push_moves hpushes
    exact Or.inr ⟨.ui, Or.inl rfl, _, by simp only [step, uiStep, if_neg hpushes, hr]; rfl⟩

/-- A loop that waits over a named record goes on waiting, as long as nobody wakes it for no reason. -/
theorem Asleep.step {m : Move} (ha : Asleep env s) (h : Going env s) (hstop : m ≠ .stop)
    (hwake : m ≠ .spuriousWake) (hs : s.step env m = some (s', es)) : Asleep env s' := by
  obtain ⟨hwaits, hpushes, hlast, hnamed⟩ := ha
  cases m with
  | ui =>
    obtain ⟨s₁, hui, heq⟩ := Option.map_eq_some_iff.mp hs
    obtain ⟨rfl, -⟩ := Prod.mk.inj heq
    simp only [uiStep, if_pos hpushes] at hui
    rcases hcalls : s.calls with _ | ⟨_ | ⟨e, call⟩, calls⟩
    · simp [hcalls] at hui
    · simp only [hcalls] at hui
      cases hui
      rw [hcalls, queuedInfos_returned] at hlast
      exact ⟨hwaits, hpushes, hlast, hnamed⟩
    · have henv : env.Converts e.path := h.converts e (by simp [hcalls])
      rcases hpush : pushFile env e with _ | info
      · simp only [hcalls, hpush] at hui
        cases hui
        rw [hcalls, queuedInfos_throws henv hpush] at hlast
        exact ⟨hwaits, hpushes, hlast, hnamed⟩
      · rw [hcalls, queuedInfos_pushed henv hpush] at hlast
        exact absurd hlast (List.cons_ne_nil _ _)
  | loop =>
    have hloop : s.loop = .waitAndPop := by
      by_contra hne
      rw [h.inside.mpr hne] at hwaits
      exact hwaits
    simp only [NotificationService.step, loopStep, hloop] at hs
    obtain ⟨⟨q, es'⟩, hq, heq⟩ := Option.map_eq_some_iff.mp hs
    obtain ⟨rfl, -⟩ := Prod.mk.inj heq
    replace hq : s.uploadQueue.waitAndPop = some (q, es') := hq
    cases hpc : s.uploadQueue.consumer with
    | sleep =>
      simp only [ThreadSafeRowLockQueue.waitAndPop, hpc] at hq
      obtain ⟨rfl, -⟩ := Prod.mk.inj (Option.some.inj hq)
      exact ⟨trivial, hpushes, hlast, hnamed⟩
    | asleep => simp [ThreadSafeRowLockQueue.waitAndPop, hpc] at hq
    | _ =>
      rw [hpc] at hwaits
      exact hwaits.elim
  | stop => exact absurd rfl hstop
  | spuriousWake => exact absurd rfl hwake

/-- The last notification comes too early, and the loop goes to sleep over a named record. -/
theorem Going.unheard {m : Move} (h : Going env s) (hm : ¬ LastHeard env s m)
    (hs : s.step env m = some (s', es)) : Asleep env s' := by
  simp only [LastHeard, Classical.not_imp] at hm
  obtain ⟨rfl, hnotifies, hunaware, hlast, hnamed⟩ := hm
  obtain ⟨item, hpushes⟩ : ∃ item, s.uploadQueue.pushes = [(.notifyOne, item)] := by
    have halone := h.queue.alone
    rcases hq : s.uploadQueue.pushes with _ | ⟨⟨pc, item⟩, _ | ⟨p', l⟩⟩
    · simp [ThreadSafeRowLockQueue.Notifies, hq] at hnotifies
    · obtain rfl : pc = .notifyOne := by simpa [ThreadSafeRowLockQueue.Notifies, hq] using hnotifies
      exact ⟨item, rfl⟩
    · simp [hq] at halone
  obtain ⟨s₁, hui, heq⟩ := Option.map_eq_some_iff.mp hs
  obtain ⟨rfl, -⟩ := Prod.mk.inj heq
  rw [uiStep, if_neg (by simp [hpushes]), ThreadSafeRowLockQueue.step_pushStep hpushes] at hui
  cases hui
  replace hunaware : s.uploadQueue.consumer = .sleep := hunaware
  refine ⟨?_, rfl, hlast, hnamed⟩
  simp [hunaware, ThreadSafeRowLockQueue.wake, ThreadSafeRowLockQueue.Waits]

/-- At rest the loop has left, or nothing remains but what it sleeps over. -/
theorem Going.atRest_remaining (h : Going env s) (hrest : s.AtRest) :
    s.uploadQueue.consumer = .idle ∧ s.remaining env = [] ∨
      ThreadSafeRowLockQueue.Waits s.uploadQueue.consumer ∧
        s.remaining env = handed s.uploadQueue.dataQueue := by
  obtain ⟨hcalls, hpushes, hloop | hasleep⟩ := hrest
  · exact Or.inl ⟨h.inside.mpr (by simp [hloop]), by simp [remaining, hloop]⟩
  · have hloop : s.loop = .waitAndPop := by
      by_contra hne
      rw [h.inside.mpr hne] at hasleep
      exact nomatch hasleep
    refine Or.inr ⟨by rw [hasleep]; trivial, ?_⟩
    simp [remaining, hloop, ThreadSafeRowLockQueue.inside, ThreadSafeRowLockQueue.held, hasleep, hpushes,
      hcalls]

end Steps

section Runs

/-- Nobody stops the loop in any step. -/
theorem along_running {env : Env} {ms : List Move} (hstop : Move.stop ∉ ms) (s : NotificationService) :
    (threads env).Along (fun _ m => m ≠ .stop) s ms :=
  Machine.along_of_forall (P := fun m : Move => m ≠ .stop) (fun _ hm h => hstop (h ▸ hm)) _

variable {env : Env} {calls : List (List Element)} (henv : ∀ e ∈ calls.flatten, env.Converts e.path)
  {ms : List Move} {s : NotificationService} {es : List SyncUploadFileInfo}
include henv

theorem going_start : Going env (start calls) where
  queue := ThreadSafeRowLockQueue.steady_empty
  shouldStop := rfl
  inside := by simp [start, ThreadSafeRowLockQueue.empty]
  converts := henv

/-- What has been and will be handed over are the records up to the first without a name. -/
theorem run_adds_up (hstop : Move.stop ∉ ms) (hrun : (threads env).run (start calls) ms = some (s, es)) :
    es ++ s.remaining env = handed (queuedInfos env calls) ∧ Going env s := by
  have halong := @along_running env ms hstop (start calls)
  refine @Machine.Along.invariant _ _ _ (threads env) _
    (fun s es => es ++ s.remaining env = handed (queuedInfos env calls) ∧ Going env s)
    ?_ _ _ [] _ _ halong ⟨rfl, going_start henv⟩ hrun
  rintro s₁ es₁ m s₂ es₂ ⟨hsent, hgoing⟩ hm hs
  have hgoes := hgoing.goes hm hs
  rw [List.append_assoc, hgoes.remaining]
  exact ⟨hsent, hgoes.going⟩

/-- Along notifications that are heard the loop does not wait over a named record. -/
theorem run_told (hstop : Move.stop ∉ ms) (hheard : (threads env).Along (LastHeard env) (start calls) ms)
    (hrun : (threads env).run (start calls) ms = some (s, es)) : Told env s := by
  have halong := @along_running env ms hstop (start calls)
  refine (@Machine.Along.invariant _ _ _ (threads env) _ (fun s _ => Going env s ∧ Told env s)
    ?_ _ _ [] _ _ (hheard.and halong) ⟨going_start henv, False.elim⟩ hrun).2
  rintro s₁ es₁ m s₂ es₂ ⟨hgoing, htold⟩ ⟨hm, hne⟩ hs
  have hgoes := hgoing.goes hne hs
  exact ⟨hgoes.going, hgoes.told hm htold⟩

/-- Along notifications that are heard everything has been handed over at rest. -/
theorem run_handed (hstop : Move.stop ∉ ms) (hheard : (threads env).Along (LastHeard env) (start calls) ms)
    (hrun : (threads env).run (start calls) ms = some (s, es)) (hrest : s.AtRest) :
    es = handed (queuedInfos env calls) := by
  obtain ⟨hsent, hgoing⟩ := run_adds_up henv hstop hrun
  have hnone : s.remaining env = [] := by
    rcases hgoing.atRest_remaining hrest with ⟨-, hnone⟩ | ⟨hwaits, hqueue⟩
    · exact hnone
    · rw [hqueue]
      refine run_told henv hstop hheard hrun hwaits hrest.2.1 ?_
      rw [hrest.1, queuedInfos_nil]
  rw [← hsent, hnone, List.append_nil]

/-- A run in which nobody wakes the loop for no reason and that has handed over everything heard its last
notification. -/
theorem run_heard (hstop : Move.stop ∉ ms) (hwake : Move.spuriousWake ∉ ms)
    (hrun : (threads env).run (start calls) ms = some (s, es)) (hrest : s.AtRest)
    (hall : es = handed (queuedInfos env calls)) : (threads env).Along (LastHeard env) (start calls) ms := by
  have halong : (threads env).Along (fun _ m => m ≠ .stop ∧ m ≠ .spuriousWake) (start calls) ms :=
    Machine.along_of_forall (P := fun m : Move => m ≠ .stop ∧ m ≠ .spuriousWake)
      (fun m hm => ⟨fun h => hstop (h ▸ hm), fun h => hwake (h ▸ hm)⟩) _
  have hsplit := @Machine.Along.split _ _ _ (threads env) (LastHeard env) _ (Going env)
    (fun s => Going env s ∧ Asleep env s) (fun _ _ _ _ hgoing hm _ hs => (hgoing.goes hm.1 hs).going)
    (fun _ _ _ _ hgoing hm hunheard hs => ⟨(hgoing.goes hm.1 hs).going, hgoing.unheard hunheard hs⟩)
    (fun _ _ _ _ hlost hm hs => ⟨(hlost.1.goes hm.1 hs).going, hlost.2.step hlost.1 hm.1 hm.2 hs⟩)
    _ _ _ _ halong (going_start henv) hrun
  rcases hsplit with ⟨hheard, -⟩ | ⟨-, hgoing, hwaits, -, -, hnamed⟩
  · exact hheard
  · -- it sleeps over what remains
    have hsent := (run_adds_up henv hstop hrun).1
    rw [← hall, List.append_right_eq_self] at hsent
    rcases hgoing.atRest_remaining hrest with ⟨hidle, -⟩ | ⟨-, hqueue⟩
    · rw [hidle] at hwaits
      exact hwaits.elim
    · exact absurd (hqueue.symm.trans hsent) hnamed

/-- The steps of the UI thread and the loop are bounded. -/
theorem run_bounded (hstop : Move.stop ∉ ms) (hrun : (threads env).run (start calls) ms = some (s, es)) :
    ms.countP (· ≠ .spuriousWake) ≤ (start calls).weight + 3 * ms.count .spuriousWake := by
  have halong := @along_running env ms hstop (start calls)
  have hle := @Machine.Along.countP_le _ _ _ (threads env) (fun _ m => m ≠ .stop) (Going env) weight
    (fun m => decide (m ≠ .spuriousWake)) 3 (fun _ _ _ _ hgoing hm hs => (hgoing.goes hm hs).going)
    (fun _ _ _ _ hgoing hm hs hp => (hgoing.goes hm hs).weight (by simpa using hp))
    (fun _ _ _ _ hgoing hm hs hp => (hgoing.goes hm hs).wakes (by simpa using hp)) _ _ _ _ halong
    (going_start henv) hrun
  have hcount : ms.countP (fun m => !decide (m ≠ .spuriousWake)) = ms.count .spuriousWake := by
    refine List.countP_congr fun m _ => ?_
    simp
  omega

end Runs

/-- **The pipeline**: as long as nobody stops the loop, the UI thread or the loop can move until both are at
rest, and they make no more steps than the pushed paths and the spurious wake-ups allow.  At rest the records
of the pushed files have been handed over, each once and in push order, if no file stands behind a directory in
its call or behind a missing path in the queue and the notification of the last record was heard; and only then,
unless a spurious wake-up makes up for the notification. -/
theorem forwards_iff {env : Env} {calls : List (List Element)}
    (henv : ∀ e ∈ calls.flatten, env.Converts e.path) {ms : List Move} (hstop : Move.stop ∉ ms)
    {s : NotificationService} {es : List SyncUploadFileInfo}
    (hrun : (threads env).run (start calls) ms = some (s, es)) :
    ms.countP (· ≠ .spuriousWake) ≤ (start calls).weight + 3 * ms.count .spuriousWake ∧
    (s.AtRest ∨ ∃ m, (m = .ui ∨ m = .loop) ∧ ∃ r, s.step env m = some r) ∧
    (s.AtRest →
      (NothingBehind calls ∧ (threads env).Along (LastHeard env) (start calls) ms → es = wanted env calls) ∧
      (es = wanted env calls → NothingBehind calls ∧
        (Move.spuriousWake ∉ ms → (threads env).Along (LastHeard env) (start calls) ms))) := by
  obtain ⟨hsent, hgoing⟩ := run_adds_up henv hstop hrun
  refine ⟨run_bounded henv hstop hrun, hgoing.atRest_or_moves, fun hrest => ⟨?_, ?_⟩⟩
  · rintro ⟨hbehind, hheard⟩
    rw [← (handed_eq_wanted_iff henv).mpr hbehind]
    exact run_handed henv hstop hheard hrun hrest
  · intro hall
    -- what was handed over is a part of the named records, and these of what is wanted
    have hprefix : es <+: handed (queuedInfos env calls) := ⟨_, hsent⟩
    have hhanded : handed (queuedInfos env calls) = wanted env calls :=
      (handed_sublist_wanted henv).antisymm (hall ▸ hprefix.sublist)
    refine ⟨(handed_eq_wanted_iff henv).mp hhanded, fun hwake => ?_⟩
    exact run_heard henv hstop hwake hrun hrest (hall.trans hhanded.symm)

/-- A batch of a file and a directory, then a single file, then a missing path. -/
def mixedCalls : List (List Element) := [[fileOf [97], directoryOf [100]], [fileOf [98]], [nothingAt [99]]]

/-- The loop sleeps, is woken by the first file, and gets to the others when all are queued. -/
def mixedMoves : List Move :=
  List.replicate 4 .loop ++ List.replicate 6 .ui ++ List.replicate 9 .loop ++ List.replicate 15 .ui ++
    List.replicate 19 .loop

/-- Both files arrive. -/
theorem forwards_iff_mixed : ∃ s es, (threads asciiEnv).run (start mixedCalls) mixedMoves = some (s, es) ∧
    s.AtRest ∧ es = wanted asciiEnv mixedCalls := by
  have hend : ((threads asciiEnv).run (start mixedCalls) mixedMoves).map
      (fun r => (r.1.calls, r.1.uploadQueue.pushes, r.1.loop)) = some ([], [], .exited) := by rfl
  obtain ⟨⟨s, es⟩, hrun, hq⟩ := Option.map_eq_some_iff.mp hend
  simp only [Prod.mk.injEq] at hq
  obtain ⟨hcalls, hpushes, hloop⟩ := hq
  have hrest : s.AtRest := ⟨hcalls, hpushes, Or.inl hloop⟩
  exact ⟨s, es, hrun, hrest, ((forwards_iff (fun e _ => asciiEnv_converts e.path) (by decide) hrun).2.2
    hrest).1 ⟨by decide, by decide +kernel⟩⟩

/-- The queue has a missing path before a file: the loop leaves at the first and the second stays. -/
theorem missing_path_ends_loop : ∃ s es, (threads asciiEnv).run (start [[nothingAt [99]], [fileOf [97]]])
      (List.replicate 14 .ui ++ List.replicate 9 .loop) = some (s, es) ∧ s.AtRest ∧ es = [] ∧
    es ≠ wanted asciiEnv [[nothingAt [99]], [fileOf [97]]] := by
  have hend : ((threads asciiEnv).run (start [[nothingAt [99]], [fileOf [97]]])
      (List.replicate 14 .ui ++ List.replicate 9 .loop)).map
        (fun r => (r.1.calls, r.1.uploadQueue.pushes, r.1.loop, r.2)) = some ([], [], .exited, []) := by rfl
  obtain ⟨⟨s, es⟩, hrun, hq⟩ := Option.map_eq_some_iff.mp hend
  simp only [Prod.mk.injEq] at hq
  obtain ⟨hcalls, hpushes, hloop, hnone⟩ := hq
  exact ⟨s, es, hrun, ⟨hcalls, hpushes, Or.inl hloop⟩, hnone, by rw [hnone]; decide⟩

/-- One file, pushed between the test and the sleep of the loop: it is not handed over. -/
example : ((threads asciiEnv).run (start [[fileOf [97]]])
    (List.replicate 3 .loop ++ List.replicate 7 .ui ++ [.loop])).map
      (fun r => (r.1.calls, r.1.uploadQueue.pushes, r.1.uploadQueue.consumer, r.2)) =
    some ([], [], .asleep, []) := by rfl

end NotificationService

end LuspUpload.Upload
