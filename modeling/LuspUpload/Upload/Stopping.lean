import LuspUpload.Upload.Service
import Mathlib.Algebra.Order.Ring.Nat
import Mathlib.Data.List.Count

/-!
# Upload.Stopping — what `stop` leaves behind

`notificationLoop` tests `shouldStop` before `waitAndPop` and again after it.  The second test is meant
for a consumer that `notifyAll` has woken, but it also comes after a pop that succeeded, and the record is
dropped with the loop.  The events of `Upload.Service` are the records handed to `socketSendFunc`; here
the records that enter the queue are events too (`run_passages` : the runs are the same).
-/

namespace LuspUpload.Upload

open Lib

/-- A record enters the queue, or is handed to `socketSendFunc`. -/
inductive Passage where
  | pushed (info : SyncUploadFileInfo)
  | sent (info : SyncUploadFileInfo)
  deriving DecidableEq, Repr

/-- The records that have entered the queue. -/
def pushedInfos (h : List Passage) : List SyncUploadFileInfo :=
  h.filterMap fun
    | .pushed info => some info
    | .sent _ => none

/-- The records that were handed over. -/
def sentInfos (h : List Passage) : List SyncUploadFileInfo :=
  h.filterMap fun
    | .pushed _ => none
    | .sent info => some info

/-- The record has a file name. -/
def named (info : SyncUploadFileInfo) : Bool := info.sFileFullNameValue ≠ []

namespace Service

/-- The service under a schedule, with both kinds of events. -/
def passages (env : Env) : Machine Service Turn Passage :=
  ⟨fun s t => (step env s t).map fun r =>
    (r.1, (r.1.queue.drop s.queue.length).map .pushed ++ r.2.map .sent)⟩

/-- Every named record that was pushed has been handed over or is still in the queue. -/
def Lossless (s : Service) (h : List Passage) : Prop :=
  ∀ info, named info = true →
    (pushedInfos h).count info ≤ (sentInfos h).count info + s.queue.count info

/-- The test behind `waitAndPop` does not find a stop while the loop holds a named record. -/
def Spares (s : Service) (t : Turn) : Prop :=
  t = .loop → ∀ info, s.loop = .popped info → named info = true → s.shouldStop = false

instance (s : Service) (t : Turn) : Decidable (s.Spares t) :=
  match hloop : s.loop with
  | .popped info =>
    decidable_of_iff (t = .loop → named info = true → s.shouldStop = false) (by simp [Spares, hloop])
  | .testStop => .isTrue (by simp [Spares, hloop])
  | .waitAndPop => .isTrue (by simp [Spares, hloop])
  | .send _ => .isTrue (by simp [Spares, hloop])
  | .exited => .isTrue (by simp [Spares, hloop])

/-- The named record that the loop holds. -/
def inHand : LoopPc → List SyncUploadFileInfo
  | .popped info => [info].filter named
  | .send info => [info]
  | _ => []

/-- The named records that were pushed are those handed over, the one in the loop's hand and those in the
queue, in this order. -/
def Kept (s : Service) (h : List Passage) : Prop :=
  (pushedInfos h).filter named = sentInfos h ++ inHand s.loop ++ s.queue.filter named

/-- The loop has left, and a named record is nowhere. -/
def Lost (s : Service) (h : List Passage) : Prop :=
  s.loop = .exited ∧ ∃ info, named info = true ∧
    (sentInfos h).count info + s.queue.count info < (pushedInfos h).count info

section Steps

variable {env : Env} {s s' : Service} {h : List Passage} {es : List SyncUploadFileInfo}
  {infos : List SyncUploadFileInfo}

@[simp] theorem pushedInfos_append (h h' : List Passage) :
    pushedInfos (h ++ h') = pushedInfos h ++ pushedInfos h' := List.filterMap_append

@[simp] theorem sentInfos_append (h h' : List Passage) :
    sentInfos (h ++ h') = sentInfos h ++ sentInfos h' := List.filterMap_append

@[simp] theorem pushedInfos_pushed : pushedInfos (infos.map .pushed) = infos := by
  simp [pushedInfos, List.filterMap_map]

@[simp] theorem pushedInfos_sent : pushedInfos (infos.map .sent) = [] := by
  simp [pushedInfos, List.filterMap_map]

@[simp] theorem sentInfos_pushed : sentInfos (infos.map .pushed) = [] := by
  simp [sentInfos, List.filterMap_map]

@[simp] theorem sentInfos_sent : sentInfos (infos.map .sent) = infos := by
  simp [sentInfos, List.filterMap_map]

/-- The UI thread only appends to the queue. -/
theorem uiStep_queue (hs : s.uiStep env = some s') :
    ∃ new, s'.queue = s.queue ++ new ∧ s'.loop = s.loop := by
  unfold uiStep at hs
  rcases hcalls : s.calls with _ | ⟨_ | ⟨e, call⟩, calls⟩
  · simp [hcalls] at hs
  · simp only [hcalls] at hs
    cases hs
    exact ⟨[], by simp, rfl⟩
  · simp only [hcalls] at hs
    rcases hpush : pushFile env e with _ | info
    · rw [hpush] at hs
      cases hs
      exact ⟨[], by simp, rfl⟩
    · rw [hpush] at hs
      cases hs
      exact ⟨[info], rfl, rfl⟩

theorem stopStep_queue (hs : s.stopStep = some s') : s'.queue = s.queue ∧ s'.loop = s.loop := by
  unfold stopStep at hs
  rcases hstop : s.stop with _ | _ | _
  · simp only [hstop] at hs
    cases hs
    exact ⟨rfl, rfl⟩
  · simp only [hstop] at hs
    cases hs
    exact ⟨rfl, rfl⟩
  · simp [hstop] at hs

/-- A step of the loop that does not drop a record. -/
theorem loopStep_kept (hs : s.loopStep = some (s', es))
    (hspares : ∀ info, s.loop = .popped info → named info = true → s.shouldStop = false) :
    es ++ inHand s'.loop ++ s'.queue.filter named = inHand s.loop ++ s.queue.filter named := by
  unfold loopStep at hs
  rcases hloop : s.loop with _ | _ | info | info | _
  · simp only [hloop] at hs
    cases hs
    by_cases hstop : s.shouldStop <;> simp [hstop, inHand]
  · rcases hqueue : s.queue with _ | ⟨info, queue⟩
    · simp only [hloop, hqueue] at hs
      split_ifs at hs with hstopping hstop
      · cases hs
        simp [inHand]
      · cases hs
        simp [inHand]
    · simp only [hloop, hqueue] at hs
      cases hs
      show [] ++ [info].filter named ++ _ = [] ++ (info :: queue).filter named
      rw [List.nil_append, List.nil_append, ← List.filter_append]
      rfl
  · -- what the loop drops has no name
    by_cases hname : info.sFileFullNameValue = []
    · have hnamed : named info = false := by simp [named, hname]
      simp only [hloop, hname, if_true, ite_self] at hs
      cases hs
      simp [inHand, hnamed]
    · have hnamed : named info = true := by simp [named, hname]
      simp only [hloop, hspares info hloop hnamed, hname] at hs
      cases hs
      simp [inHand, hnamed]
  · simp only [hloop] at hs
    cases hs
    rfl
  · simp [hloop] at hs

/-- The loop leaves with a named record in its hand. -/
theorem loopStep_drops {info : SyncUploadFileInfo} (hs : s.loopStep = some (s', es))
    (hloop : s.loop = .popped info) (hstop : s.shouldStop = true) :
    s'.loop = .exited ∧ s'.queue = s.queue ∧ es = [] := by
  simp only [loopStep, hloop, hstop, if_true] at hs
  cases hs
  exact ⟨rfl, rfl, rfl⟩

/-- The loop takes records off the front of the queue, if any. -/
theorem loopStep_length (hs : s.loopStep = some (s', es)) : s'.queue.length ≤ s.queue.length := by
  unfold loopStep at hs
  rcases hloop : s.loop with _ | _ | info | info | _
  · simp only [hloop] at hs
    cases hs
    exact le_rfl
  · rcases hqueue : s.queue with _ | ⟨info, queue⟩
    · simp only [hloop, hqueue] at hs
      split_ifs at hs
      · cases hs
        simp
      · cases hs
        simp
    · simp only [hloop, hqueue] at hs
      cases hs
      simp
  · simp only [hloop] at hs
    split_ifs at hs
    · cases hs
      exact le_rfl
    · cases hs
      exact le_rfl
    · cases hs
      exact le_rfl
  · simp only [hloop] at hs
    cases hs
    exact le_rfl
  · simp [hloop] at hs

/-- The events of a step, by the thread that moves. -/
theorem passages_step {t : Turn} {es : List Passage} (hs : (passages env).step s t = some (s', es)) :
    (t ≠ .loop ∧ s'.loop = s.loop ∧
        ∃ new, s'.queue = s.queue ++ new ∧ es = new.map .pushed) ∨
      t = .loop ∧ ∃ sent, s.loopStep = some (s', sent) ∧ es = sent.map .sent := by
  obtain ⟨⟨s₁, sent⟩, hstep, heq⟩ := Option.map_eq_some_iff.mp hs
  obtain ⟨rfl, rfl⟩ := Prod.mk.inj heq
  cases t with
  | ui =>
    obtain ⟨s₂, hui, heq⟩ := Option.map_eq_some_iff.mp hstep
    obtain ⟨rfl, rfl⟩ := Prod.mk.inj heq
    obtain ⟨new, hqueue, hloop⟩ := uiStep_queue hui
    refine Or.inl ⟨nofun, hloop, new, hqueue, ?_⟩
    simp [hqueue]
  | loop =>
    refine Or.inr ⟨rfl, sent, hstep, ?_⟩
    show (s₁.queue.drop s.queue.length).map _ ++ _ = _
    rw [List.drop_eq_nil_of_le (loopStep_length hstep)]
    rfl
  | stop =>
    obtain ⟨s₂, hstop, heq⟩ := Option.map_eq_some_iff.mp hstep
    obtain ⟨rfl, rfl⟩ := Prod.mk.inj heq
    obtain ⟨hqueue, hloop⟩ := stopStep_queue hstop
    refine Or.inl ⟨nofun, hloop, [], by rw [hqueue, List.append_nil], ?_⟩
    simp [hqueue]

/-- A step that spares the record in hand keeps the account. -/
theorem Kept.step {t : Turn} {es : List Passage} (hkept : Kept s h) (hspares : s.Spares t)
    (hs : (passages env).step s t = some (s', es)) : Kept s' (h ++ es) := by
  unfold Kept at hkept ⊢
  rcases passages_step hs with ⟨-, hloop, new, hqueue, rfl⟩ | ⟨rfl, sent, hstep, rfl⟩
  · simp [hloop, hqueue, hkept]
  · have hhand := loopStep_kept hstep (hspares rfl)
    simp only [pushedInfos_append, sentInfos_append, pushedInfos_sent, sentInfos_sent,
      List.append_nil, hkept, List.append_assoc] at hhand ⊢
    rw [hhand]

/-- A step that does not spare it loses it. -/
theorem Kept.lost {t : Turn} {es : List Passage} (hkept : Kept s h) (hdrops : ¬ s.Spares t)
    (hs : (passages env).step s t = some (s', es)) : Lost s' (h ++ es) := by
  unfold Spares at hdrops
  push Not at hdrops
  obtain ⟨rfl, info, hloop, hnamed, hstop⟩ := hdrops
  rcases passages_step hs with ⟨ht, -⟩ | ⟨-, sent, hstep, rfl⟩
  · exact absurd rfl ht
  · obtain ⟨hexit, hqueue, rfl⟩ := loopStep_drops hstep hloop (by simpa using hstop)
    refine ⟨hexit, info, hnamed, ?_⟩
    have hcount := congrArg (List.count info) hkept
    simp only [hloop, inHand, List.count_append, List.count_filter hnamed, List.count_singleton_self]
      at hcount
    simp [hqueue, hcount]

/-- A record that is lost stays lost. -/
theorem Lost.step {t : Turn} {es : List Passage} (hlost : Lost s h)
    (hs : (passages env).step s t = some (s', es)) : Lost s' (h ++ es) := by
  obtain ⟨hexit, info, hnamed, hcount⟩ := hlost
  rcases passages_step hs with ⟨-, hloop, new, hqueue, rfl⟩ | ⟨-, sent, hstep, -⟩
  · refine ⟨hloop.trans hexit, info, hnamed, ?_⟩
    simp [hqueue]
    omega
  · simp [loopStep, hexit] at hstep

theorem Kept.lossless (hkept : Kept s h) (hexit : s.loop = .exited) : Lossless s h := by
  intro info hnamed
  have hcount := congrArg (List.count info) hkept
  rw [hexit] at hcount
  simp only [inHand, List.append_nil, List.count_append, List.count_filter hnamed] at hcount
  exact hcount.le

theorem Lost.not_lossless (hlost : Lost s h) : ¬ Lossless s h := by
  obtain ⟨-, info, hnamed, hcount⟩ := hlost
  intro hall
  have := hall info hnamed
  omega

/-- The runs are those of the service, with the same records handed over. -/
theorem run_passages {ts : List Turn} (hrun : (passages env).run s ts = some (s', h)) :
    (threads env).run s ts = some (s', sentInfos h) := by
  induction ts generalizing s h with
  | nil =>
    simp only [Machine.run_nil, Option.some.injEq, Prod.mk.injEq] at hrun
    obtain ⟨rfl, rfl⟩ := hrun
    rfl
  | cons t ts ih =>
    obtain ⟨s₁, es₁, es₂, h₁, h₂, rfl⟩ := Machine.run_cons_inv hrun
    obtain ⟨⟨s₂, sent⟩, hstep, heq⟩ := Option.map_eq_some_iff.mp h₁
    obtain ⟨rfl, rfl⟩ := Prod.mk.inj heq
    rw [sentInfos_append, sentInfos_append, sentInfos_pushed, sentInfos_sent, List.nil_append]
    exact Machine.run_cons (M := threads env) hstep (ih h₂)

end Steps

/-- **Stopping loses no file**, whatever the order of the calls of `push`, the steps of the loop and
`stop`, if and only if the test behind a successful `waitAndPop` never finds that `stop` has come. -/
theorem run_lossless_iff (env : Env) (calls : List (List Element)) {ts : List Turn} {s : Service}
    {h : List Passage} (hrun : (passages env).run (start calls) ts = some (s, h))
    (hexit : s.loop = .exited) : Lossless s h ↔ (passages env).Along Spares (start calls) ts := by
  have hsplit := @Machine.run_split _ _ _ (passages env) Spares Kept Lost
    (fun _ _ _ _ _ hkept ht hs => hkept.step ht hs) (fun _ _ _ _ _ hkept ht hs => hkept.lost ht hs)
    (fun _ _ _ _ _ hlost hs => hlost.step hs) _ _ [] _ _ (show Kept (start calls) [] from rfl) hrun
  rcases hsplit with ⟨halong, hkept⟩ | ⟨halong, hlost⟩
  · exact ⟨fun _ => halong, fun _ => hkept.lossless hexit⟩
  · exact ⟨fun hall => absurd hall hlost.not_lossless, fun hall => absurd hall halong⟩

/-- Two files: the first is sent, then `stop` comes, and the second stays in the queue. -/
theorem run_lossless_after_send : ∃ s h, (passages asciiEnv).run
    (start [[⟨[97], ⟨true, some 5, none, [], [], 0, 0⟩⟩, ⟨[98], ⟨true, some 5, none, [], [], 0, 0⟩⟩]])
      [.ui, .ui, .loop, .loop, .loop, .stop, .loop, .loop] = some (s, h) ∧
    s.loop = .exited ∧ Lossless s h ∧ s.queue.length = 1 := by
  have hend : ((passages asciiEnv).run (start [[⟨[97], ⟨true, some 5, none, [], [], 0, 0⟩⟩,
      ⟨[98], ⟨true, some 5, none, [], [], 0, 0⟩⟩]])
        [.ui, .ui, .loop, .loop, .loop, .stop, .loop, .loop]).map (fun r => (r.1.loop, r.1.queue.length)) =
      some (.exited, 1) := by rfl
  obtain ⟨⟨s, h⟩, hrun, hq⟩ := Option.map_eq_some_iff.mp hend
  obtain ⟨hexit, hlen⟩ := Prod.mk.inj hq
  exact ⟨s, h, hrun, hexit, (run_lossless_iff asciiEnv _ hrun hexit).mpr (by decide), hlen⟩

/-- `stop` comes between the pop and the test behind it: the file is nowhere. -/
theorem stop_behind_pop : ∃ s h, (passages asciiEnv).run
    (start [[⟨[97], ⟨true, some 5, none, [], [], 0, 0⟩⟩]]) [.ui, .loop, .loop, .stop, .loop] =
      some (s, h) ∧ s.loop = .exited ∧ (pushedInfos h).map (·.sFileFullNameValue) = [[97]] ∧
    sentInfos h = [] ∧ s.queue = [] ∧ ¬ Lossless s h := by
  have hend : ((passages asciiEnv).run (start [[⟨[97], ⟨true, some 5, none, [], [], 0, 0⟩⟩]])
      [.ui, .loop, .loop, .stop, .loop]).map (fun r =>
        (r.1.loop, (pushedInfos r.2).map (·.sFileFullNameValue), sentInfos r.2, r.1.queue)) =
      some (.exited, [[97]], [], []) := by rfl
  obtain ⟨⟨s, h⟩, hrun, hq⟩ := Option.map_eq_some_iff.mp hend
  simp only [Prod.mk.injEq] at hq
  obtain ⟨hexit, hpushed, hsent, hqueue⟩ := hq
  refine ⟨s, h, hrun, hexit, hpushed, hsent, hqueue, ?_⟩
  obtain ⟨info, hinfos, hname⟩ := List.map_eq_singleton_iff.mp hpushed
  intro hall
  have hcount := hall info (by simp [named, hname])
  rw [hinfos, hsent, hqueue] at hcount
  simp at hcount

end Service

end LuspUpload.Upload
