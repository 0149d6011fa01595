import LuspUpload.Ipc.Demux
import LuspUpload.Ipc.LinkSteps

/-!
# Ipc.Heartbeat — which heartbeats time out

`handle_heartbeat_pong` would refresh the clock of the heartbeat and reset its failures, but nobody calls
it: the bytes of a PONG go to `on_message_` like all others.  The clock is set by a connect that succeeds
and by nothing else, so that the ticks behind the timeout count a failure each, whatever the server
answers.
-/

namespace LuspUpload.Ipc

open Lib Config

namespace LoopbackIpcClient

variable {p : Platform} {cfg : NetworkConfig}

/-! ### Histories -/

/-- No tick of the history counts a timeout, and none disconnects. -/
def NeverTimesOut (es : List Event) : Prop := .timedOut ∉ es ∧ .timeoutDisconnect ∉ es

/-- The time of the last connect, `t` where there is none. -/
def connectedAfter : UInt64 → List Event → UInt64
  | t, [] => t
  | _, .connected now :: es => connectedAfter now es
  | t, _ :: es => connectedAfter t es

/-- Every tick comes in time after the last connect, which was at `t` before the history. -/
def TicksInTime (cfg : NetworkConfig) : UInt64 → List Event → Prop
  | _, [] => True
  | _, .connected now :: es => TicksInTime cfg now es
  | t, .tick now :: es => InTime cfg t now ∧ TicksInTime cfg t es
  | t, _ :: es => TicksInTime cfg t es

theorem neverTimesOut_append {es₁ es₂ : List Event} :
    NeverTimesOut (es₁ ++ es₂) ↔ NeverTimesOut es₁ ∧ NeverTimesOut es₂ := by
  simp only [NeverTimesOut, List.mem_append, not_or]
  exact and_and_and_comm

theorem connectedAfter_append (t : UInt64) (es₁ es₂ : List Event) :
    connectedAfter t (es₁ ++ es₂) = connectedAfter (connectedAfter t es₁) es₂ := by
  induction es₁ generalizing t with
  | nil => rfl
  | cons e es ih =>
    cases e with
    | connected now => exact ih now
    | _ => exact ih t

theorem ticksInTime_append {t : UInt64} {es₁ es₂ : List Event} :
    TicksInTime cfg t (es₁ ++ es₂) ↔
      TicksInTime cfg t es₁ ∧ TicksInTime cfg (connectedAfter t es₁) es₂ := by
  induction es₁ generalizing t with
  | nil => exact (and_iff_right trivial).symm
  | cons e es ih =>
    cases e with
    | connected now => exact ih
    | tick now => exact (and_congr_right fun _ => ih).trans and_assoc.symm
    | _ => exact ih

/-- Events that are not of the heartbeat leave no trace. -/
theorem quiet_history {es : List Event} (h : ∀ e ∈ es, e.isBeat = false) (t : UInt64) :
    connectedAfter t es = t ∧ NeverTimesOut es ∧ TicksInTime cfg t es := by
  have hnever : NeverTimesOut es := by
    refine ⟨?_, ?_⟩
    · intro hmem
      exact nomatch h _ hmem
    · intro hmem
      exact nomatch h _ hmem
  suffices hes : connectedAfter t es = t ∧ TicksInTime cfg t es from ⟨hes.1, hnever, hes.2⟩
  clear hnever
  induction es with
  | nil => exact ⟨rfl, trivial⟩
  | cons e es ih =>
    have hes := ih fun e' he' => h e' (List.mem_cons_of_mem e he')
    cases e with
    | connected now => exact nomatch h _ List.mem_cons_self
    | tick now => exact nomatch h _ List.mem_cons_self
    | _ => exact hes

/-! ### Steps and runs -/

/-- The clock shows the last connect, and there are timeouts where a tick comes too late. -/
def Beats (cfg : NetworkConfig) (s : LoopbackIpcClient) (es : List Event) (s' : LoopbackIpcClient) : Prop :=
  s'.lastPongTimeMs = connectedAfter s.lastPongTimeMs es ∧
    (NeverTimesOut es ↔ TicksInTime cfg s.lastPongTimeMs es)

theorem Beats.nil {s s' : LoopbackIpcClient} (hclock : s'.lastPongTimeMs = s.lastPongTimeMs) :
    Beats cfg s [] s' :=
  ⟨hclock, iff_of_true ⟨List.not_mem_nil, List.not_mem_nil⟩ trivial⟩

theorem Beats.trans {s₁ s₂ s₃ : LoopbackIpcClient} {es₁ es₂ : List Event} (h₁ : Beats cfg s₁ es₁ s₂)
    (h₂ : Beats cfg s₂ es₂ s₃) : Beats cfg s₁ (es₁ ++ es₂) s₃ := by
  refine ⟨?_, ?_⟩
  · rw [h₂.1, h₁.1, connectedAfter_append]
  · rw [neverTimesOut_append, ticksInTime_append, h₁.2, h₂.2, h₁.1]

theorem Beats.of_quiet {s s' : LoopbackIpcClient} {es : List Event}
    (hclock : s'.lastPongTimeMs = s.lastPongTimeMs) (hevents : ∀ e ∈ es, e.isBeat = false) :
    Beats cfg s es s' := by
  obtain ⟨hafter, hnever, hticks⟩ := @quiet_history cfg _ hevents s.lastPongTimeMs
  exact ⟨hclock.trans hafter.symm, iff_of_true hnever hticks⟩

/-- A tick. -/
theorem handleHeartbeatTimer_beats (now : UInt64) (s : LoopbackIpcClient) :
    Beats cfg s (handleHeartbeatTimer cfg now s).2 (handleHeartbeatTimer cfg now s).1 := by
  unfold handleHeartbeatTimer
  split
  · by_cases htime : InTime cfg (sendHeartbeatPing s).1.lastPongTimeMs now
    · simp only [andThen, checkHeartbeatTimeout_inTime htime]
      exact ⟨rfl, iff_of_true (by simp [NeverTimesOut, sendHeartbeatPing]) ⟨htime, trivial⟩⟩
    · obtain ⟨hclock, -, hevents⟩ := checkHeartbeatTimeout_late htime
      have hlate : ¬ TicksInTime cfg s.lastPongTimeMs
          (.tick now :: (andThen sendHeartbeatPing (checkHeartbeatTimeout cfg now) s).2) :=
        fun hticks => htime hticks.1
      refine ⟨hclock.trans ?_, iff_of_false ?_ hlate⟩
      · rcases hevents with hevents | hevents
        · simp only [andThen, hevents]
          rfl
        · simp only [andThen, hevents]
          rfl
      · rcases hevents with hevents | hevents
        · simp [NeverTimesOut, andThen, hevents]
        · simp [NeverTimesOut, andThen, hevents]
  · exact .nil rfl

/-- A PING that cannot be written. -/
theorem handlePingResult_beats (e : ErrorCode) (now : UInt64) (s : LoopbackIpcClient) :
    Beats cfg s (handlePingResult cfg (some e) now s).2 (handlePingResult cfg (some e) now s).1 := by
  by_cases hfull : cfg.heartbeatMaxFailures ≤ s.heartbeatFailureCount + 1
  · simp only [handlePingResult, if_pos hfull]
    exact .of_quiet Still.tryTriggerReconnect.clock Still.tryTriggerReconnect.events
  · simp only [handlePingResult, if_neg hfull]
    exact .nil rfl

theorem step_beats (hon : cfg.enableAppHeartbeat = true) {s : LoopbackIpcClient} {a : Act}
    {r : LoopbackIpcClient × List Event} (hstep : (link p cfg).step s a = some r) :
    Beats cfg s r.2 r.1 := by
  obtain hstill | ⟨i, now, -, rfl⟩ | ⟨e, now, -, rfl⟩ | ⟨i, now, -, -, rfl⟩ := step_still hstep
  · exact .of_quiet hstill.clock hstill.events
  · obtain ⟨-, hclock, hevents⟩ :=
      handleConnectResult_connected cfg now { s with connects := s.connects.eraseIdx i }
    rw [Beats, hclock, hevents, if_pos hon]
    exact ⟨rfl, iff_of_true (by simp [NeverTimesOut]) trivial⟩
  · exact handlePingResult_beats e now { s with pings := s.pings - 1 }
  · exact handleHeartbeatTimer_beats now { s with heartbeatTimer := s.heartbeatTimer.eraseIdx i }

/-- **Heartbeat timeouts**: in every run of a client with the heartbeat enabled, no timeout is ever counted
and none disconnects exactly when every tick comes within the timeout after the last connect. -/
theorem run_neverTimesOut_iff (hon : cfg.enableAppHeartbeat = true) {start : UInt64} {as : List Act}
    {s : LoopbackIpcClient} {es : List Event}
    (hrun : (link p cfg).run (create start) as = some (s, es)) :
    NeverTimesOut es ↔ TicksInTime cfg 0 es := by
  have hbeats : Beats cfg (create start) es s := by
    refine Machine.run_induction ?_ ?_ ?_ hrun
    · intro s
      exact .nil rfl
    · intro s₁ s₂ s₃ es₁ es₂ h₁ h₂
      exact h₁.trans h₂
    · intro s a s' es hstep
      exact step_beats hon hstep
  exact hbeats.2

/-- The first tick comes in time. -/
theorem run_neverTimesOut_first :
    ∃ s es, (link .posix {}).run (create 1)
        ([.connect true 2, .connectDone 0 none 1000] ++ tickAt 11001) = some (s, es) ∧
      .tick 11001 ∈ es ∧ NeverTimesOut es := by
  have hend : ((link .posix {}).run (create 1)
      ([.connect true 2, .connectDone 0 none 1000] ++ tickAt 11001)).map Prod.snd =
        some [.attempted, .connected 1000, .tick 11001, .ping 0] := by rfl
  obtain ⟨⟨s, es⟩, hrun, rfl⟩ := Option.map_eq_some_iff.mp hend
  refine ⟨s, _, hrun, by decide, (run_neverTimesOut_iff rfl hrun).mpr ?_⟩
  show InTime {} 1000 11001 ∧ True
  decide

/-! ### Answered and timed out -/

/-- The bytes are the frame of the PONG with number `sequence`. -/
def IsPong (R : Reader) (sequence : UInt32) (bytes : List UInt8) : Prop :=
  ∃ payload timestamp clientName clientVersion, Framable payload ∧ bytes = frame payload ∧
    R.Encodes schemaSlots payload
      (heartbeatTable .pong sequence timestamp clientName clientVersion [])

/-- Every PING is answered, the outstanding `pings` first: each PONG comes in one read, within the timeout
after the refresh before it, of which the last was at `t`. -/
def Answered (R : Reader) (cfg : NetworkConfig) : UInt64 → List UInt32 → List Event → Prop
  | _, pings, [] => pings = []
  | _, pings, .connected now :: es => Answered R cfg now pings es
  | t, pings, .ping sequence :: es => Answered R cfg t (pings ++ [sequence]) es
  | t, pings, .received bytes now :: es =>
    (∃ sequence, pings.head? = some sequence ∧ IsPong R sequence bytes) ∧
      now - t < cfg.heartbeatTimeoutMs.toUInt64 ∧ Answered R cfg now pings.tail es
  | t, pings, _ :: es => Answered R cfg t pings es

/-- The buffer of the first PONG: slot 6 is absent. -/
def firstPong : List UInt8 :=
   [20, 0, 0, 0, 16, 0, 28, 0, 7, 0, 0, 0, 20, 0, 8, 0, 12, 0, 16, 0, 16, 0, 0, 0, 0, 0, 0, 1, 20, 0,
     0, 0, 24, 0, 0, 0, 28, 0, 0, 0, 249, 42, 0, 0, 0, 0, 0, 0, 1, 0, 0, 0, 67, 0, 0, 0, 1, 0, 0, 0,
     49, 0, 0, 0, 0, 0, 0, 0, 0, 0, 0, 0]

/-- The buffer of a later PONG, for a small number and timestamp. -/
def laterPong (sequence low high : UInt8) : List UInt8 :=
   [24, 0, 0, 0, 0, 0, 0, 0, 16, 0, 32, 0, 7, 0, 8, 0, 24, 0, 12, 0, 16, 0, 20, 0, 16, 0, 0, 0, 0, 0,
     0, 1, sequence, 0, 0, 0, 20, 0, 0, 0, 24, 0, 0, 0, 28, 0, 0, 0, low, high, 0, 0, 0, 0, 0, 0, 1, 0,
     0, 0, 67, 0, 0, 0, 1, 0, 0, 0, 49, 0, 0, 0, 0, 0, 0, 0, 0, 0, 0, 0]

/-- Three ticks ten seconds apart; the server answers each PING at once. -/
def answeredTicks : List Act :=
  [.onReceive, .connect true 2, .connectDone 0 none 1000] ++
  tickAt 11001 ++ [.pingDone none 11002, .readDone none (frame firstPong) 11003] ++
  tickAt 21002 ++ [.pingDone none 21003, .readDone none (frame (laterPong 1 10 82)) 21004] ++
  tickAt 31003 ++ [.pingDone none 31004, .readDone none (frame (laterPong 2 27 121)) 31005]

/-- With the default configuration the third tick counts a timeout, although every PING was answered. -/
theorem answered_timedOut :
    networkErrors {} = [] ∧
    ∃ s es, (link .posix {}).run (create 1) answeredTicks = some (s, es) ∧
      Answered Reader.wire {} 0 [] es ∧ .timedOut ∈ es ∧ s.heartbeatFailureCount = 1 := by
  have hend : ((link .posix {}).run (create 1) answeredTicks).map
      (fun q => (q.2, q.1.heartbeatFailureCount)) =
      some ([.attempted, .connected 1000,
        .tick 11001, .ping 0, .received (frame firstPong) 11003, .message (frame firstPong),
        .tick 21002, .ping 1, .received (frame (laterPong 1 10 82)) 21004,
          .message (frame (laterPong 1 10 82)),
        .tick 31003, .ping 2, .timedOut, .received (frame (laterPong 2 27 121)) 31005,
          .message (frame (laterPong 2 27 121))], 1) := by rfl
  obtain ⟨⟨s, es⟩, hrun, hq⟩ := Option.map_eq_some_iff.mp hend
  obtain ⟨rfl, hcount⟩ := Prod.mk.inj hq
  refine ⟨networkErrors_default, s, _, hrun, ?_, by simp, hcount⟩
  refine ⟨⟨0, rfl, firstPong, 11001, [67], [49], ?_, rfl, ?_⟩, by decide,
    ⟨1, rfl, laterPong 1 10 82, 21002, [67], [49], ?_, rfl, ?_⟩, by decide,
    ⟨2, rfl, laterPong 2 27 121, 31003, [67], [49], ?_, rfl, ?_⟩, by decide, rfl⟩
  all_goals decide +kernel

end LoopbackIpcClient

end LuspUpload.Ipc
