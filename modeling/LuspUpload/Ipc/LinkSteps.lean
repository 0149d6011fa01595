import LuspUpload.Ipc.Link
import LuspUpload.Ipc.Reconnect

/-!
# Ipc.LinkSteps — what the handlers of the client leave alone

Beside the few handlers that are about it, every handler leaves the heartbeat `Still`: the count of its
failures, the time of the last refresh, and no event of it.  Every reachable client has its reconnect
callback installed, and a connect pending while it is connecting.
-/

namespace LuspUpload.Ipc

open Lib Config

namespace ConnectionMonitor

/-- A failing send changes the state of the link in state `Connected` only. -/
theorem recordSendFailure_state {p : Platform} {m : ConnectionMonitor} (h : m.state ≠ .connected)
    (error : ErrorCode) (trigger : Bool) (now now' : UInt64) :
    (m.recordSendFailure p error trigger now now').1.state = m.state := by
  have htry : ∀ m' : ConnectionMonitor, m'.tryTriggerReconnect.1.state = m'.state := by
    intro m'
    unfold tryTriggerReconnect
    split <;> rfl
  simp only [recordSendFailure, countSendFailure_frame, if_neg h]
  split_ifs
  · rw [htry, (countSendFailure_frame m _ _ _).1]
  · exact (countSendFailure_frame m _ _ _).1
  · exact (countSendFailure_frame m _ _ _).1

theorem setState_state (m : ConnectionMonitor) (s : ConnectionState) (now : UInt64) :
    (m.setState s now).1.state = s := by
  by_cases hsame : m.state = s
  · rw [setState, if_pos hsame, hsame]
  · rw [setState, if_neg hsame]
    exact (entered_frame _ _ _).1

end ConnectionMonitor

namespace LoopbackIpcClient

variable {p : Platform} {cfg : NetworkConfig} {s s' : LoopbackIpcClient} {es : List Event}

/-! ### The parts of the handlers -/

theorem doRead_eq (s : LoopbackIpcClient) : ∃ n, doRead s = { s with reads := n } := by
  unfold doRead
  split
  · exact ⟨_, rfl⟩
  · exact ⟨s.reads, rfl⟩

theorem doSendFromQueue_eq (s : LoopbackIpcClient) :
    ∃ b n, doSendFromQueue s = { s with isSending := b, writes := n } := by
  unfold doSendFromQueue
  split_ifs
  · exact ⟨s.isSending, s.writes, rfl⟩
  · exact ⟨s.isSending, s.writes, rfl⟩
  · exact ⟨s.isSending, s.writes, rfl⟩
  · exact ⟨_, _, rfl⟩

/-- What `try_reconnect` can do: nothing, give up, or replace the socket and set the timer. -/
theorem tryReconnect_cases (cfg : NetworkConfig) (s : LoopbackIpcClient) :
    ((s.isPermanentlyStopped = true ∨ cfg.enableAutoReconnect = false) ∧
      tryReconnect cfg s = (s, [])) ∨
    (cfg.maxReconnectAttempts.toInt32.toInt ≤ s.currentReconnectAttempts ∧
      tryReconnect cfg s = ({ s with isPermanentlyStopped := true }, [])) ∨
    (s.isPermanentlyStopped = false ∧ cfg.enableAutoReconnect = true ∧
      tryReconnect cfg s = ({ s with
        currentReconnectAttempts := s.currentReconnectAttempts + 1
        isConnecting := false
        socket := s.socket + 1
        isOpen := false
        reconnectTimer := s.reconnectTimer.rearm },
        [.armed (reconnectDelay cfg (s.currentReconnectAttempts + 1))])) := by
  unfold tryReconnect
  split_ifs with hstop hauto hmax
  · exact .inl ⟨.inl hstop, rfl⟩
  · exact .inl ⟨.inr (by simpa using hauto), rfl⟩
  · exact .inr (.inl ⟨hmax, rfl⟩)
  · exact .inr (.inr ⟨by simpa using hstop, by simpa using hauto, rfl⟩)

theorem tryReconnect_stopped (h : s.isPermanentlyStopped = true) : tryReconnect cfg s = (s, []) := by
  rw [tryReconnect, if_pos h]

theorem noticed_stopped {notices : List Notice} (h : s.isPermanentlyStopped = true) :
    noticed cfg notices s = (s, []) := by
  unfold noticed
  split
  · exact tryReconnect_stopped h
  · rfl

theorem tryTriggerReconnect_stopped (h : s.isPermanentlyStopped = true) :
    tryTriggerReconnect cfg s = ({ s with monitor := s.monitor.tryTriggerReconnect.1 }, []) := by
  have hstop : { s with monitor := s.monitor.tryTriggerReconnect.1 }.isPermanentlyStopped = true := h
  exact noticed_stopped hstop

theorem handleConnectResult_stopped (h : s.isPermanentlyStopped = true) (e : ErrorCode) (now : UInt64) :
    handleConnectResult cfg (some e) now s =
      (setState .disconnected now { s with isConnecting := false }, []) := by
  have hstop : (setState .disconnected now { s with isConnecting := false }).isPermanentlyStopped = true := h
  exact tryReconnect_stopped hstop

theorem handleHeartbeatTimer_closed (h : s.isOpen = false) (now : UInt64) :
    handleHeartbeatTimer cfg now s = (s, []) := by
  simp [handleHeartbeatTimer, h]

/-- What a connect that succeeds does to the heartbeat. -/
theorem handleConnectResult_connected (cfg : NetworkConfig) (now : UInt64) (s : LoopbackIpcClient) :
    (handleConnectResult cfg none now s).1.heartbeatFailureCount = s.heartbeatFailureCount ∧
    (handleConnectResult cfg none now s).1.lastPongTimeMs =
      (if cfg.enableAppHeartbeat then now else s.lastPongTimeMs) ∧
    (handleConnectResult cfg none now s).2 = [.connected now] := by
  simp only [handleConnectResult]
  obtain ⟨n, hread⟩ := doRead_eq _
  obtain ⟨b, m, hsend⟩ := doSendFromQueue_eq _
  rw [hsend, hread]
  cases cfg.enableAppHeartbeat with
  | true => exact ⟨rfl, rfl, trivial⟩
  | false => exact ⟨rfl, rfl, trivial⟩

/-- The last refresh, if there was one, is recent enough. -/
def InTime (cfg : NetworkConfig) (last now : UInt64) : Prop :=
  last = 0 ∨ now - last ≤ cfg.heartbeatTimeoutMs.toUInt64

instance (cfg : NetworkConfig) (last now : UInt64) : Decidable (InTime cfg last now) :=
  inferInstanceAs (Decidable (last = 0 ∨ now - last ≤ cfg.heartbeatTimeoutMs.toUInt64))

theorem checkHeartbeatTimeout_inTime {now : UInt64} (h : InTime cfg s.lastPongTimeMs now) :
    checkHeartbeatTimeout cfg now s = (s, []) := by
  unfold checkHeartbeatTimeout
  split_ifs with hzero helapsed
  · rfl
  · rfl
  all_goals exact absurd h (not_or.mpr ⟨hzero, helapsed⟩)

/-- A timeout is counted.  Where it is one too many, the client is stopped before the reconnect callback
is invoked, so that the reconnect timer stays as it is. -/
theorem checkHeartbeatTimeout_late {now : UInt64} (h : ¬ InTime cfg s.lastPongTimeMs now) :
    (checkHeartbeatTimeout cfg now s).1.lastPongTimeMs = s.lastPongTimeMs ∧
    (checkHeartbeatTimeout cfg now s).1.reconnectTimer = s.reconnectTimer ∧
    ((checkHeartbeatTimeout cfg now s).2 = [.timedOut] ∨
      (checkHeartbeatTimeout cfg now s).2 = [.timedOut, .timeoutDisconnect]) := by
  obtain ⟨hzero, helapsed⟩ := not_or.mp h
  simp only [checkHeartbeatTimeout, if_neg hzero, if_neg helapsed]
  split
  · rw [tryTriggerReconnect_stopped rfl]
    exact ⟨rfl, rfl, .inr rfl⟩
  · exact ⟨rfl, rfl, .inl rfl⟩

/-! ### The heartbeat at rest -/

/-- An event of the heartbeat. -/
def Event.isBeat : Event → Bool
  | .connected _ => true
  | .tick _ => true
  | .timedOut => true
  | .timeoutDisconnect => true
  | _ => false

/-- The heartbeat is as it was. -/
structure Still (s : LoopbackIpcClient) (r : LoopbackIpcClient × List Event) : Prop where
  failures : r.1.heartbeatFailureCount = s.heartbeatFailureCount
  clock : r.1.lastPongTimeMs = s.lastPongTimeMs
  events : ∀ e ∈ r.2, e.isBeat = false

namespace Still

theorem nil (hf : s'.heartbeatFailureCount = s.heartbeatFailureCount)
    (hc : s'.lastPongTimeMs = s.lastPongTimeMs) : Still s (s', []) :=
  ⟨hf, hc, nofun⟩

/-- What a handler leaves alone after a change that leaves it alone. -/
theorem after {s₁ : LoopbackIpcClient} {r : LoopbackIpcClient × List Event} (h : Still s₁ r)
    (hf : s₁.heartbeatFailureCount = s.heartbeatFailureCount)
    (hc : s₁.lastPongTimeMs = s.lastPongTimeMs) : Still s r :=
  ⟨h.failures.trans hf, h.clock.trans hc, h.events⟩

theorem cons {e : Event} (h : Still s (s', es)) (he : e.isBeat = false) : Still s (s', e :: es) := by
  refine ⟨h.failures, h.clock, ?_⟩
  intro e' he'
  rcases List.mem_cons.mp he' with rfl | he'
  · exact he
  · exact h.events e' he'

theorem tryReconnect : Still s (tryReconnect cfg s) := by
  obtain ⟨-, h⟩ | ⟨-, h⟩ | ⟨-, -, h⟩ := tryReconnect_cases cfg s
  · rw [h]
    exact nil rfl rfl
  · rw [h]
    exact nil rfl rfl
  · rw [h]
    exact cons (nil rfl rfl) (by rfl)

theorem noticed {notices : List Notice} : Still s (noticed cfg notices s) := by
  unfold LoopbackIpcClient.noticed
  split
  · exact tryReconnect
  · exact nil rfl rfl

theorem tryTriggerReconnect : Still s (tryTriggerReconnect cfg s) := noticed.after (by rfl) (by rfl)

theorem connect (resolves : Bool) (now : UInt64) : Still s (connect cfg resolves now s) := by
  unfold LoopbackIpcClient.connect
  split_ifs
  · exact nil rfl rfl
  · exact cons (nil rfl rfl) (by rfl)
  · refine cons ?_ rfl
    exact ⟨tryReconnect.failures, tryReconnect.clock, tryReconnect.events⟩

theorem enableHeartbeat (enable : Bool) : Still s (enableHeartbeat enable s, []) := by
  simp only [LoopbackIpcClient.enableHeartbeat]
  split
  · exact nil rfl rfl
  · exact nil rfl rfl

theorem doSendFromQueue : Still s (doSendFromQueue s, []) := by
  obtain ⟨b, n, h⟩ := doSendFromQueue_eq s
  rw [h]
  exact nil rfl rfl

theorem handleReadResult (ec : Option ErrorCode) (bytes : List UInt8) (now : UInt64) :
    Still s (handleReadResult p cfg ec bytes now s) := by
  unfold LoopbackIpcClient.handleReadResult
  obtain ⟨n, h⟩ := doRead_eq s
  split_ifs
  · rw [h]
    exact cons (cons (nil rfl rfl) (by rfl)) (by rfl)
  · rw [h]
    exact cons (nil rfl rfl) (by rfl)
  · exact noticed.after (by rfl) (by rfl)

theorem handleSendResult (ec : Option ErrorCode) (now : UInt64) :
    Still s (handleSendResult p cfg ec now s) := by
  cases ec with
  | none => exact doSendFromQueue.after (by rfl) (by rfl)
  | some error =>
    simp only [LoopbackIpcClient.handleSendResult]
    split
    · exact noticed.after (by rfl) (by rfl)
    · exact ⟨doSendFromQueue.failures.trans noticed.failures,
        doSendFromQueue.clock.trans noticed.clock, noticed.events⟩

theorem handleReconnectTimer (resolves : Bool) (now : UInt64) :
    Still s (handleReconnectTimer cfg resolves now s) := by
  unfold LoopbackIpcClient.handleReconnectTimer
  split
  · exact connect resolves now
  · exact nil rfl rfl

end Still

/-! ### Steps -/

/-- A handler is called for a wait that is due or aborted; the aborted one does nothing. -/
theorem wait_cases {t : Timer} {i : ℕ} {handler : Handler} {r : LoopbackIpcClient × List Event}
    (h : (t[i]?.bind fun w => (onWait handler w).map fun f => f s) = some r) :
    (t[i]? = some .due ∧ r = handler s) ∨ (t[i]? = some .aborted ∧ r = (s, [])) := by
  obtain ⟨w, hw, h⟩ := Option.bind_eq_some_iff.mp h
  obtain ⟨f, hf, rfl⟩ := Option.map_eq_some_iff.mp h
  cases w with
  | armed => cases hf
  | due =>
    cases hf
    exact .inl ⟨hw, rfl⟩
  | aborted =>
    cases hf
    exact .inr ⟨hw, rfl⟩

/-- Only a socket that is still open connects. -/
theorem connectDone_cases {i : ℕ} {ec : Option ErrorCode} {now : UInt64}
    {r : LoopbackIpcClient × List Event} (h : step p cfg s (.connectDone i ec now) = some r) :
    (ec = none → s.isOpen = true) ∧
      r = handleConnectResult cfg ec now { s with connects := s.connects.eraseIdx i } := by
  obtain ⟨socket, -, h⟩ := Option.bind_eq_some_iff.mp h
  split_ifs at h with hopen
  exact ⟨fun hec => (hopen hec).2, (Option.some.inj h).symm⟩

theorem readDone_cases {ec : Option ErrorCode} {bytes : List UInt8} {now : UInt64}
    {r : LoopbackIpcClient × List Event} (h : step p cfg s (.readDone ec bytes now) = some r) :
    r = handleReadResult p cfg ec bytes now { s with reads := s.reads - 1 } := by
  simp only [step] at h
  split_ifs at h
  exact (Option.some.inj h).symm

theorem writeDone_cases {ec : Option ErrorCode} {now : UInt64} {r : LoopbackIpcClient × List Event}
    (h : step p cfg s (.writeDone ec now) = some r) :
    r = handleSendResult p cfg ec now { s with writes := s.writes - 1 } := by
  simp only [step] at h
  split_ifs at h
  exact (Option.some.inj h).symm

theorem pingDone_cases {ec : Option ErrorCode} {now : UInt64} {r : LoopbackIpcClient × List Event}
    (h : step p cfg s (.pingDone ec now) = some r) :
    r = handlePingResult cfg ec now { s with pings := s.pings - 1 } := by
  simp only [step] at h
  split_ifs at h
  exact (Option.some.inj h).symm

/-- A connect succeeds, a PING fails, the heartbeat timer strikes; all else leaves the heartbeat alone. -/
theorem step_still {a : Act} {r : LoopbackIpcClient × List Event} (h : step p cfg s a = some r) :
    Still s r ∨
    (∃ i now, a = .connectDone i none now ∧
      r = handleConnectResult cfg none now { s with connects := s.connects.eraseIdx i }) ∨
    (∃ e now, a = .pingDone (some e) now ∧
      r = handlePingResult cfg (some e) now { s with pings := s.pings - 1 }) ∨
    (∃ i now, a = .heartbeatTimer i now ∧ s.heartbeatTimer[i]? = some .due ∧
      r = handleHeartbeatTimer cfg now { s with heartbeatTimer := s.heartbeatTimer.eraseIdx i }) := by
  cases a with
  | connect resolves now =>
    cases h
    exact .inl (.connect resolves now)
  | disconnect now =>
    cases h
    exact .inl (.nil rfl rfl)
  | send data =>
    cases h
    exact .inl (Still.doSendFromQueue.after (by rfl) (by rfl))
  | onReceive =>
    cases h
    exact .inl (.nil rfl rfl)
  | enableHeartbeat enable =>
    cases h
    exact .inl (.enableHeartbeat enable)
  | setHeartbeatInterval intervalMs =>
    cases h
    exact .inl (.nil rfl rfl)
  | reconnectExpires =>
    cases h
    exact .inl (.nil rfl rfl)
  | reconnectTimer i resolves now =>
    obtain ⟨-, rfl⟩ | ⟨-, rfl⟩ := wait_cases h
    · exact .inl ((Still.handleReconnectTimer resolves now).after (by rfl) (by rfl))
    · exact .inl (.nil rfl rfl)
  | heartbeatExpires =>
    cases h
    exact .inl (.nil rfl rfl)
  | heartbeatTimer i now =>
    obtain ⟨hw, rfl⟩ | ⟨-, rfl⟩ := wait_cases h
    · exact .inr (.inr (.inr ⟨i, now, rfl, hw, rfl⟩))
    · exact .inl (.nil rfl rfl)
  | connectDone i ec now =>
    obtain ⟨-, rfl⟩ := connectDone_cases h
    cases ec with
    | none => exact .inr (.inl ⟨i, now, rfl, rfl⟩)
    | some e => exact .inl (Still.tryReconnect.after (by rfl) (by rfl))
  | readDone ec bytes now =>
    obtain rfl := readDone_cases h
    exact .inl ((Still.handleReadResult ec bytes now).after (by rfl) (by rfl))
  | writeDone ec now =>
    obtain rfl := writeDone_cases h
    exact .inl ((Still.handleSendResult ec now).after (by rfl) (by rfl))
  | pingDone ec now =>
    obtain rfl := pingDone_cases h
    cases ec with
    | none => exact .inl (.nil rfl rfl)
    | some e => exact .inr (.inr (.inl ⟨e, now, rfl, rfl⟩))

/-! ### Every reachable client -/

/-- The reconnect callback is installed; a client that is connecting has a connect pending. -/
structure Wired (s : LoopbackIpcClient) : Prop where
  callback : s.monitor.reconnectCallback = true
  pending : s.isConnecting = true → s.connects ≠ []

namespace Wired

theorem create (now : UInt64) : Wired (create now) := ⟨rfl, nofun⟩

theorem tryReconnect (h : Wired s) : Wired (tryReconnect cfg s).1 := by
  obtain ⟨-, heq⟩ | ⟨-, heq⟩ | ⟨-, -, heq⟩ := tryReconnect_cases cfg s
  · rw [heq]
    exact h
  · rw [heq]
    exact ⟨h.callback, h.pending⟩
  · rw [heq]
    exact ⟨h.callback, nofun⟩

theorem noticed {notices : List Notice} (h : Wired s) : Wired (noticed cfg notices s).1 := by
  unfold LoopbackIpcClient.noticed
  split
  · exact h.tryReconnect
  · exact h

theorem tryTriggerReconnect (h : Wired s) : Wired (tryTriggerReconnect cfg s).1 := by
  refine noticed ⟨?_, h.pending⟩
  exact (ConnectionMonitor.call_reconnectCallback (p := .posix) s.monitor .tryTriggerReconnect).trans
    h.callback

theorem setState (h : Wired s) (newState : ConnectionState) (now : UInt64) :
    Wired (setState newState now s) :=
  ⟨(ConnectionMonitor.setState_reconnectCallback _ _ _).trans h.callback, h.pending⟩

theorem connect (h : Wired s) (resolves : Bool) (now : UInt64) :
    Wired (connect cfg resolves now s).1 := by
  have hcb := (h.setState .connecting now).callback
  unfold LoopbackIpcClient.connect
  split_ifs
  · exact h
  · exact ⟨hcb, fun _ => List.concat_ne_nil _ _⟩
  · refine tryReconnect ⟨?_, nofun⟩
    exact (ConnectionMonitor.setState_reconnectCallback _ _ _).trans hcb

theorem doRead (h : Wired s) : Wired (doRead s) := by
  obtain ⟨n, heq⟩ := doRead_eq s
  rw [heq]
  exact ⟨h.callback, h.pending⟩

theorem doSendFromQueue (h : Wired s) : Wired (doSendFromQueue s) := by
  obtain ⟨b, n, heq⟩ := doSendFromQueue_eq s
  rw [heq]
  exact ⟨h.callback, h.pending⟩

/-- The connect that completes need not be pending any more. -/
theorem handleConnectResult (h : s.monitor.reconnectCallback = true) (ec : Option ErrorCode)
    (now : UInt64) : Wired (handleConnectResult cfg ec now s).1 := by
  have hoff : Wired { s with isConnecting := false } := ⟨h, nofun⟩
  cases ec with
  | none =>
    have hset := hoff.setState .connected now
    simp only [LoopbackIpcClient.handleConnectResult]
    split
    · exact doSendFromQueue (doRead ⟨hset.callback, nofun⟩)
    · exact doSendFromQueue (doRead ⟨hset.callback, nofun⟩)
  | some e => exact tryReconnect (hoff.setState .disconnected now)

theorem handleReadResult (h : Wired s) (ec : Option ErrorCode) (bytes : List UInt8) (now : UInt64) :
    Wired (handleReadResult p cfg ec bytes now s).1 := by
  unfold LoopbackIpcClient.handleReadResult
  split
  · exact h.doRead
  · refine noticed ⟨?_, h.pending⟩
    exact (ConnectionMonitor.call_reconnectCallback s.monitor
      (.recordReadFailure (ec.getD ⟨.system, 0⟩) now now)).trans h.callback

theorem handleSendResult (h : Wired s) (ec : Option ErrorCode) (now : UInt64) :
    Wired (handleSendResult p cfg ec now s).1 := by
  cases ec with
  | none =>
    have hsent : Wired { s with
        isSending := false
        queue := s.queue.tail
        monitor := s.monitor.recordSendSuccess now } := ⟨h.callback, h.pending⟩
    exact hsent.doSendFromQueue
  | some error =>
    have hcb := (ConnectionMonitor.call_reconnectCallback (p := p) s.monitor
      (.recordSendFailure error true now now)).trans h.callback
    simp only [LoopbackIpcClient.handleSendResult]
    split
    · exact noticed ⟨hcb, h.pending⟩
    · exact doSendFromQueue (noticed ⟨hcb, h.pending⟩)

theorem handlePingResult (h : Wired s) (ec : Option ErrorCode) (now : UInt64) :
    Wired (handlePingResult cfg ec now s).1 := by
  cases ec with
  | none => exact h
  | some e =>
    simp only [LoopbackIpcClient.handlePingResult]
    split
    · exact tryTriggerReconnect ⟨h.callback, h.pending⟩
    · exact ⟨h.callback, h.pending⟩

theorem checkHeartbeatTimeout (h : Wired s) (now : UInt64) :
    Wired (checkHeartbeatTimeout cfg now s).1 := by
  simp only [LoopbackIpcClient.checkHeartbeatTimeout]
  split_ifs
  · exact h
  · exact h
  · refine tryTriggerReconnect ?_
    have hcb := ConnectionMonitor.setState_reconnectCallback
      (s.monitor.recordHeartbeatFailure true now).1 .disconnected now
    exact ⟨hcb.trans h.callback, h.pending⟩
  · exact ⟨h.callback, h.pending⟩

theorem handleHeartbeatTimer (h : Wired s) (now : UInt64) :
    Wired (handleHeartbeatTimer cfg now s).1 := by
  have hping : Wired (sendHeartbeatPing s).1 := ⟨h.callback, h.pending⟩
  have hcheck : Wired (LoopbackIpcClient.checkHeartbeatTimeout cfg now (sendHeartbeatPing s).1).1 :=
    hping.checkHeartbeatTimeout now
  unfold LoopbackIpcClient.handleHeartbeatTimer
  split
  · exact ⟨hcheck.callback, hcheck.pending⟩
  · exact h

theorem step (h : Wired s) {a : Act} {r : LoopbackIpcClient × List Event}
    (hstep : step p cfg s a = some r) : Wired r.1 := by
  cases a with
  | connect resolves now =>
    cases hstep
    exact h.connect resolves now
  | disconnect now =>
    cases hstep
    have hset := (h.setState .disconnected now).callback
    exact ⟨hset, h.pending⟩
  | send data =>
    cases hstep
    exact doSendFromQueue ⟨h.callback, h.pending⟩
  | enableHeartbeat enable =>
    cases hstep
    simp only [LoopbackIpcClient.enableHeartbeat]
    split
    · exact ⟨h.callback, h.pending⟩
    · exact ⟨h.callback, h.pending⟩
  | reconnectTimer i resolves now =>
    have herase : Wired { s with reconnectTimer := s.reconnectTimer.eraseIdx i } :=
      ⟨h.callback, h.pending⟩
    obtain ⟨-, rfl⟩ | ⟨-, rfl⟩ := wait_cases hstep
    · unfold handleReconnectTimer
      split
      · exact herase.connect resolves now
      · exact herase
    · exact herase
  | heartbeatTimer i now =>
    have herase : Wired { s with heartbeatTimer := s.heartbeatTimer.eraseIdx i } :=
      ⟨h.callback, h.pending⟩
    obtain ⟨-, rfl⟩ | ⟨-, rfl⟩ := wait_cases hstep
    · exact herase.handleHeartbeatTimer now
    · exact herase
  | connectDone i ec now =>
    obtain ⟨-, rfl⟩ := connectDone_cases hstep
    refine handleConnectResult ?_ ec now
    exact h.callback
  | readDone ec bytes now =>
    obtain rfl := readDone_cases hstep
    refine handleReadResult ?_ ec bytes now
    exact ⟨h.callback, h.pending⟩
  | writeDone ec now =>
    obtain rfl := writeDone_cases hstep
    refine handleSendResult ?_ ec now
    exact ⟨h.callback, h.pending⟩
  | pingDone ec now =>
    obtain rfl := pingDone_cases hstep
    refine handlePingResult ?_ ec now
    exact ⟨h.callback, h.pending⟩
  | _ =>
    cases hstep
    exact ⟨h.callback, h.pending⟩

/-- Every client that can be reached is. -/
theorem of_reaches {now : UInt64} (h : (link p cfg).Reaches (.create now) s) : Wired s :=
  h.invariant (fun _ _ _ _ hw hstep => hw.step hstep) (.create now)

end Wired

end LoopbackIpcClient

end LuspUpload.Ipc
