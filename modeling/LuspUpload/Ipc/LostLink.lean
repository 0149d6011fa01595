import LuspUpload.Ipc.LinkSteps

/-!
# Ipc.LostLink — an established link that is lost

When a read or a write of a connected client fails, the monitor enters `Reconnecting`, and this takes the
flag that the reconnect callback needs.  From then on everything that asks for a reconnect finds the flag
taken: the other pending transfers, the PINGs, the timeout of the heartbeat.  So the client never tries to
connect again, unless the user calls `connect()` (`lost_link_stays_lost`).
-/

namespace LuspUpload.Ipc

open Lib Config

namespace ConnectionMonitor

/-- The link is lost in state `Connected`: the flag is taken, and the callback is not invoked. -/
theorem recordSendFailure_connected {p : Platform} {m : ConnectionMonitor} (hstate : m.state = .connected)
    {error : ErrorCode} (herror : isConnectionError p error) (now now' : UInt64) :
    (m.recordSendFailure p error true now now').1.isReconnectingFlag = true ∧
      (m.recordSendFailure p error true now now').1.state = .reconnecting ∧
      .reconnect ∉ (m.recordSendFailure p error true now now').2.1 := by
  have hcat : shouldTriggerReconnect (classifyError p error) = true := herror
  have hset : ((m.countSendFailure error (classifyError p error) now).setState
      .reconnecting now').1.isReconnectingFlag = true := by
    simp [setState_flag, hstate]
  have hreconnecting : ((m.countSendFailure error (classifyError p error) now).setState
      .reconnecting now').1.state = .reconnecting := setState_state _ _ _
  have hquiet := setState_quiet (m.countSendFailure error (classifyError p error) now) .reconnecting now'
  have htry : ∀ m' : ConnectionMonitor, m'.isReconnectingFlag = true →
      m'.tryTriggerReconnect = (m', [], false) := by
    intro m' hm'
    simp [tryTriggerReconnect, hm']
  simp only [recordSendFailure, hcat, if_true, countSendFailure_frame, hstate]
  split_ifs
  · rw [htry _ hset, List.append_nil]
    exact ⟨hset, hreconnecting, hquiet⟩
  · exact ⟨hset, hreconnecting, hquiet⟩

end ConnectionMonitor

namespace LoopbackIpcClient

variable {p : Platform} {cfg : NetworkConfig} {s s' : LoopbackIpcClient} {es : List Event}

/-- A pending transfer fails with an error of the link. -/
def Loses (p : Platform) : Act → Prop
  | .readDone (some error) _ _ => isConnectionError p error
  | .writeDone (some error) _ => isConnectionError p error
  | _ => False

/-- A connection attempt, a retry that is planned, or a success. -/
def Event.isRetry : Event → Bool
  | .attempted => true
  | .armed _ => true
  | .connected _ => true
  | _ => false

/-- The link is lost, and nothing is under way to get it back. -/
structure Lost (s : LoopbackIpcClient) : Prop where
  flag : s.monitor.isReconnectingFlag = true
  state : s.monitor.state ≠ .connected
  connects : s.connects = []
  dead : ¬ s.reconnectTimer.Live

/-- Lost still, and no retry. -/
structure StaysLost (r : LoopbackIpcClient × List Event) : Prop where
  lost : Lost r.1
  quiet : ∀ e ∈ r.2, e.isRetry = false

namespace Lost

theorem nothing (h : Lost s) : StaysLost (s, []) := ⟨h, fun _ he => absurd he List.not_mem_nil⟩

theorem withMonitor (h : Lost s) {m : ConnectionMonitor} (hflag : m.isReconnectingFlag = true)
    (hstate : m.state ≠ .connected) : Lost { s with monitor := m } := ⟨hflag, hstate, h.connects, h.dead⟩

theorem doSendFromQueue (h : Lost s) : Lost (doSendFromQueue s) := by
  obtain ⟨b, n, heq⟩ := doSendFromQueue_eq s
  rw [heq]
  exact ⟨h.flag, h.state, h.connects, h.dead⟩

theorem disconnect (h : Lost s) (now : UInt64) : Lost (disconnect now s) := by
  refine ⟨?_, ?_, h.connects, h.dead⟩
  · show (s.monitor.setState .disconnected now).1.isReconnectingFlag = true
    rw [ConnectionMonitor.setState_flag, h.flag]
    rfl
  · show (s.monitor.setState .disconnected now).1.state ≠ .connected
    rw [ConnectionMonitor.setState_state]
    exact nofun

/-- The flag is taken. -/
theorem tryTriggerReconnect (h : Lost s) : tryTriggerReconnect cfg s = (s, []) := by
  simp [LoopbackIpcClient.tryTriggerReconnect, ConnectionMonitor.tryTriggerReconnect, h.flag, noticed]

/-- A transfer that fails finds the flag taken. -/
theorem failure (h : Lost s) (error : ErrorCode) (now : UInt64) :
    Lost { s with monitor := (s.monitor.recordSendFailure p error true now now).1 } ∧
      noticed cfg (s.monitor.recordSendFailure p error true now now).2.1
        { s with monitor := (s.monitor.recordSendFailure p error true now now).1 } =
      ({ s with monitor := (s.monitor.recordSendFailure p error true now now).1 }, []) := by
  obtain ⟨hflag, hquiet⟩ := ConnectionMonitor.recordSendFailure_quiet
      (p := p) s.monitor h.flag error true now now
  refine ⟨h.withMonitor hflag ?_, if_neg hquiet⟩
  rw [ConnectionMonitor.recordSendFailure_state h.state]
  exact h.state

theorem handleReadResult (h : Lost s) (ec : Option ErrorCode) (bytes : List UInt8) (now : UInt64) :
    StaysLost (handleReadResult p cfg ec bytes now s) := by
  unfold LoopbackIpcClient.handleReadResult
  by_cases hread : ec = none ∧ bytes ≠ []
  · obtain ⟨n, heq⟩ := doRead_eq s
    rw [if_pos hread, heq]
    refine ⟨⟨h.flag, h.state, h.connects, h.dead⟩, ?_⟩
    cases s.onMessage <;> simp [Event.isRetry]
  · obtain ⟨hlost, hnoticed⟩ := @failure p cfg s h (ec.getD ⟨.system, 0⟩) now
    rw [if_neg hread]
    simp only [ConnectionMonitor.recordReadFailure, hnoticed]
    exact hlost.nothing

theorem handleSendResult (h : Lost s) (ec : Option ErrorCode) (now : UInt64) :
    StaysLost (handleSendResult p cfg ec now s) := by
  have hidle : Lost { s with isSending := false } := ⟨h.flag, h.state, h.connects, h.dead⟩
  cases ec with
  | none =>
    refine Lost.nothing (Lost.doSendFromQueue ?_)
    exact ⟨h.flag, h.state, h.connects, h.dead⟩
  | some error =>
    obtain ⟨hlost, hnoticed⟩ := @failure p cfg _ hidle error now
    simp only [LoopbackIpcClient.handleSendResult, hnoticed]
    split_ifs
    · exact hlost.nothing
    · exact hlost.doSendFromQueue.nothing

theorem handlePingResult (h : Lost s) (ec : Option ErrorCode) (now : UInt64) :
    StaysLost (handlePingResult cfg ec now s) := by
  cases ec with
  | none => exact h.nothing
  | some e =>
    have hcounted : Lost { s with
        heartbeatFailureCount := s.heartbeatFailureCount + 1
        monitor := (s.monitor.recordHeartbeatFailure false now).1 } :=
      ⟨h.flag, h.state, h.connects, h.dead⟩
    simp only [LoopbackIpcClient.handlePingResult]
    split_ifs
    · rw [hcounted.tryTriggerReconnect]
      exact hcounted.nothing
    · exact hcounted.nothing

theorem checkHeartbeatTimeout (h : Lost s) (now : UInt64) :
    StaysLost (checkHeartbeatTimeout cfg now s) := by
  have hcounted : Lost { s with heartbeatFailureCount := s.heartbeatFailureCount + 1 } :=
    ⟨h.flag, h.state, h.connects, h.dead⟩
  have hreported : Lost { s with
      heartbeatFailureCount := s.heartbeatFailureCount + 1
      monitor := (s.monitor.recordHeartbeatFailure true now).1 } :=
    ⟨h.flag, h.state, h.connects, h.dead⟩
  simp only [LoopbackIpcClient.checkHeartbeatTimeout]
  split_ifs
  · exact h.nothing
  · exact h.nothing
  · rw [(hreported.disconnect now).tryTriggerReconnect]
    exact ⟨hreported.disconnect now, by simp [Event.isRetry]⟩
  · exact ⟨hcounted, by simp [Event.isRetry]⟩

theorem handleHeartbeatTimer (h : Lost s) (now : UInt64) : StaysLost (handleHeartbeatTimer cfg now s) := by
  simp only [LoopbackIpcClient.handleHeartbeatTimer]
  split_ifs
  · have hping : Lost (sendHeartbeatPing s).1 := ⟨h.flag, h.state, h.connects, h.dead⟩
    obtain ⟨hlost, hquiet⟩ := @checkHeartbeatTimeout cfg _ hping now
    refine ⟨⟨hlost.flag, hlost.state, hlost.connects, hlost.dead⟩, ?_⟩
    intro e he
    rcases List.mem_cons.mp he with rfl | he
    · rfl
    · rcases List.mem_append.mp he with he | he
      · obtain rfl := List.mem_singleton.mp he
        rfl
      · exact hquiet e he
  · exact h.nothing

/-- Only a `connect()` of the user gets it back. -/
theorem step (h : Lost s) {a : Act} {r : LoopbackIpcClient × List Event}
    (ha : ∀ resolves t, a ≠ .connect resolves t) (hstep : step p cfg s a = some r) : StaysLost r := by
  cases a with
  | connect resolves now => exact absurd rfl (ha resolves now)
  | disconnect now =>
    cases hstep
    exact (h.disconnect now).nothing
  | send data =>
    cases hstep
    have hqueued : Lost { s with queue := s.queue ++ [data] } := ⟨h.flag, h.state, h.connects, h.dead⟩
    exact hqueued.doSendFromQueue.nothing
  | enableHeartbeat enable =>
    cases hstep
    refine Lost.nothing ?_
    simp only [LoopbackIpcClient.enableHeartbeat]
    split_ifs
    · exact ⟨h.flag, h.state, h.connects, h.dead⟩
    · exact ⟨h.flag, h.state, h.connects, h.dead⟩
  | reconnectExpires =>
    cases hstep
    exact Lost.nothing ⟨h.flag, h.state, h.connects, fun hlive => h.dead (Timer.live_expire.mp hlive)⟩
  | reconnectTimer i resolves now =>
    obtain ⟨hi, rfl⟩ | ⟨-, rfl⟩ := wait_cases hstep
    · exact absurd ⟨.due, List.mem_of_getElem? hi, by decide⟩ h.dead
    · exact Lost.nothing ⟨h.flag, h.state, h.connects, fun hlive => h.dead (Timer.live_of_eraseIdx hlive)⟩
  | heartbeatTimer i now =>
    have herase : Lost { s with heartbeatTimer := s.heartbeatTimer.eraseIdx i } :=
      ⟨h.flag, h.state, h.connects, h.dead⟩
    obtain ⟨-, rfl⟩ | ⟨-, rfl⟩ := wait_cases hstep
    · exact herase.handleHeartbeatTimer now
    · exact herase.nothing
  | connectDone i ec now =>
    simp [LoopbackIpcClient.step, h.connects] at hstep
  | readDone ec bytes now =>
    obtain rfl := readDone_cases hstep
    have hread : Lost { s with reads := s.reads - 1 } := ⟨h.flag, h.state, h.connects, h.dead⟩
    exact hread.handleReadResult ec bytes now
  | writeDone ec now =>
    obtain rfl := writeDone_cases hstep
    have hwritten : Lost { s with writes := s.writes - 1 } := ⟨h.flag, h.state, h.connects, h.dead⟩
    exact hwritten.handleSendResult ec now
  | pingDone ec now =>
    obtain rfl := pingDone_cases hstep
    have hping : Lost { s with pings := s.pings - 1 } := ⟨h.flag, h.state, h.connects, h.dead⟩
    exact hping.handlePingResult ec now
  | _ =>
    cases hstep
    exact Lost.nothing ⟨h.flag, h.state, h.connects, h.dead⟩

/-- So does a whole schedule. -/
theorem run (h : Lost s) {as : List Act} (has : ∀ resolves t, .connect resolves t ∉ as)
    (hrun : (link p cfg).run s as = some (s', es)) : StaysLost (s', es) := by
  have halong : (link p cfg).Along (fun _ a => ∀ resolves t, a ≠ .connect resolves t) s as := by
    refine Machine.along_of_forall ?_ s
    intro a ha resolves t hconnect
    exact has resolves t (hconnect ▸ ha)
  refine halong.invariant (I := fun s es => StaysLost (s, es)) ?_ (h := []) h.nothing hrun
  rintro s es a s' es' ⟨hs, hes⟩ ha hstep
  obtain ⟨hs', hes'⟩ := hs.step ha hstep
  refine ⟨hs', ?_⟩
  intro e he
  rcases List.mem_append.mp he with he | he
  · exact hes e he
  · exact hes' e he

/-- The failure of a transfer. -/
theorem of_loses (hconnected : s.monitor.state = .connected) (hconnects : s.connects = [])
    (hdead : ¬ s.reconnectTimer.Live) {a : Act} (ha : Loses p a) {r : LoopbackIpcClient × List Event}
    (hstep : LoopbackIpcClient.step p cfg s a = some r) : Lost r.1 ∧ r.1.monitor.state = .reconnecting ∧
      r.2 = [] := by
  have hlost : ∀ (s : LoopbackIpcClient) (error : ErrorCode) (now : UInt64), s.monitor.state = .connected →
      s.connects = [] → ¬ s.reconnectTimer.Live → isConnectionError p error →
      let r := s.monitor.recordSendFailure p error true now now
      noticed cfg r.2.1 { s with monitor := r.1 } = ({ s with monitor := r.1 }, []) ∧
        Lost { s with monitor := r.1 } ∧ r.1.state = .reconnecting := by
    intro s error now hconnected hconnects hdead herror r
    obtain ⟨hflag, hstate, hquiet⟩ :=
        ConnectionMonitor.recordSendFailure_connected hconnected herror now now
    have hne : r.1.state ≠ .connected := by
      rw [hstate]
      exact nofun
    exact ⟨if_neg hquiet, ⟨hflag, hne, hconnects, hdead⟩, hstate⟩
  cases a with
  | readDone ec bytes now =>
    cases ec with
    | none => exact absurd ha id
    | some error =>
      obtain rfl := readDone_cases hstep
      obtain ⟨hnoticed, hlost', hstate⟩ :=
        hlost { s with reads := s.reads - 1 } error now hconnected hconnects hdead ha
      have hread : LoopbackIpcClient.handleReadResult p cfg (some error) bytes now
          { s with reads := s.reads - 1 } =
          noticed cfg (s.monitor.recordSendFailure p error true now now).2.1
            { s with reads := s.reads - 1, monitor :=
              (s.monitor.recordSendFailure p error true now now).1 } := by
        rw [LoopbackIpcClient.handleReadResult, if_neg (by simp)]
        rfl
      rw [hread, hnoticed]
      exact ⟨hlost', hstate, rfl⟩
  | writeDone ec now =>
    cases ec with
    | none => exact absurd ha id
    | some error =>
      obtain rfl := writeDone_cases hstep
      obtain ⟨hnoticed, hlost', hstate⟩ :=
        hlost { s with writes := s.writes - 1, isSending := false } error now hconnected hconnects hdead ha
      simp only [LoopbackIpcClient.handleSendResult, hnoticed]
      split_ifs
      · exact ⟨hlost', hstate, rfl⟩
      · obtain ⟨b, n, heq⟩ := doSendFromQueue_eq { s with
          writes := s.writes - 1
          isSending := false
          monitor := (s.monitor.recordSendFailure p error true now now).1 }
        refine ⟨hlost'.doSendFromQueue, ?_, rfl⟩
        rw [heq]
        exact hstate
  | _ => exact absurd ha id

end Lost

/-- **A lost link stays lost** — when a read or a write of a connected client fails with an error of the
link, while no connect and no wait of the reconnect timer is pending, then in no schedule that follows
does the client try to connect, plan a retry or come back to `Connected`, until the user calls
`connect()`; `is_reconnecting()` says all the time that it does. -/
theorem lost_link_stays_lost (hconnected : s.monitor.state = .connected) (hconnects : s.connects = [])
    (hdead : ¬ s.reconnectTimer.Live) {a : Act} (ha : Loses p a) {as : List Act}
    (has : ∀ resolves t, .connect resolves t ∉ as) (hrun : (link p cfg).run s (a :: as) = some (s', es)) :
    (∀ e ∈ es, e.isRetry = false) ∧ s'.monitor.state ≠ .connected ∧
      s'.monitor.isReconnectingFlag = true := by
  obtain ⟨s₁, es₁, es₂, hstep, hrest, rfl⟩ := Machine.run_cons_inv hrun
  obtain ⟨hlost, -, hnone⟩ := Lost.of_loses hconnected hconnects hdead ha hstep
  obtain ⟨hlost', hquiet⟩ := hlost.run has hrest
  obtain rfl : es₁ = [] := hnone
  exact ⟨by simpa using hquiet, hlost'.state, hlost'.flag⟩

/-- A client that has just connected. -/
def justConnected : LoopbackIpcClient :=
  (((link .posix {}).run (create 1) [.connect true 2, .connectDone 0 none 3]).map (·.1)).getD (create 1)

/-- The server resets the connection; the next PING fails too, and the heartbeat goes on. -/
theorem lost_link_stays_lost_reset : ∃ s' es,
    (link .posix {}).run justConnected [.readDone (some ⟨.system, 104⟩) [] 4, .heartbeatExpires,
      .heartbeatTimer 0 40000, .pingDone (some ⟨.system, 32⟩) 40001, .heartbeatExpires,
        .heartbeatTimer 0 70000] =
        some (s', es) ∧
    (∀ e ∈ es, e.isRetry = false) ∧ s'.monitor.state ≠ .connected ∧ s'.monitor.isReconnectingFlag = true :=
  ⟨_, _, rfl, @lost_link_stays_lost .posix {} justConnected _ _ rfl rfl (by decide)
    (.readDone (some ⟨.system, 104⟩) [] 4) rfl [.heartbeatExpires, .heartbeatTimer 0 40000,
      .pingDone (some ⟨.system, 32⟩) 40001, .heartbeatExpires, .heartbeatTimer 0 70000] (by simp) rfl⟩

end LoopbackIpcClient

end LuspUpload.Ipc
