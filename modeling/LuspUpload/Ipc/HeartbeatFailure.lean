import LuspUpload.Ipc.LinkSteps

/-!
# Ipc.HeartbeatFailure — the two ways in which the heartbeat gives up

A PING that cannot be written and a PONG that does not come are counted together.  The handler that
counts the last failure asks the monitor for a reconnect: the write handler does so directly, the timeout
calls `disconnect()` first.  That sets the permanent stop, and `try_reconnect` then does nothing.
-/

namespace LuspUpload.Ipc

open Lib Config

namespace LoopbackIpcClient

variable {p : Platform} {cfg : NetworkConfig} {s : LoopbackIpcClient}

/-- The step from `s` to `s'` counts a failure of the heartbeat, and that makes too many. -/
def FailsLast (cfg : NetworkConfig) (s s' : LoopbackIpcClient) : Prop :=
  s'.heartbeatFailureCount = s.heartbeatFailureCount + 1 ∧
    cfg.heartbeatMaxFailures ≤ s'.heartbeatFailureCount

/-- Nothing was counted. -/
theorem not_failsLast {s' : LoopbackIpcClient}
    (h : s'.heartbeatFailureCount = s.heartbeatFailureCount) : ¬ FailsLast cfg s s' := by
  rintro ⟨hcount, -⟩
  rw [h] at hcount
  simp at hcount

/-- A reconnect is asked for: the timer is set unless another reconnect was taken or the client is
stopped. -/
theorem tryTriggerReconnect_reconnectTimer (hcb : s.monitor.reconnectCallback = true)
    (hauto : cfg.enableAutoReconnect = true)
    (hmax : s.currentReconnectAttempts < cfg.maxReconnectAttempts.toInt32.toInt) :
    (tryTriggerReconnect cfg s).1.reconnectTimer =
      if s.monitor.isReconnectingFlag = false ∧ s.isPermanentlyStopped = false then
        s.reconnectTimer.rearm
      else s.reconnectTimer := by
  by_cases hstop : s.isPermanentlyStopped = true
  · rw [tryTriggerReconnect_stopped hstop, if_neg (by simp [hstop])]
  · have hstop : s.isPermanentlyStopped = false := eq_false_of_ne_true hstop
    by_cases hflag : s.monitor.isReconnectingFlag = true
    · rw [if_neg (by simp [hflag])]
      simp [tryTriggerReconnect, ConnectionMonitor.tryTriggerReconnect, hflag, noticed]
    · have hflag : s.monitor.isReconnectingFlag = false := eq_false_of_ne_true hflag
      rw [if_pos ⟨hflag, hstop⟩]
      simp [tryTriggerReconnect, ConnectionMonitor.tryTriggerReconnect, hflag, hcb, noticed,
        tryReconnect, hstop, hauto, Int.not_le.mpr hmax]

/-- The handler of the heartbeat timer never sets the reconnect timer. -/
theorem handleHeartbeatTimer_reconnectTimer (now : UInt64) :
    (handleHeartbeatTimer cfg now s).1.reconnectTimer = s.reconnectTimer := by
  unfold handleHeartbeatTimer
  split
  · show (checkHeartbeatTimeout cfg now (sendHeartbeatPing s).1).1.reconnectTimer = _
    by_cases htime : InTime cfg (sendHeartbeatPing s).1.lastPongTimeMs now
    · rw [checkHeartbeatTimeout_inTime htime]
      rfl
    · exact (checkHeartbeatTimeout_late htime).2.1
  · rfl

/-- **Heartbeat failures**: in every reachable state with automatic reconnects, attempts left and no
reconnect timer set, a handler that counts the last failure sets the timer exactly when it is the write
handler of a PING, no reconnect is taken at the monitor, and the client is not stopped. -/
theorem failsLast_armed_iff {start : UInt64} (hreach : (link p cfg).Reaches (create start) s)
    (hauto : cfg.enableAutoReconnect = true)
    (hmax : s.currentReconnectAttempts < cfg.maxReconnectAttempts.toInt32.toInt)
    (hidle : .armed ∉ s.reconnectTimer) {a : Act} {r : LoopbackIpcClient × List Event}
    (hstep : (link p cfg).step s a = some r) (hlast : FailsLast cfg s r.1) :
    .armed ∈ r.1.reconnectTimer ↔
      (∃ e now, a = .pingDone (some e) now) ∧ s.monitor.isReconnectingFlag = false ∧
        s.isPermanentlyStopped = false := by
  obtain hstill | ⟨i, now, rfl, rfl⟩ | ⟨e, now, rfl, rfl⟩ | ⟨i, now, rfl, -, rfl⟩ := step_still hstep
  · exact absurd hlast (not_failsLast hstill.failures)
  · exact absurd hlast (not_failsLast (handleConnectResult_connected cfg now _).1)
  · simp only [handlePingResult] at hlast ⊢
    have hcb := (Wired.of_reaches hreach).callback
    split at hlast
    · rename_i hfull
      have htimer : (tryTriggerReconnect cfg _).1.reconnectTimer =
          if s.monitor.isReconnectingFlag = false ∧ s.isPermanentlyStopped = false then
            s.reconnectTimer.rearm
          else s.reconnectTimer :=
        @tryTriggerReconnect_reconnectTimer cfg { s with
          pings := s.pings - 1
          heartbeatFailureCount := s.heartbeatFailureCount + 1
          monitor := (s.monitor.recordHeartbeatFailure false now).1 } hcb hauto hmax
      rw [if_pos hfull, htimer]
      constructor
      · intro harmed
        split_ifs at harmed with hfree
        · exact ⟨⟨e, now, rfl⟩, hfree⟩
        · exact absurd harmed hidle
      · rintro ⟨-, hfree⟩
        rw [if_pos hfree]
        exact Timer.armed_mem_rearm
    · rename_i hfew
      exact absurd hlast.2 hfew
  · rw [handleHeartbeatTimer_reconnectTimer]
    constructor
    · intro harmed
      exact absurd harmed hidle
    · rintro ⟨⟨e, t, hping⟩, -⟩
      cases hping

/-- The first PING fails, and one failure is too many. -/
theorem failsLast_ping :
    ∃ s es r, (link .posix { heartbeatMaxFailures := 1 }).run (create 1)
        ([.connect true 2, .connectDone 0 none 1000] ++ tickAt 11000) = some (s, es) ∧
      (link .posix { heartbeatMaxFailures := 1 }).step s (.pingDone (some ⟨.system, 104⟩) 11001) = some r ∧
      .armed ∈ r.1.reconnectTimer := by
  have hend : ((link .posix { heartbeatMaxFailures := 1 }).run (create 1)
      ([.connect true 2, .connectDone 0 none 1000] ++ tickAt 11000)).map (fun q =>
        ((q.1.currentReconnectAttempts, q.1.reconnectTimer, q.1.monitor.isReconnectingFlag,
          q.1.isPermanentlyStopped, q.1.heartbeatFailureCount),
          ((link .posix { heartbeatMaxFailures := 1 }).step q.1
            (.pingDone (some ⟨.system, 104⟩) 11001)).map fun r => r.1.heartbeatFailureCount)) =
      some ((0, [], false, false, 0), some 1) := by rfl
  obtain ⟨⟨s, es⟩, hrun, hq⟩ := Option.map_eq_some_iff.mp hend
  simp only [Prod.mk.injEq] at hq
  obtain ⟨⟨hattempts, htimer, hflag, hstop, hcount⟩, hstep⟩ := hq
  obtain ⟨r, hstep, hfails⟩ := Option.map_eq_some_iff.mp hstep
  have hlast : FailsLast { heartbeatMaxFailures := 1 } s r.1 := by
    rw [FailsLast, hfails, hcount]
    decide
  refine ⟨s, es, r, hrun, hstep, ?_⟩
  refine (failsLast_armed_iff ⟨_, _, hrun⟩ rfl ?_ ?_ hstep hlast).mpr ⟨⟨_, _, rfl⟩, hflag, hstop⟩
  · rw [hattempts]
    decide
  · rw [htimer]
    exact List.not_mem_nil

/-- The server falls silent; the third tick behind the timeout gives up, and nobody reconnects. -/
theorem timeout_never_reconnects :
    ∃ s es r, (link .posix {}).run (create 1)
        ([.connect true 2, .connectDone 0 none 1000] ++ tickAt 11000 ++ tickAt 21000 ++ tickAt 31000 ++
          tickAt 41000 ++ tickAt 51000 ++ [.heartbeatExpires]) = some (s, es) ∧
      (s.currentReconnectAttempts, s.isConnecting, s.reconnectTimer, s.monitor.isReconnectingFlag,
        s.monitor.state, s.isPermanentlyStopped) = (0, false, [], false, .connected, false) ∧
      (link .posix {}).step s (.heartbeatTimer 0 61000) = some r ∧
      FailsLast {} s r.1 ∧ r.1.reconnectTimer = [] ∧ r.1.isPermanentlyStopped = true := by
  have hend : ((link .posix {}).run (create 1)
      ([.connect true 2, .connectDone 0 none 1000] ++ tickAt 11000 ++ tickAt 21000 ++ tickAt 31000 ++
        tickAt 41000 ++ tickAt 51000 ++ [.heartbeatExpires])).map (fun q =>
        ((q.1.currentReconnectAttempts, q.1.isConnecting, q.1.reconnectTimer,
          q.1.monitor.isReconnectingFlag, q.1.monitor.state, q.1.isPermanentlyStopped),
          q.1.heartbeatFailureCount,
          ((link .posix {}).step q.1 (.heartbeatTimer 0 61000)).map fun r =>
            (r.1.heartbeatFailureCount, r.1.reconnectTimer, r.1.isPermanentlyStopped))) =
      some ((0, false, [], false, .connected, false), 2, some (3, [], true)) := by rfl
  obtain ⟨⟨s, es⟩, hrun, hq⟩ := Option.map_eq_some_iff.mp hend
  obtain ⟨hstate, hq⟩ := Prod.mk.inj hq
  obtain ⟨hcount, hstep⟩ := Prod.mk.inj hq
  obtain ⟨r, hstep, hr⟩ := Option.map_eq_some_iff.mp hstep
  simp only [Prod.mk.injEq] at hr
  refine ⟨s, es, r, hrun, hstate, hstep, ?_, hr.2.1, hr.2.2⟩
  rw [FailsLast, hr.1, show s.heartbeatFailureCount = 2 from hcount]
  decide

end LoopbackIpcClient

end LuspUpload.Ipc
