import LuspUpload.Ipc.LinkSteps

/-!
# Ipc.Final — what may follow `disconnect()`

`disconnect()` sets the permanent stop, closes the socket and stops the heartbeat.  It leaves the
reconnect timer running, and the handler of that timer calls the same `connect()` as the user, which
clears the stop.  So `disconnect()` is final exactly when no wait of that timer is outstanding.
-/

namespace LuspUpload.Ipc

open Lib Config

namespace LoopbackIpcClient

variable {p : Platform} {cfg : NetworkConfig} {s : LoopbackIpcClient}

/-- `disconnect()` is final: until the user calls `connect()`, nothing that happens afterwards, in any
order, starts a connection attempt or takes the monitor out of `Disconnected`. -/
def Final (p : Platform) (cfg : NetworkConfig) (s : LoopbackIpcClient) : Prop :=
  ∀ now as s' es, (∀ resolves t, .connect resolves t ∉ as) →
    (link p cfg).run s (.disconnect now :: as) = some (s', es) →
    .attempted ∉ es ∧ s'.monitor.state = .disconnected

/-! ### The stopped client -/

/-- Stopped for good. -/
structure Stopped (cfg : NetworkConfig) (s : LoopbackIpcClient) : Prop where
  stopped : s.isPermanentlyStopped = true
  state : s.monitor.state = .disconnected
  closed : s.isOpen = false
  quiet : cfg.enableAutoReconnect = false ∨ ¬ s.reconnectTimer.Live

namespace Stopped

theorem disconnect (h : cfg.enableAutoReconnect = false ∨ ¬ s.reconnectTimer.Live) (now : UInt64) :
    Stopped cfg (disconnect now s) :=
  ⟨rfl, ConnectionMonitor.setState_state _ _ _, rfl, h⟩

theorem withMonitor (h : Stopped cfg s) {m : ConnectionMonitor} (hm : m.state = .disconnected) :
    Stopped cfg { s with monitor := m } :=
  ⟨h.stopped, hm, h.closed, h.quiet⟩

/-- The monitor sees a failing transfer: it stays `Disconnected`, and its callback does nothing. -/
theorem recordSendFailure (h : Stopped cfg s) (error : ErrorCode) (now : UInt64) :
    (s.monitor.recordSendFailure p error true now now).1.state = .disconnected := by
  have hne : s.monitor.state ≠ .connected := by
    rw [h.state]
    exact nofun
  exact (ConnectionMonitor.recordSendFailure_state hne error true now now).trans h.state

theorem doSendFromQueue (h : Stopped cfg s) : Stopped cfg (doSendFromQueue s) := by
  obtain ⟨b, n, heq⟩ := doSendFromQueue_eq s
  rw [heq]
  exact ⟨h.stopped, h.state, h.closed, h.quiet⟩

/-- The handler of a wait that was never aborted finds automatic reconnects disabled. -/
theorem handleReconnectTimer (h : Stopped cfg s) {i : ℕ} (hi : s.reconnectTimer[i]? = some Wait.due)
    (resolves : Bool) (now : UInt64) (s' : LoopbackIpcClient) :
    handleReconnectTimer cfg resolves now s' = (s', []) := by
  have hauto : cfg.enableAutoReconnect = false := by
    rcases h.quiet with hauto | hdead
    · exact hauto
    · exact absurd ⟨.due, List.mem_of_getElem? hi, nofun⟩ hdead
  simp [LoopbackIpcClient.handleReconnectTimer, hauto]

theorem handleReadResult (h : Stopped cfg s) (ec : Option ErrorCode) (bytes : List UInt8)
    (now : UInt64) : Stopped cfg (handleReadResult p cfg ec bytes now s).1 ∧
      .attempted ∉ (handleReadResult p cfg ec bytes now s).2 := by
  obtain ⟨n, heq⟩ := doRead_eq s
  simp only [LoopbackIpcClient.handleReadResult]
  split
  · rw [heq]
    refine ⟨⟨h.stopped, h.state, h.closed, h.quiet⟩, ?_⟩
    split
    · simp
    · simp
  · have hfailed := h.withMonitor (h.recordSendFailure (p := p) (ec.getD ⟨.system, 0⟩) now)
    rw [ConnectionMonitor.recordReadFailure, noticed_stopped hfailed.stopped]
    exact ⟨hfailed, List.not_mem_nil⟩

theorem handleSendResult (h : Stopped cfg s) (ec : Option ErrorCode) (now : UInt64) :
    Stopped cfg (handleSendResult p cfg ec now s).1 ∧
      .attempted ∉ (handleSendResult p cfg ec now s).2 := by
  cases ec with
  | none =>
    have hsent : Stopped cfg { s with
        isSending := false
        queue := s.queue.tail
        monitor := s.monitor.recordSendSuccess now } := ⟨h.stopped, h.state, h.closed, h.quiet⟩
    exact ⟨hsent.doSendFromQueue, List.not_mem_nil⟩
  | some error =>
    have hfailed : Stopped cfg { s with
        isSending := false
        monitor := (s.monitor.recordSendFailure p error true now now).1 } :=
      ⟨h.stopped, h.recordSendFailure error now, h.closed, h.quiet⟩
    simp only [LoopbackIpcClient.handleSendResult]
    rw [noticed_stopped hfailed.stopped]
    split
    · exact ⟨hfailed, List.not_mem_nil⟩
    · exact ⟨hfailed.doSendFromQueue, List.not_mem_nil⟩

theorem tryTriggerReconnect (h : Stopped cfg s) :
    Stopped cfg (tryTriggerReconnect cfg s).1 ∧ .attempted ∉ (tryTriggerReconnect cfg s).2 := by
  have htriggered : Stopped cfg { s with monitor := s.monitor.tryTriggerReconnect.1 } := by
    refine h.withMonitor ?_
    unfold ConnectionMonitor.tryTriggerReconnect
    split
    · exact h.state
    · exact h.state
  rw [tryTriggerReconnect_stopped h.stopped]
  exact ⟨htriggered, List.not_mem_nil⟩

theorem handlePingResult (h : Stopped cfg s) (ec : Option ErrorCode) (now : UInt64) :
    Stopped cfg (handlePingResult cfg ec now s).1 ∧
      .attempted ∉ (handlePingResult cfg ec now s).2 := by
  cases ec with
  | none => exact ⟨h, List.not_mem_nil⟩
  | some e =>
    have hcounted : Stopped cfg { s with
        heartbeatFailureCount := s.heartbeatFailureCount + 1
        monitor := (s.monitor.recordHeartbeatFailure false now).1 } :=
      ⟨h.stopped, h.state, h.closed, h.quiet⟩
    simp only [LoopbackIpcClient.handlePingResult]
    split
    · exact hcounted.tryTriggerReconnect
    · exact ⟨hcounted, List.not_mem_nil⟩

/-- Only a `connect()` of the user ends the stop. -/
theorem step (h : Stopped cfg s) {a : Act} {r : LoopbackIpcClient × List Event}
    (ha : ∀ resolves t, a ≠ .connect resolves t) (hstep : step p cfg s a = some r) :
    Stopped cfg r.1 ∧ .attempted ∉ r.2 := by
  cases a with
  | connect resolves now => exact absurd rfl (ha resolves now)
  | disconnect now =>
    cases hstep
    exact ⟨disconnect h.quiet now, List.not_mem_nil⟩
  | send data =>
    cases hstep
    have hqueued : Stopped cfg { s with queue := s.queue ++ [data] } :=
      ⟨h.stopped, h.state, h.closed, h.quiet⟩
    exact ⟨hqueued.doSendFromQueue, List.not_mem_nil⟩
  | enableHeartbeat enable =>
    cases hstep
    have heq : enableHeartbeat enable s = stopHeartbeatTimer { s with heartbeatEnabled := enable } := by
      simp [enableHeartbeat, h.closed]
    rw [heq]
    exact ⟨⟨h.stopped, h.state, h.closed, h.quiet⟩, List.not_mem_nil⟩
  | reconnectExpires =>
    cases hstep
    refine ⟨⟨h.stopped, h.state, h.closed, ?_⟩, List.not_mem_nil⟩
    rcases h.quiet with hauto | hdead
    · exact .inl hauto
    · exact .inr fun hlive => hdead (Timer.live_expire.mp hlive)
  | reconnectTimer i resolves now =>
    have herase : Stopped cfg { s with reconnectTimer := s.reconnectTimer.eraseIdx i } := by
      refine ⟨h.stopped, h.state, h.closed, ?_⟩
      rcases h.quiet with hauto | hdead
      · exact .inl hauto
      · exact .inr fun hlive => hdead (Timer.live_of_eraseIdx hlive)
    obtain ⟨hi, rfl⟩ | ⟨-, rfl⟩ := wait_cases hstep
    · rw [h.handleReconnectTimer hi]
      exact ⟨herase, List.not_mem_nil⟩
    · exact ⟨herase, List.not_mem_nil⟩
  | heartbeatTimer i now =>
    have herase : Stopped cfg { s with heartbeatTimer := s.heartbeatTimer.eraseIdx i } :=
      ⟨h.stopped, h.state, h.closed, h.quiet⟩
    obtain ⟨-, rfl⟩ | ⟨-, rfl⟩ := wait_cases hstep
    · rw [handleHeartbeatTimer_closed herase.closed]
      exact ⟨herase, List.not_mem_nil⟩
    · exact ⟨herase, List.not_mem_nil⟩
  | connectDone i ec now =>
    obtain ⟨hopen, rfl⟩ := connectDone_cases hstep
    cases ec with
    | none => simp [h.closed] at hopen
    | some e =>
      rw [handleConnectResult_stopped (s := { s with connects := s.connects.eraseIdx i }) h.stopped]
      refine ⟨⟨h.stopped, ?_, h.closed, h.quiet⟩, List.not_mem_nil⟩
      exact ConnectionMonitor.setState_state _ _ _
  | readDone ec bytes now =>
    obtain rfl := readDone_cases hstep
    refine handleReadResult ?_ ec bytes now
    exact ⟨h.stopped, h.state, h.closed, h.quiet⟩
  | writeDone ec now =>
    obtain rfl := writeDone_cases hstep
    refine handleSendResult ?_ ec now
    exact ⟨h.stopped, h.state, h.closed, h.quiet⟩
  | pingDone ec now =>
    obtain rfl := pingDone_cases hstep
    refine handlePingResult ?_ ec now
    exact ⟨h.stopped, h.state, h.closed, h.quiet⟩
  | _ =>
    cases hstep
    exact ⟨⟨h.stopped, h.state, h.closed, h.quiet⟩, List.not_mem_nil⟩

/-- So does a whole schedule. -/
theorem run (h : Stopped cfg s) {as : List Act} (has : ∀ resolves t, .connect resolves t ∉ as)
    {s' : LoopbackIpcClient} {es : List Event} (hrun : (link p cfg).run s as = some (s', es)) :
    Stopped cfg s' ∧ .attempted ∉ es := by
  have halong : (link p cfg).Along (fun _ a => ∀ resolves t, a ≠ .connect resolves t) s as := by
    refine Machine.along_of_forall ?_ s
    intro a ha resolves t hconnect
    exact has resolves t (hconnect ▸ ha)
  refine halong.invariant (I := fun s es => Stopped cfg s ∧ .attempted ∉ es) ?_ (h := [])
    ⟨h, List.not_mem_nil⟩ hrun
  rintro s es a s' es' ⟨hs, hes⟩ ha hstep
  obtain ⟨hs', hes'⟩ := hs.step ha hstep
  refine ⟨hs', ?_⟩
  intro hmem
  rcases List.mem_append.mp hmem with hmem | hmem
  · exact hes hmem
  · exact hes' hmem

end Stopped

/-! ### The timer that was left running -/

theorem connect_attempts (hidle : s.isConnecting = false) (resolves : Bool) (now : UInt64) :
    .attempted ∈ (connect cfg resolves now s).2 := by
  simp only [connect, hidle, Bool.false_eq_true, if_false]
  split
  · exact List.mem_cons_self
  · exact List.mem_cons_self

/-- A live wait of the reconnect timer ends in an attempt. -/
theorem live_attempts (hauto : cfg.enableAutoReconnect = true) (hlive : s.reconnectTimer.Live)
    (hidle : s.isConnecting = false) :
    ∃ i s' es, (link p cfg).run s [.reconnectExpires, .reconnectTimer i true 0] = some (s', es) ∧
      .attempted ∈ es := by
  obtain ⟨i, hi⟩ := Timer.exists_due_expire hlive
  obtain ⟨r, hfires, hmem⟩ : ∃ r, (link p cfg).step { s with reconnectTimer := s.reconnectTimer.expire }
      (.reconnectTimer i true 0) = some r ∧ .attempted ∈ r.2 := by
    have hidle' : { s with reconnectTimer := s.reconnectTimer.expire.eraseIdx i }.isConnecting = false :=
      hidle
    refine ⟨_, ?_, @connect_attempts cfg _ hidle' true 0⟩
    show (s.reconnectTimer.expire[i]?.bind _) = _
    rw [hi]
    simp [onWait, handleReconnectTimer, hauto]
  refine ⟨i, r.1, [] ++ (r.2 ++ []), Machine.run_cons rfl (Machine.run_cons hfires (Machine.run_nil _)), ?_⟩
  simpa using hmem

/-- A connect that was pending when the client was stopped fails, and nothing follows. -/
theorem connectDone_stopped (h : s.isPermanentlyStopped = true) {socket : ℕ} {rest : List ℕ}
    (hconnects : s.connects = socket :: rest) (e : ErrorCode) (now : UInt64) :
    (link p cfg).step s (.connectDone 0 (some e) now) =
      some (setState .disconnected now { s with connects := rest, isConnecting := false }, []) := by
  have hfails := @handleConnectResult_stopped cfg { s with connects := rest } h e now
  show (s.connects[0]?.bind _) = _
  rw [hconnects]
  simpa using hfails

/-- **Disconnect**: in every reachable state, `disconnect()` is final exactly when automatic reconnects
are disabled or every wait of the reconnect timer has been aborted. -/
theorem final_iff {start : UInt64} (hreach : (link p cfg).Reaches (create start) s) :
    Final p cfg s ↔ cfg.enableAutoReconnect = false ∨ ¬ s.reconnectTimer.Live := by
  constructor
  · intro hfinal
    by_contra hno
    obtain ⟨hauto, hlive⟩ := not_or.mp hno
    have hauto : cfg.enableAutoReconnect = true := by simpa using hauto
    have hlive : Timer.Live (disconnect 0 s).reconnectTimer := not_not.mp hlive
    by_cases hbusy : s.isConnecting = true
    · -- the pending connect completes first
      obtain ⟨socket, rest, hconnects⟩ := List.exists_cons_of_ne_nil ((Wired.of_reaches hreach).pending hbusy)
      have hdone := @connectDone_stopped p cfg (disconnect 0 s) rfl socket rest hconnects ⟨.system, 0⟩ 0
      obtain ⟨i, s', es, hrun, hmem⟩ := @live_attempts p cfg (setState .disconnected 0
        { disconnect 0 s with connects := rest, isConnecting := false }) hauto hlive rfl
      refine (hfinal 0 _ s' _ ?_ (Machine.run_cons rfl (Machine.run_cons hdone hrun))).1 hmem
      simp
    · have hidle : (disconnect 0 s).isConnecting = false := eq_false_of_ne_true hbusy
      obtain ⟨i, s', es, hrun, hmem⟩ := live_attempts (p := p) hauto hlive hidle
      refine (hfinal 0 _ s' _ ?_ (Machine.run_cons rfl hrun)).1 hmem
      simp
  · intro hquiet now as s' es has hrun
    obtain ⟨s₁, es₁, es₂, hstep, hrest, rfl⟩ := Machine.run_cons_inv hrun
    cases hstep
    obtain ⟨hs', hes⟩ := (Stopped.disconnect hquiet now).run has hrest
    exact ⟨by simpa using hes, hs'.state⟩

/-- A client that has just connected. -/
theorem final_connected :
    ∃ s es, (link .posix {}).run (create 1) [.connect true 2, .connectDone 0 none 3] = some (s, es) ∧
      s.monitor.state = .connected ∧ Final .posix {} s := by
  have hend : ((link .posix {}).run (create 1) [.connect true 2, .connectDone 0 none 3]).map
      (fun q => (q.1.monitor.state, q.1.reconnectTimer)) = some (.connected, []) := by rfl
  obtain ⟨⟨s, es⟩, hrun, hq⟩ := Option.map_eq_some_iff.mp hend
  obtain ⟨hstate, htimer⟩ := Prod.mk.inj hq
  refine ⟨s, es, hrun, hstate, (final_iff ⟨_, _, hrun⟩).mpr (.inr ?_)⟩
  rw [show s.reconnectTimer = [] from htimer]
  decide

/-- The server cannot be reached, a reconnect is due in a second, the user disconnects: the client
connects again. -/
theorem reconnects_after_disconnect :
    ∃ s es, (link .posix {}).run (create 1)
        [.connect true 2, .connectDone 0 (some ⟨.system, 111⟩) 3] = some (s, es) ∧
      (((link .posix {}).run s
          [.disconnect 4, .reconnectExpires, .reconnectTimer 0 true 1003]).map fun q =>
        (q.1.monitor.state, q.1.isPermanentlyStopped, q.2)) = some (.connecting, false, [.attempted]) ∧
      ¬ Final .posix {} s := by
  have hend : ((link .posix {}).run (create 1)
      [.connect true 2, .connectDone 0 (some ⟨.system, 111⟩) 3]).map (fun q =>
        ((link .posix {}).run q.1 [.disconnect 4, .reconnectExpires, .reconnectTimer 0 true 1003]).map
          fun q => (q.1.monitor.state, q.1.isPermanentlyStopped, q.2)) =
      some (some (.connecting, false, [.attempted])) := by rfl
  obtain ⟨⟨s, es⟩, hrun, hq⟩ := Option.map_eq_some_iff.mp hend
  refine ⟨s, es, hrun, hq, ?_⟩
  intro hfinal
  obtain ⟨⟨s', es'⟩, hrun', hq'⟩ := Option.map_eq_some_iff.mp hq
  obtain ⟨hstate, -⟩ := Prod.mk.inj hq'
  have hkept := (hfinal 4 _ s' es' (by simp) hrun').2
  rw [hkept] at hstate
  cases hstate

end LoopbackIpcClient

end LuspUpload.Ipc
