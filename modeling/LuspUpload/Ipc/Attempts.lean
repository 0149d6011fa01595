import LuspUpload.Ipc.LostLink
import Mathlib.Algebra.Order.Ring.Nat

/-!
# Ipc.Attempts — how often the client tries to connect

An account of the attempts over whole schedules.  A retry is planned by `try_reconnect` alone, which
counts it; a success starts the count again, a `connect()` of the user does not.  So the delays planned
since the last success are always the first of one fixed sequence (`retries_are_planned`).  An attempt is
asked for by the user, or by a wait of the reconnect timer that was not aborted, and each of these stands
for a retry that was planned.
-/

namespace LuspUpload.Ipc

open Lib Config

namespace LoopbackIpcClient

variable {p : Platform} {cfg : NetworkConfig} {s s' : LoopbackIpcClient} {es : List Event} {n : ℤ}

def Event.isAttempted : Event → Bool
  | .attempted => true
  | _ => false

def Event.isArmed : Event → Bool
  | .armed _ => true
  | _ => false

def Event.isConnected : Event → Bool
  | .connected _ => true
  | _ => false

/-- A call of `connect()`. -/
def Act.isConnect : Act → Bool
  | .connect _ _ => true
  | _ => false

/-- The delays planned since the last success, after one more event. -/
def planAfter (ds : List UInt32) : Event → List UInt32
  | .armed d => ds ++ [d]
  | .connected _ => []
  | _ => ds

/-- The delays planned since the last success. -/
def delaysSince (es : List Event) : List UInt32 := es.foldl planAfter []

/-- The first `k` delays of the backoff. -/
def planned (cfg : NetworkConfig) (k : ℕ) : List UInt32 :=
  (List.range k).map fun i : ℕ => reconnectDelay cfg (i + 1)

/-- How many retries may follow one another; none when the maximum reads as a negative `int`. -/
def retryLimit (cfg : NetworkConfig) : ℕ := cfg.maxReconnectAttempts.toInt32.toInt.toNat

theorem planned_succ (k : ℕ) : planned cfg (k + 1) = planned cfg k ++ [reconnectDelay cfg (k + 1)] := by
  rw [planned, planned, List.range_succ, List.map_append]
  rfl

/-! ### What an event adds -/

/-- One event more: so many more attempts, plans and successes, and the delays planned since the last of
these. -/
structure Adds (es : List Event) (e : Event) (attempted armed connected : ℕ) (delays : List UInt32) :
    Prop where
  attempted : (es ++ [e]).countP Event.isAttempted = es.countP Event.isAttempted + attempted
  armed : (es ++ [e]).countP Event.isArmed = es.countP Event.isArmed + armed
  connected : (es ++ [e]).countP Event.isConnected = es.countP Event.isConnected + connected
  delays : delaysSince (es ++ [e]) = delays

theorem Adds.of_event (es : List Event) (e : Event) :
    Adds es e e.isAttempted.toNat e.isArmed.toNat e.isConnected.toNat (planAfter (delaysSince es) e) := by
  have hone : ∀ p : Event → Bool, (es ++ [e]).countP p = es.countP p + (p e).toNat := by
    intro p
    rw [List.countP_append, List.countP_singleton]
    cases p e <;> rfl
  refine ⟨hone _, hone _, hone _, ?_⟩
  rw [delaysSince, List.foldl_append]
  rfl

theorem adds_other {e : Event} (he : e.isRetry = false) : Adds es e 0 0 0 (delaysSince es) := by
  cases e with
  | attempted => cases he
  | armed d => cases he
  | connected now => cases he
  | _ => exact .of_event es _

/-! ### The account -/

/-- The account of a history `es` that ends in the state `s`; `n` attempts were asked for by the user. -/
structure Ledger (cfg : NetworkConfig) (n : ℤ) (s : LoopbackIpcClient) (es : List Event) : Prop where
  nonneg : 0 ≤ s.currentReconnectAttempts
  limit : s.currentReconnectAttempts.toNat ≤ retryLimit cfg
  delays : delaysSince es = planned cfg s.currentReconnectAttempts.toNat
  armed : es.countP Event.isArmed ≤
    retryLimit cfg * es.countP Event.isConnected + s.currentReconnectAttempts.toNat
  attempts : (es.countP Event.isAttempted + s.reconnectTimer.liveCount : ℕ) ≤ n + es.countP Event.isArmed
  connects : es.countP Event.isConnected + s.connects.length ≤ es.countP Event.isAttempted

namespace Ledger

/-- A change that the account does not see. -/
theorem frame (h : Ledger cfg n s es) (hcount : s'.currentReconnectAttempts = s.currentReconnectAttempts)
    (htimer : s'.reconnectTimer.liveCount ≤ s.reconnectTimer.liveCount)
    (hconnects : s'.connects = s.connects) : Ledger cfg n s' es := by
  have hattempts := h.attempts
  refine ⟨?_, ?_, ?_, ?_, ?_, ?_⟩
  · rw [hcount]; exact h.nonneg
  · rw [hcount]; exact h.limit
  · rw [hcount]; exact h.delays
  · rw [hcount]; exact h.armed
  · omega
  · rw [hconnects]; exact h.connects

/-- An event that has to do with something else. -/
theorem other (h : Ledger cfg n s es) {e : Event} (he : e.isRetry = false) :
    Ledger cfg n s (es ++ [e]) := by
  obtain ⟨hattempted, harmed, hconnected, hdelays⟩ := @adds_other es e he
  refine ⟨h.nonneg, h.limit, hdelays.trans h.delays, ?_, ?_, ?_⟩
  · rw [harmed, hconnected]; exact h.armed
  · rw [hattempted, harmed]; exact h.attempts
  · rw [hconnected, hattempted]; exact h.connects

theorem others {fs : List Event} (hfs : ∀ e ∈ fs, e.isRetry = false) (h : Ledger cfg n s es) :
    Ledger cfg n s (es ++ fs) := by
  induction fs generalizing es with
  | nil => simpa using h
  | cons e fs ih =>
    rw [List.append_cons]
    exact ih (fun e' he' => hfs e' (List.mem_cons_of_mem _ he')) (h.other (hfs e List.mem_cons_self))

/-- One attempt more that the user asks for. -/
theorem attempted (h : Ledger cfg n s es) : Ledger cfg (n + 1) s (es ++ [.attempted]) := by
  obtain ⟨hattempted, harmed, hconnected, hdelays⟩ : Adds es .attempted 1 0 0 (delaysSince es) :=
    .of_event es .attempted
  have hattempts := h.attempts
  have hconnects := h.connects
  refine ⟨h.nonneg, h.limit, hdelays.trans h.delays, ?_, ?_, ?_⟩
  · rw [harmed, hconnected]; exact h.armed
  · omega
  · omega

theorem mono {m : ℤ} (h : Ledger cfg n s es) (hle : n ≤ m) : Ledger cfg m s es := by
  refine ⟨h.nonneg, h.limit, h.delays, h.armed, ?_, h.connects⟩
  have hattempts := h.attempts
  omega

theorem create (now : UInt64) : Ledger cfg 0 (create now) [] :=
  ⟨le_rfl, Nat.zero_le _, rfl, Nat.zero_le _, le_rfl, Nat.zero_le _⟩

/-- A retry is planned within the limit, with the delay of its number. -/
theorem tryReconnect (h : Ledger cfg n s es) :
    Ledger cfg n (tryReconnect cfg s).1 (es ++ (tryReconnect cfg s).2) := by
  unfold LoopbackIpcClient.tryReconnect
  split_ifs with hstop hauto hmax
  · simpa using h
  · simpa using h
  · rw [List.append_nil]
    exact h.frame rfl le_rfl rfl
  · have hnonneg := h.nonneg
    have hnext : (s.currentReconnectAttempts + 1).toNat = s.currentReconnectAttempts.toNat + 1 := by omega
    have hcast : ((s.currentReconnectAttempts.toNat : ℕ) : ℤ) = s.currentReconnectAttempts := by omega
    have hmade := h.armed
    have hattempts := h.attempts
    have hrearm := @Timer.liveCount_rearm_le s.reconnectTimer
    obtain ⟨hattempted, harmed, hconnected, hdelays⟩ :
        Adds es (.armed (reconnectDelay cfg (s.currentReconnectAttempts + 1))) 0 1 0
          (delaysSince es ++ [reconnectDelay cfg (s.currentReconnectAttempts + 1)]) := .of_event es (.armed _)
    refine ⟨?_, ?_, ?_, ?_, ?_, ?_⟩
    · show 0 ≤ s.currentReconnectAttempts + 1
      omega
    · show (s.currentReconnectAttempts + 1).toNat ≤ cfg.maxReconnectAttempts.toInt32.toInt.toNat
      omega
    · show delaysSince (es ++ [_]) = planned cfg (s.currentReconnectAttempts + 1).toNat
      rw [hdelays, hnext, planned_succ, ← h.delays, hcast]
    · rw [harmed, hconnected, hnext, Nat.mul_add, Nat.mul_zero]
      omega
    · show (List.countP Event.isAttempted (es ++ [_]) + s.reconnectTimer.rearm.liveCount : ℕ) ≤
        n + List.countP Event.isArmed (es ++ [_])
      omega
    · rw [hconnected, hattempted]
      exact h.connects

theorem noticed {notices : List Notice} (h : Ledger cfg n s es) :
    Ledger cfg n (noticed cfg notices s).1 (es ++ (noticed cfg notices s).2) := by
  unfold LoopbackIpcClient.noticed
  split
  · exact h.tryReconnect
  · simpa using h

theorem tryTriggerReconnect (h : Ledger cfg n s es) :
    Ledger cfg n (tryTriggerReconnect cfg s).1 (es ++ (tryTriggerReconnect cfg s).2) := by
  refine noticed ?_
  exact h.frame rfl le_rfl rfl

/-- `connect()` uses up one attempt that was asked for. -/
theorem connect (h : Ledger cfg n s es) (resolves : Bool) (now : UInt64) :
    Ledger cfg (n + 1) (connect cfg resolves now s).1 (es ++ (connect cfg resolves now s).2) := by
  unfold LoopbackIpcClient.connect
  split_ifs
  · simpa using h.mono (by omega : n ≤ n + 1)
  · obtain ⟨hnonneg, hlimit, hdelays, harmed, hattempts, hconnects⟩ := h.attempted
    refine ⟨hnonneg, hlimit, hdelays, harmed, hattempts, ?_⟩
    have hbefore := h.connects
    obtain ⟨hattempted, -, hconnected, -⟩ : Adds es .attempted 1 0 0 (delaysSince es) :=
      .of_event es .attempted
    show List.countP Event.isConnected (es ++ [_]) + (s.connects ++ [s.socket]).length ≤
      List.countP Event.isAttempted (es ++ [_])
    rw [hconnected, hattempted, List.length_append, List.length_singleton]
    omega
  · rw [List.append_cons]
    refine tryReconnect ?_
    exact h.attempted.frame rfl le_rfl rfl

theorem enableHeartbeat (h : Ledger cfg n s es) (enable : Bool) :
    Ledger cfg n (enableHeartbeat enable s) es := by
  simp only [LoopbackIpcClient.enableHeartbeat]
  split
  · exact h.frame rfl le_rfl rfl
  · exact h.frame rfl le_rfl rfl

theorem doRead (h : Ledger cfg n s es) : Ledger cfg n (doRead s) es := by
  obtain ⟨k, heq⟩ := doRead_eq s
  rw [heq]
  exact h.frame rfl le_rfl rfl

theorem doSendFromQueue (h : Ledger cfg n s es) : Ledger cfg n (doSendFromQueue s) es := by
  obtain ⟨b, k, heq⟩ := doSendFromQueue_eq s
  rw [heq]
  exact h.frame rfl le_rfl rfl

/-- A connect that succeeds ends one attempt and the plan. -/
theorem succeeded (h : Ledger cfg n s es) {i : ℕ} (hi : i < s.connects.length) (now : UInt64)
    (hcount : s'.currentReconnectAttempts = 0) (htimer : s'.reconnectTimer = s.reconnectTimer)
    (hconnects : s'.connects = s.connects.eraseIdx i) : Ledger cfg n s' (es ++ [.connected now]) := by
  have hlimit := h.limit
  have hmade := h.armed
  have hbefore := h.connects
  have hlen : (s.connects.eraseIdx i).length = s.connects.length - 1 := List.length_eraseIdx_of_lt hi
  obtain ⟨hattempted, harmed, hconnected, hdelays⟩ : Adds es (.connected now) 0 0 1 [] :=
    .of_event es (.connected now)
  refine ⟨?_, ?_, ?_, ?_, ?_, ?_⟩
  · rw [hcount]
  · rw [hcount]
    exact Nat.zero_le _
  · rw [hcount]
    exact hdelays
  · rw [harmed, hconnected, Nat.mul_succ]
    omega
  · rw [htimer, hattempted, harmed]
    exact h.attempts
  · rw [hconnects, hlen]
    omega

theorem handleConnectResult (h : Ledger cfg n s es) {i : ℕ} (hi : i < s.connects.length)
    (ec : Option ErrorCode) (now : UInt64) :
    let r := handleConnectResult cfg ec now { s with connects := s.connects.eraseIdx i }
    Ledger cfg n r.1 (es ++ r.2) := by
  cases ec with
  | none =>
    simp only [LoopbackIpcClient.handleConnectResult]
    refine doSendFromQueue (doRead ?_)
    split
    · exact h.succeeded hi now rfl rfl rfl
    · exact h.succeeded hi now rfl rfl rfl
  | some e =>
    have hbefore := h.connects
    have hlen : (s.connects.eraseIdx i).length = s.connects.length - 1 := List.length_eraseIdx_of_lt hi
    refine tryReconnect ⟨h.nonneg, h.limit, h.delays, h.armed, h.attempts, ?_⟩
    show List.countP Event.isConnected es + (s.connects.eraseIdx i).length ≤
      List.countP Event.isAttempted es
    omega

theorem handleReadResult (h : Ledger cfg n s es) (ec : Option ErrorCode) (bytes : List UInt8)
    (now : UInt64) : let r := handleReadResult p cfg ec bytes now s
    Ledger cfg n r.1 (es ++ r.2) := by
  unfold LoopbackIpcClient.handleReadResult
  split
  · refine others ?_ h.doRead
    cases s.onMessage <;> simp [Event.isRetry]
  · refine noticed ?_
    exact h.frame rfl le_rfl rfl

theorem handleSendResult (h : Ledger cfg n s es) (ec : Option ErrorCode) (now : UInt64) :
    let r := handleSendResult p cfg ec now s
    Ledger cfg n r.1 (es ++ r.2) := by
  cases ec with
  | none =>
    simp only [LoopbackIpcClient.handleSendResult, List.append_nil]
    refine doSendFromQueue ?_
    exact h.frame rfl le_rfl rfl
  | some error =>
    have hfailed : Ledger cfg n { s with
        isSending := false
        monitor := (s.monitor.recordSendFailure p error true now now).1 } es := h.frame rfl le_rfl rfl
    simp only [LoopbackIpcClient.handleSendResult]
    split
    · exact hfailed.noticed
    · exact hfailed.noticed.doSendFromQueue

theorem handlePingResult (h : Ledger cfg n s es) (ec : Option ErrorCode) (now : UInt64) :
    let r := handlePingResult cfg ec now s
    Ledger cfg n r.1 (es ++ r.2) := by
  cases ec with
  | none => simpa [LoopbackIpcClient.handlePingResult] using h
  | some e =>
    have hcounted : Ledger cfg n { s with
        heartbeatFailureCount := s.heartbeatFailureCount + 1
        monitor := (s.monitor.recordHeartbeatFailure false now).1 } es := h.frame rfl le_rfl rfl
    simp only [LoopbackIpcClient.handlePingResult]
    split
    · exact hcounted.tryTriggerReconnect
    · simpa using hcounted

theorem checkHeartbeatTimeout (h : Ledger cfg n s es) (now : UInt64) :
    let r := checkHeartbeatTimeout cfg now s
    Ledger cfg n r.1 (es ++ r.2) := by
  simp only [LoopbackIpcClient.checkHeartbeatTimeout]
  split_ifs
  · simpa using h
  · simpa using h
  · rw [List.append_cons, List.append_cons]
    refine tryTriggerReconnect ?_
    have hevents : Ledger cfg n s (es ++ [.timedOut] ++ [.timeoutDisconnect]) := (h.other rfl).other rfl
    exact hevents.frame rfl le_rfl rfl
  · refine other ?_ rfl
    exact h.frame rfl le_rfl rfl

theorem handleHeartbeatTimer (h : Ledger cfg n s es) (now : UInt64) :
    let r := handleHeartbeatTimer cfg now s
    Ledger cfg n r.1 (es ++ r.2) := by
  simp only [LoopbackIpcClient.handleHeartbeatTimer]
  split
  · have hevents : Ledger cfg n s (es ++ [.tick now] ++ [.ping s.heartbeatSequence]) :=
      (h.other rfl).other rfl
    have hping : Ledger cfg n (sendHeartbeatPing s).1 (es ++ [.tick now] ++ (sendHeartbeatPing s).2) :=
      hevents.frame rfl le_rfl rfl
    have hcheck := hping.checkHeartbeatTimeout now
    simp only [List.append_assoc] at hcheck
    exact hcheck.frame rfl le_rfl rfl
  · simpa using h

theorem handleReconnectTimer (h : Ledger cfg n s es) (resolves : Bool) (now : UInt64) :
    let r := handleReconnectTimer cfg resolves now s
    Ledger cfg (n + 1) r.1 (es ++ r.2) := by
  unfold LoopbackIpcClient.handleReconnectTimer
  split
  · exact h.connect resolves now
  · simpa using h.mono (by omega : n ≤ n + 1)

/-- One step; only a `connect()` of the user asks for an attempt more. -/
theorem step (h : Ledger cfg n s es) {a : Act} {fs : List Event}
    (hstep : step p cfg s a = some (s', fs)) :
    Ledger cfg (n + if a.isConnect then 1 else 0) s' (es ++ fs) := by
  have hplain : ∀ {r : LoopbackIpcClient × List Event}, r = (s', fs) → a.isConnect = false →
      Ledger cfg n r.1 (es ++ r.2) → Ledger cfg (n + if a.isConnect then 1 else 0) s' (es ++ fs) := by
    rintro r rfl ha hr
    simpa [ha] using hr
  cases a with
  | connect resolves now =>
    have hr : LoopbackIpcClient.connect cfg resolves now s = (s', fs) := Option.some.inj hstep
    have hconnect := h.connect resolves now
    rw [hr] at hconnect
    exact hconnect
  | disconnect now =>
    refine hplain (Option.some.inj hstep) rfl ?_
    rw [List.append_nil]
    exact h.frame rfl le_rfl rfl
  | send data =>
    refine hplain (Option.some.inj hstep) rfl ?_
    rw [List.append_nil]
    refine doSendFromQueue ?_
    exact h.frame rfl le_rfl rfl
  | onReceive =>
    refine hplain (Option.some.inj hstep) rfl ?_
    rw [List.append_nil]
    exact h.frame rfl le_rfl rfl
  | enableHeartbeat enable =>
    refine hplain (Option.some.inj hstep) rfl ?_
    simpa using h.enableHeartbeat enable
  | setHeartbeatInterval intervalMs =>
    refine hplain (Option.some.inj hstep) rfl ?_
    rw [List.append_nil]
    exact h.frame rfl le_rfl rfl
  | reconnectExpires =>
    refine hplain (Option.some.inj hstep) rfl ?_
    rw [List.append_nil]
    exact h.frame rfl Timer.liveCount_expire.le rfl
  | reconnectTimer i resolves now =>
    obtain ⟨w, hw, -⟩ := Option.bind_eq_some_iff.mp hstep
    have hcount := Timer.liveCount_eraseIdx hw
    obtain ⟨hi, hr⟩ | ⟨-, hr⟩ := wait_cases hstep
    · -- the wait that is due is given up for the attempt
      have hattempts := h.attempts
      have herase : Ledger cfg (n - 1) { s with reconnectTimer := s.reconnectTimer.eraseIdx i } es := by
        refine ⟨h.nonneg, h.limit, h.delays, h.armed, ?_, h.connects⟩
        obtain rfl : w = .due := Option.some.inj (hw.symm.trans hi)
        rw [if_neg nofun] at hcount
        show (List.countP Event.isAttempted es + Timer.liveCount (s.reconnectTimer.eraseIdx i) : ℕ) ≤
          n - 1 + List.countP Event.isArmed es
        omega
      refine hplain hr.symm rfl ?_
      simpa using herase.handleReconnectTimer resolves now
    · refine hplain hr.symm rfl ?_
      rw [List.append_nil]
      refine h.frame rfl ?_ rfl
      show Timer.liveCount (s.reconnectTimer.eraseIdx i) ≤ s.reconnectTimer.liveCount
      omega
  | heartbeatExpires =>
    refine hplain (Option.some.inj hstep) rfl ?_
    rw [List.append_nil]
    exact h.frame rfl le_rfl rfl
  | heartbeatTimer i now =>
    have herase : Ledger cfg n { s with heartbeatTimer := s.heartbeatTimer.eraseIdx i } es :=
      h.frame rfl le_rfl rfl
    obtain ⟨-, hr⟩ | ⟨-, hr⟩ := wait_cases hstep
    · exact hplain hr.symm rfl (herase.handleHeartbeatTimer now)
    · exact hplain hr.symm rfl (by simpa using herase)
  | connectDone i ec now =>
    obtain ⟨socket, hsocket, -⟩ := Option.bind_eq_some_iff.mp hstep
    obtain ⟨-, hr⟩ := connectDone_cases hstep
    obtain ⟨hi, -⟩ := List.getElem?_eq_some_iff.mp hsocket
    exact hplain hr.symm rfl (h.handleConnectResult hi ec now)
  | readDone ec bytes now =>
    have hread : Ledger cfg n { s with reads := s.reads - 1 } es := h.frame rfl le_rfl rfl
    exact hplain (readDone_cases hstep).symm rfl (hread.handleReadResult ec bytes now)
  | writeDone ec now =>
    have hwritten : Ledger cfg n { s with writes := s.writes - 1 } es := h.frame rfl le_rfl rfl
    exact hplain (writeDone_cases hstep).symm rfl (hwritten.handleSendResult ec now)
  | pingDone ec now =>
    have hping : Ledger cfg n { s with pings := s.pings - 1 } es := h.frame rfl le_rfl rfl
    exact hplain (pingDone_cases hstep).symm rfl (hping.handlePingResult ec now)

/-- A whole schedule from the constructor. -/
theorem of_run {now : UInt64} {as : List Act} (hrun : (link p cfg).run (.create now) as = some (s, es)) :
    Ledger cfg (as.countP Act.isConnect) s es := by
  have hany : (link p cfg).Along (fun _ _ => True) (.create now) as :=
    Machine.along_of_forall (P := fun _ => True) (fun _ _ => trivial) _
  have hstart : Ledger cfg (([] : List Act).countP Act.isConnect) (.create now) [] := create now
  refine hany.invariant_calls (I := fun s cs h => Ledger cfg (cs.countP Act.isConnect) s h) ?_ hstart hrun
  intro s cs h a s' fs hledger _ hstep
  have hnext := hledger.step hstep
  have hcount : ((cs ++ [a]).countP Act.isConnect : ℤ) =
      cs.countP Act.isConnect + if a.isConnect then 1 else 0 := by
    rw [List.countP_append, List.countP_singleton]
    split
    · exact Int.natCast_add _ 1
    · exact Int.natCast_add _ 0
  rw [hcount]
  exact hnext

end Ledger

/-- **Retries are planned** — in every schedule of a new client the retries planned since the last success
are the first of the backoff sequence, each with the delay of its number and no more than the configured
maximum; every attempt answers a `connect()` of the user or a retry that was planned, and every success an
attempt of its own. -/
theorem retries_are_planned {now : UInt64} {as : List Act}
    (hrun : (link p cfg).run (.create now) as = some (s, es)) :
    (∃ k ≤ retryLimit cfg, s.currentReconnectAttempts = k ∧ delaysSince es = planned cfg k) ∧
      es.countP Event.isArmed ≤ retryLimit cfg * (es.countP Event.isConnected + 1) ∧
      es.countP Event.isAttempted ≤ as.countP Act.isConnect + es.countP Event.isArmed ∧
      es.countP Event.isConnected ≤ es.countP Event.isAttempted := by
  have h := Ledger.of_run hrun
  have hnonneg := h.nonneg
  have hlimit := h.limit
  have harmed := h.armed
  have hattempts := h.attempts
  have hconnects := h.connects
  refine ⟨⟨s.currentReconnectAttempts.toNat, hlimit, by omega, h.delays⟩, ?_, ?_, ?_⟩
  · rw [Nat.mul_succ]
    omega
  · omega
  · omega

/-- Two attempts are refused, the third succeeds, and the plan starts again. -/
theorem retries_are_planned_again : ∃ s es,
    (link .posix {}).run (create 1) [.connect true 2, .connectDone 0 (some ⟨.system, 111⟩) 3,
      .reconnectExpires, .reconnectTimer 0 true 1003, .connectDone 0 (some ⟨.system, 111⟩) 1004,
      .reconnectExpires, .reconnectTimer 0 true 3004, .connectDone 0 none 3005] = some (s, es) ∧
    (∃ k ≤ retryLimit {}, s.currentReconnectAttempts = k ∧ delaysSince es = planned {} k) ∧
      es.countP Event.isArmed ≤ retryLimit {} * (es.countP Event.isConnected + 1) ∧
      es.countP Event.isAttempted ≤ 1 + es.countP Event.isArmed ∧
      es.countP Event.isConnected ≤ es.countP Event.isAttempted := by
  have hends : ((link .posix {}).run (create 1) [.connect true 2, .connectDone 0 (some ⟨.system, 111⟩) 3,
      .reconnectExpires, .reconnectTimer 0 true 1003, .connectDone 0 (some ⟨.system, 111⟩) 1004,
      .reconnectExpires, .reconnectTimer 0 true 3004, .connectDone 0 none 3005]).isSome = true := by decide
  obtain ⟨⟨s, es⟩, hrun⟩ := Option.isSome_iff_exists.mp hends
  exact ⟨s, es, hrun, retries_are_planned hrun⟩

end LoopbackIpcClient

end LuspUpload.Ipc
