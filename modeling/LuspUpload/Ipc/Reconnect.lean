import LuspUpload.Ipc.Monitor

/-!
# Ipc.Reconnect — which failures of the link invoke the reconnect callback

`is_reconnecting_flag_` is there so that one loss of the link triggers one reconnect.  Three places
write it: `set_state` on entering `Reconnecting`, `try_trigger_reconnect` and `reconnect_completed`.
`record_send_failure` goes through the first two: in state `Connected` its own `set_state(Reconnecting)`
takes the flag, so that the compare-exchange of `try_trigger_reconnect` fails and nothing is invoked.
-/

namespace LuspUpload.Ipc

namespace ConnectionMonitor

variable {p : Platform}

/-- The call reports an error that calls for a reconnect, and asks for it. -/
def LinkFailure (p : Platform) : Call → Prop
  | .recordSendFailure error triggerReconnect _ _ => triggerReconnect ∧ isConnectionError p error
  | .recordReadFailure error _ _ => isConnectionError p error
  | _ => False

/-- **One reconnect for one loss** over a sequence of calls: a failure of the link that is reported with
the flag clear invokes the callback once, and with the flag set nothing does until
`reconnect_completed`. -/
structure OneReconnect (p : Platform) (m : ConnectionMonitor) (calls : List Call) : Prop where
  once : ∀ pre c post, calls = pre ++ c :: post → LinkFailure p c →
    (m.after p pre).isReconnectingFlag = false → ((m.after p pre).call p c).2.count .reconnect = 1
  quiet : ∀ pre mid post, calls = pre ++ mid ++ post → (m.after p pre).isReconnectingFlag = true →
    .reconnectCompleted ∉ mid → .reconnect ∉ (m.after p pre).notices p mid

/-! ### What the operations do to the flag -/

section Operations

variable (m : ConnectionMonitor)

@[simp] theorem entered_frame (now : UInt64) (s : ConnectionState) :
    (m.entered now s).state = m.state ∧ (m.entered now s).reconnectCallback = m.reconnectCallback := by
  cases s <;> exact ⟨rfl, rfl⟩

theorem entered_flag (now : UInt64) (s : ConnectionState) :
    (m.entered now s).isReconnectingFlag = (m.isReconnectingFlag || decide (s = .reconnecting)) := by
  cases s <;> simp [entered]

@[simp] theorem setState_reconnectCallback (s : ConnectionState) (now : UInt64) :
    (m.setState s now).1.reconnectCallback = m.reconnectCallback := by
  by_cases hsame : m.state = s
  · rw [setState, if_pos hsame]
  · rw [setState, if_neg hsame]
    exact (entered_frame _ _ _).2

theorem setState_flag (s : ConnectionState) (now : UInt64) :
    (m.setState s now).1.isReconnectingFlag =
      (m.isReconnectingFlag || decide (m.state ≠ s ∧ s = .reconnecting)) := by
  by_cases hsame : m.state = s
  · simp [setState, hsame]
  · rw [setState, if_neg hsame]
    show (entered _ _ _).isReconnectingFlag = _
    rw [entered_flag]
    simp [hsame]

theorem setState_quiet (s : ConnectionState) (now : UInt64) :
    .reconnect ∉ (m.setState s now).2 := by
  unfold setState
  split_ifs <;> simp

@[simp] theorem countSendFailure_frame (error : ErrorCode) (category : ErrorCategory) (now : UInt64) :
    (m.countSendFailure error category now).state = m.state ∧
      (m.countSendFailure error category now).isReconnectingFlag = m.isReconnectingFlag ∧
      (m.countSendFailure error category now).reconnectCallback = m.reconnectCallback :=
  ⟨rfl, rfl, rfl⟩

/-- A failing send that calls for a reconnect, flag clear: the callback is invoked once, unless the
state is `Connected`; then it is not. -/
theorem recordSendFailure_count {error : ErrorCode} (herror : isConnectionError p error)
    (hflag : m.isReconnectingFlag = false) (hcb : m.reconnectCallback = true) (now now' : UInt64) :
    (m.recordSendFailure p error true now now').2.1.count .reconnect =
      if m.state = .connected then 0 else 1 := by
  have hcat : shouldTriggerReconnect (classifyError p error) = true := herror
  simp only [recordSendFailure, hcat, if_true, countSendFailure_frame]
  split_ifs with hstate hcall hcall
  · have hset : ((m.countSendFailure error (classifyError p error) now).setState
        .reconnecting now').1.isReconnectingFlag = true := by
      simp [setState_flag, hstate]
    simp only [tryTriggerReconnect, hset, if_true, List.append_nil]
    exact List.count_eq_zero.2 (setState_quiet _ _ _)
  · exact List.count_eq_zero.2 (setState_quiet _ _ _)
  · simp [tryTriggerReconnect, hflag, hcb]
  · simp [hcb] at hcall

/-- The same call with the flag set. -/
theorem recordSendFailure_quiet (hflag : m.isReconnectingFlag = true) (error : ErrorCode)
    (trigger : Bool) (now now' : UInt64) :
    (m.recordSendFailure p error trigger now now').1.isReconnectingFlag = true ∧
      .reconnect ∉ (m.recordSendFailure p error trigger now now').2.1 := by
  have hset : ∀ m' : ConnectionMonitor, m'.isReconnectingFlag = true →
      (m'.setState .reconnecting now').1.isReconnectingFlag = true := by
    intro m' hm'
    simp [setState_flag, hm']
  have htry : ∀ m' : ConnectionMonitor, m'.isReconnectingFlag = true →
      m'.tryTriggerReconnect = (m', [], false) := by
    intro m' hm'
    simp [tryTriggerReconnect, hm']
  have hcount : (m.countSendFailure error (classifyError p error) now).isReconnectingFlag = true := hflag
  simp only [recordSendFailure]
  split_ifs with hcat hstate hcall hcall
  · rw [htry _ (hset _ hcount), List.append_nil]
    exact ⟨hset _ hcount, setState_quiet _ _ _⟩
  · exact ⟨hset _ hcount, setState_quiet _ _ _⟩
  · rw [htry _ hcount]
    exact ⟨hcount, List.not_mem_nil⟩
  · exact ⟨hcount, List.not_mem_nil⟩
  · exact ⟨hcount, List.not_mem_nil⟩

/-- With the flag set, no call invokes the callback, and only `reconnect_completed` clears the flag. -/
theorem call_quiet {c : Call} (hflag : m.isReconnectingFlag = true) (hc : c ≠ .reconnectCompleted) :
    (m.call p c).1.isReconnectingFlag = true ∧ .reconnect ∉ (m.call p c).2 := by
  cases c with
  | setState s now => exact ⟨by simp [call, setState_flag, hflag], setState_quiet _ _ _⟩
  | recordSendFailure error trigger now now' => exact recordSendFailure_quiet m hflag error trigger now now'
  | recordReadFailure error now now' => exact recordSendFailure_quiet m hflag error true now now'
  | tryTriggerReconnect => simp [call, tryTriggerReconnect, hflag]
  | reconnectCompleted => exact absurd rfl hc
  | _ => exact ⟨hflag, List.not_mem_nil⟩

@[simp] theorem call_reconnectCallback (c : Call) :
    (m.call p c).1.reconnectCallback = m.reconnectCallback := by
  have hfail : ∀ error trigger now now',
      (m.recordSendFailure p error trigger now now').1.reconnectCallback = m.reconnectCallback := by
    intro error trigger now now'
    have htry : ∀ m' : ConnectionMonitor,
        m'.tryTriggerReconnect.1.reconnectCallback = m'.reconnectCallback := by
      intro m'
      unfold tryTriggerReconnect
      split <;> rfl
    simp only [recordSendFailure]
    split_ifs <;> simp [htry]
  cases c with
  | setState s now => exact setState_reconnectCallback _ _ _
  | recordSendFailure error trigger now now' => exact hfail error trigger now now'
  | recordReadFailure error now now' => exact hfail error true now now'
  | tryTriggerReconnect =>
    simp only [call, tryTriggerReconnect]
    split <;> rfl
  | _ => rfl

end Operations

/-! ### Sequences of calls -/

section Sequences

variable {m : ConnectionMonitor}

theorem after_reconnectCallback (calls : List Call) :
    (m.after p calls).reconnectCallback = m.reconnectCallback := by
  induction calls generalizing m with
  | nil => rfl
  | cons c calls ih => exact (ih (m := (m.call p c).1)).trans (call_reconnectCallback m c)

/-- Nothing is invoked until `reconnect_completed`. -/
theorem notices_quiet {calls : List Call} (hflag : m.isReconnectingFlag = true)
    (hcalls : .reconnectCompleted ∉ calls) : .reconnect ∉ m.notices p calls := by
  induction calls generalizing m with
  | nil => exact List.not_mem_nil
  | cons c calls ih =>
    obtain ⟨hc, hcalls⟩ := not_or.1 (fun h => hcalls (List.mem_cons.2 h))
    obtain ⟨hflag', hquiet⟩ := call_quiet (p := p) m hflag (Ne.symm hc)
    intro hmem
    rcases List.mem_append.1 hmem with hmem | hmem
    · exact hquiet hmem
    · exact ih hflag' hcalls hmem

/-- What a failure of the link invokes when the flag is clear. -/
theorem linkFailure_count {c : Call} (hc : LinkFailure p c) (hflag : m.isReconnectingFlag = false)
    (hcb : m.reconnectCallback = true) :
    (m.call p c).2.count .reconnect = if m.state = .connected then 0 else 1 := by
  cases c with
  | recordSendFailure error trigger now now' =>
    obtain ⟨rfl, herror⟩ := hc
    exact recordSendFailure_count m herror hflag hcb now now'
  | recordReadFailure error now now' => exact recordSendFailure_count m hc hflag hcb now now'
  | _ => exact absurd hc id

/-- A failing send in state `Connected` sets the flag, reconnect or not. -/
theorem recordSendFailure_sets {error : ErrorCode} (herror : isConnectionError p error)
    (hstate : m.state = .connected) (trigger : Bool) (now now' : UInt64) :
    (m.recordSendFailure p error trigger now now').1.isReconnectingFlag = true := by
  have hcat : shouldTriggerReconnect (classifyError p error) = true := herror
  have hset : ((m.countSendFailure error (classifyError p error) now).setState
      .reconnecting now').1.isReconnectingFlag = true := by
    simp [setState_flag, hstate]
  simp only [recordSendFailure, hcat, if_true, countSendFailure_frame, hstate]
  split_ifs
  · simp [tryTriggerReconnect, hset]
  · exact hset

/-- A link that is lost while connected: the callback is not invoked, now or later, until somebody else
calls `reconnect_completed`. -/
theorem lost_while_connected_silent {c : Call} {calls : List Call} (hc : LinkFailure p c)
    (hstate : m.state = .connected) (hflag : m.isReconnectingFlag = false)
    (hcb : m.reconnectCallback = true) (hcalls : .reconnectCompleted ∉ calls) :
    .reconnect ∉ m.notices p (c :: calls) := by
  have hflag' : (m.call p c).1.isReconnectingFlag = true := by
    cases c with
    | recordSendFailure error trigger now now' => exact recordSendFailure_sets hc.2 hstate trigger now now'
    | recordReadFailure error now now' => exact recordSendFailure_sets hc hstate true now now'
    | _ => exact absurd hc id
  have hnone : (m.call p c).2.count .reconnect = 0 := by
    rw [linkFailure_count hc hflag hcb, if_pos hstate]
  intro hmem
  rcases List.mem_append.1 hmem with hmem | hmem
  · exact List.count_eq_zero.1 hnone hmem
  · exact notices_quiet hflag' hcalls hmem

/-- **Reconnects**: with the callback installed, every failure of the link that is reported with the flag
clear invokes the callback once, and none does while the flag is set, exactly when no such failure is
reported in state `Connected`. -/
theorem oneReconnect_iff (now : UInt64) (stateChange : Bool) (calls : List Call) :
    OneReconnect p (create now stateChange true) calls ↔
      ∀ pre c post, calls = pre ++ c :: post → LinkFailure p c →
        ((create now stateChange true).after p pre).isReconnectingFlag = false →
        ((create now stateChange true).after p pre).state ≠ .connected := by
  have hcb : ∀ pre, ((create now stateChange true).after p pre).reconnectCallback = true := by
    intro pre
    exact after_reconnectCallback pre
  constructor
  · intro h pre c post hcalls hc hflag hstate
    have hone := h.once pre c post hcalls hc hflag
    rw [linkFailure_count hc hflag (hcb pre), if_pos hstate] at hone
    omega
  · intro h
    refine ⟨?_, ?_⟩
    · intro pre c post hcalls hc hflag
      rw [linkFailure_count hc hflag (hcb pre), if_neg (h pre c post hcalls hc hflag)]
    · intro pre mid post hcalls hflag hmid
      exact notices_quiet hflag hmid

end Sequences

/-- The server resets an established connection: the monitor enters `Reconnecting` and sets its flag, and
the callback that would reconnect is not invoked. -/
theorem reset_while_connected :
    (create 1 true true).notices .windows
        [.setState .connected 2, .recordReadFailure ⟨.system, 10054⟩ 3 4] =
      [.stateChanged .disconnected .connected, .stateChanged .connected .reconnecting] ∧
    ((create 1 true true).after .windows
        [.setState .connected 2, .recordReadFailure ⟨.system, 10054⟩ 3 4]).isReconnectingFlag = true ∧
    ¬ OneReconnect .windows (create 1 true true)
        [.setState .connected 2, .recordReadFailure ⟨.system, 10054⟩ 3 4] := by
  refine ⟨rfl, rfl, ?_⟩
  intro h
  have hone := h.once [.setState .connected 2] (.recordReadFailure ⟨.system, 10054⟩ 3 4) [] rfl rfl rfl
  exact absurd hone (by decide)

end ConnectionMonitor

end LuspUpload.Ipc
