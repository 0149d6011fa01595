import LuspUpload.Ipc.LinkSteps
import Mathlib.Algebra.Order.Ring.Nat

/-!
# Ipc.EarlySend — writes on a link that is not established

`do_send_from_queue` asks `is_connected()`, which is `socket_->is_open()`.  `async_connect` opens the
socket when it starts, and a connect that fails leaves it open.  So a `send()` during the connect, or
after it failed, starts a write on a socket that is not connected; where the monitor takes the error for a
lost connection, `try_reconnect` replaces the socket and with it the connect that is still pending.  And
`send()` runs on another thread than the handlers: the socket that it writes to need not be the one that it has
tested.

Here the client of `Ipc.Link` runs on two threads.  `do_send_from_queue` goes step by step, on the notification
thread and on the io thread; the other handlers run without interruption on the io thread, the other calls of
the user at any time.  `run_alone` : without interleaving the steps are those of `link`.  `Phase` is the history
of the current socket that the code does not keep.
-/

namespace LuspUpload.Ipc

open Lib Config

namespace LoopbackIpcClient

variable {p : Platform} {cfg : NetworkConfig} {s s' : LoopbackIpcClient}

/-- The next atomic step of a call of `do_send_from_queue`. -/
inductive SendStage where
  | compareExchange
  | isConnected
  | peek
  | asyncWrite
  | release
  deriving DecidableEq, Repr

/-- The call has found the socket open and has not started its write yet. -/
def SendStage.passed : SendStage → Bool
  | .peek => true
  | .asyncWrite => true
  | _ => false

/-- One step of `do_send_from_queue`, and the step that follows (`none` when the call returns). -/
def sendStep (s : LoopbackIpcClient) : SendStage → LoopbackIpcClient × Option SendStage
  | .compareExchange =>
    if s.isSending then (s, none) else ({ s with isSending := true }, some .isConnected)
  | .isConnected => (s, some (if s.isOpen then .peek else .release))
  | .peek => (s, some (if s.queue.isEmpty then .release else .asyncWrite))
  | .asyncWrite => ({ s with writes := s.writes + 1 }, none)
  | .release => ({ s with isSending := false }, none)

/-- `handle_connect_result` on success, up to `do_send_from_queue`. -/
def connectResult (cfg : NetworkConfig) (now : UInt64) (s : LoopbackIpcClient) : LoopbackIpcClient :=
  let s := { s with isConnecting := false }
  let s := setState .connected now { s with currentReconnectAttempts := 0 }
  let s := { s with monitor := (s.monitor.resetStatistics now).reconnectCompleted }
  let s :=
    if cfg.enableAppHeartbeat then
      startHeartbeatTimer { s with
        heartbeatEnabled := true
        heartbeatIntervalMs := cfg.heartbeatIntervalMs
        lastPongTimeMs := now }
    else s
  doRead s

/-- `handle_send_result` behind `is_sending_.store(false)`, up to `do_send_from_queue`; and whether that is
called. -/
def sendResult (p : Platform) (cfg : NetworkConfig) (ec : Option ErrorCode) (now : UInt64)
    (s : LoopbackIpcClient) : (LoopbackIpcClient × List Event) × Bool :=
  match ec with
  | none => (({ s with queue := s.queue.tail, monitor := s.monitor.recordSendSuccess now }, []), true)
  | some error =>
    let r := s.monitor.recordSendFailure p error true now now
    (noticed cfg r.2.1 { s with monitor := r.1 }, !r.2.2)

/-- The current socket is closed; a connect was started on it; its connect has succeeded. -/
inductive Phase where
  | closed
  | attempted
  | established
  deriving DecidableEq, Repr

/-- The phase after a step: a socket that is closed or replaced starts anew, and `async_connect` adds a pending
connect. -/
def Phase.next (s s' : LoopbackIpcClient) (phase : Phase) : Phase :=
  if s'.isOpen = false ∨ s'.socket ≠ s.socket then closed
  else if s.connects.length < s'.connects.length then attempted
  else phase

/-- Where the io thread is: between two handlers, in `handle_send_result` behind `is_sending_.store(false)`, or
in `do_send_from_queue`. -/
inductive IoStage where
  | idle
  | sendResult (ec : Option ErrorCode) (now : UInt64)
  | sending (stage : SendStage)
  deriving DecidableEq, Repr

/-- Where it stands after a step of `do_send_from_queue`. -/
def IoStage.after : Option SendStage → IoStage
  | none => .idle
  | some stage => .sending stage

def IoStage.passed : IoStage → Bool
  | .sending stage => stage.passed
  | _ => false

/-- The handlers that the io thread runs. -/
def Act.ofIo : Act → Bool
  | .reconnectTimer _ _ _ => true
  | .heartbeatTimer _ _ => true
  | .connectDone _ _ _ => true
  | .readDone _ _ _ => true
  | .writeDone _ _ => true
  | .pingDone _ _ => true
  | _ => false

end LoopbackIpcClient

open LoopbackIpcClient

/-- The client, the phase of its socket, and the calls in progress; `notify` is `none` between two calls of
`send`. -/
structure SendingClient where
  client : LoopbackIpcClient
  phase : Phase
  notify : Option SendStage
  io : IoStage

namespace SendingClient

/-- An action of `Ipc.Link`, or the next step of the notification thread or of the io thread. -/
inductive Move where
  | act (a : LoopbackIpcClient.Act)
  | notify
  | io
  deriving DecidableEq, Repr

/-- A new client. -/
def create (now : UInt64) : SendingClient := ⟨.create now, .closed, none, .idle⟩

/-- One action: `send`, a write that completes and a connect that succeeds begin here and end with the steps of
`do_send_from_queue`; the others are those of `Ipc.Link`. -/
def actStep (p : Platform) (cfg : NetworkConfig) (q : SendingClient) (a : LoopbackIpcClient.Act) :
    Option (SendingClient × List LoopbackIpcClient.Event) :=
  match a with
  | .send data =>
    if q.notify = none then
      some ({ q with
        client := { q.client with queue := q.client.queue ++ [data] }
        notify := some .compareExchange }, [])
    else none
  | .writeDone ec now =>
    if q.io = .idle ∧ 0 < q.client.writes then
      some ({ q with
        client := { q.client with writes := q.client.writes - 1, isSending := false }
        io := .sendResult ec now }, [])
    else none
  | .connectDone i none now => q.client.connects[i]?.bind fun socket =>
    if q.io = .idle ∧ socket = q.client.socket ∧ q.client.isOpen then
      some ({ q with
        client := connectResult cfg now { q.client with connects := q.client.connects.eraseIdx i }
        phase := .established
        io := .sending .compareExchange }, [.connected now])
    else none
  | a =>
    if a.ofIo ∧ q.io ≠ .idle then none
    else (LoopbackIpcClient.step p cfg q.client a).map fun r =>
      ({ q with client := r.1, phase := q.phase.next q.client r.1 }, r.2)

/-- One step of the io thread within a handler. -/
def ioStep (p : Platform) (cfg : NetworkConfig) (q : SendingClient) :
    Option (SendingClient × List LoopbackIpcClient.Event) :=
  match q.io with
  | .idle => none
  | .sendResult ec now =>
    let r := sendResult p cfg ec now q.client
    some ({ q with
      client := r.1.1
      phase := q.phase.next q.client r.1.1
      io := if r.2 then .sending .compareExchange else .idle }, r.1.2)
  | .sending stage =>
    let r := sendStep q.client stage
    some ({ q with client := r.1, io := .after r.2 }, [])

/-- One step of a schedule; `none` when the thread that is to move cannot. -/
def step (p : Platform) (cfg : NetworkConfig) (q : SendingClient) :
    Move → Option (SendingClient × List LoopbackIpcClient.Event)
  | .act a => q.actStep p cfg a
  | .notify => q.notify.map fun stage =>
      let r := sendStep q.client stage
      ({ q with client := r.1, notify := r.2 }, [])
  | .io => q.ioStep p cfg

/-- The two threads under a schedule. -/
def threads (p : Platform) (cfg : NetworkConfig) : Machine SendingClient Move LoopbackIpcClient.Event :=
  ⟨step p cfg⟩

/-- The call of `do_send_from_queue` that is to move. -/
def moving (q : SendingClient) : Move → Option SendStage
  | .act _ => none
  | .notify => q.notify
  | .io =>
    match q.io with
    | .sending stage => some stage
    | _ => none

/-- A write that the step starts is on an established link. -/
def WritesEstablished (q : SendingClient) (m : Move) : Prop :=
  q.moving m = some .asyncWrite → q.phase = .established

instance (q : SendingClient) (m : Move) : Decidable (q.WritesEstablished m) :=
  inferInstanceAs (Decidable (_ → _))

/-- A call of `do_send_from_queue` stands between its test of the socket and its write. -/
def passed (q : SendingClient) : Bool := q.notify.any (·.passed) || q.io.passed

/-- The socket is not tested while it is merely open, its connect pending or failed; and no step takes the link
down while a call stands between its test and its write. -/
def Careful (p : Platform) (cfg : NetworkConfig) (q : SendingClient) (m : Move) : Prop :=
  (q.moving m = some .isConnected → q.phase ≠ .attempted) ∧
    (q.passed = true → q.phase = .established → ∀ r ∈ q.step p cfg m, r.1.phase = .established)

instance (p : Platform) (cfg : NetworkConfig) (q : SendingClient) (m : Move) :
    Decidable (q.Careful p cfg m) := inferInstanceAs (Decidable (_ ∧ _))

end SendingClient

namespace LoopbackIpcClient

variable {p : Platform} {cfg : NetworkConfig} {s s' : LoopbackIpcClient}

/-! ### Handlers that open no socket -/

/-- No connect is started, and an open socket was open before. -/
structure Quiet (s s' : LoopbackIpcClient) : Prop where
  connects : s'.connects.length ≤ s.connects.length
  opened : s'.isOpen = true → s'.socket = s.socket ∧ s.isOpen = true

namespace Quiet

/-- A change of the other fields. -/
theorem of_same (hc : s'.connects.length ≤ s.connects.length)
    (ho : s'.isOpen = s.isOpen) (hs : s'.socket = s.socket) : Quiet s s' :=
  ⟨hc, fun h => ⟨hs, ho ▸ h⟩⟩

theorem trans {s₁ s₂ s₃ : LoopbackIpcClient} (h₁ : Quiet s₁ s₂) (h₂ : Quiet s₂ s₃) : Quiet s₁ s₃ := by
  refine ⟨h₂.connects.trans h₁.connects, ?_⟩
  intro hopen
  obtain ⟨hsocket, hopen⟩ := h₂.opened hopen
  obtain ⟨hsocket', hopen⟩ := h₁.opened hopen
  exact ⟨hsocket.trans hsocket', hopen⟩

/-- A handler that is quiet, called after a change of the other fields. -/
theorem after {s₁ : LoopbackIpcClient} (h : Quiet s₁ s') (hc : s₁.connects = s.connects)
    (ho : s₁.isOpen = s.isOpen) (hs : s₁.socket = s.socket) : Quiet s s' :=
  (of_same (congrArg List.length hc).le ho hs).trans h

theorem tryReconnect : Quiet s (tryReconnect cfg s).1 := by
  obtain ⟨-, h⟩ | ⟨-, h⟩ | ⟨-, -, h⟩ := tryReconnect_cases cfg s
  · rw [h]
    exact of_same le_rfl rfl rfl
  · rw [h]
    exact of_same le_rfl rfl rfl
  · rw [h]
    exact ⟨le_rfl, nofun⟩

theorem noticed {notices : List Notice} : Quiet s (noticed cfg notices s).1 := by
  unfold LoopbackIpcClient.noticed
  split
  · exact tryReconnect
  · exact of_same le_rfl rfl rfl

theorem tryTriggerReconnect : Quiet s (tryTriggerReconnect cfg s).1 := by
  refine Quiet.trans ?_ noticed
  exact of_same le_rfl rfl rfl

theorem disconnect (now : UInt64) : Quiet s (disconnect now s) := ⟨le_rfl, nofun⟩

theorem doRead : Quiet s (doRead s) := by
  obtain ⟨n, h⟩ := doRead_eq s
  rw [h]
  exact of_same le_rfl rfl rfl

theorem handleReadResult (ec : Option ErrorCode) (bytes : List UInt8) (now : UInt64) :
    Quiet s (handleReadResult p cfg ec bytes now s).1 := by
  unfold LoopbackIpcClient.handleReadResult
  split
  · exact doRead
  · refine Quiet.trans ?_ noticed
    exact of_same le_rfl rfl rfl

theorem handlePingResult (ec : Option ErrorCode) (now : UInt64) :
    Quiet s (handlePingResult cfg ec now s).1 := by
  cases ec with
  | none => exact of_same le_rfl rfl rfl
  | some e =>
    simp only [LoopbackIpcClient.handlePingResult]
    split
    · refine Quiet.trans ?_ tryTriggerReconnect
      exact of_same le_rfl rfl rfl
    · exact of_same le_rfl rfl rfl

theorem checkHeartbeatTimeout (now : UInt64) : Quiet s (checkHeartbeatTimeout cfg now s).1 := by
  simp only [LoopbackIpcClient.checkHeartbeatTimeout]
  split_ifs
  · exact of_same le_rfl rfl rfl
  · exact of_same le_rfl rfl rfl
  · refine Quiet.trans ?_ tryTriggerReconnect
    exact (Quiet.disconnect now).after (by rfl) (by rfl) (by rfl)
  · exact of_same le_rfl rfl rfl

theorem handleHeartbeatTimer (now : UInt64) : Quiet s (handleHeartbeatTimer cfg now s).1 := by
  unfold LoopbackIpcClient.handleHeartbeatTimer
  split
  · have hping : Quiet s (sendHeartbeatPing s).1 := of_same le_rfl rfl rfl
    have hcheck := hping.trans (@checkHeartbeatTimeout cfg _ now)
    exact ⟨hcheck.connects, hcheck.opened⟩
  · exact of_same le_rfl rfl rfl

theorem enableHeartbeat (enable : Bool) : Quiet s (enableHeartbeat enable s) := by
  simp only [LoopbackIpcClient.enableHeartbeat]
  split
  · exact of_same le_rfl rfl rfl
  · exact of_same le_rfl rfl rfl

theorem handleConnectFailure (e : ErrorCode) (now : UInt64) :
    Quiet s (handleConnectResult cfg (some e) now s).1 := by
  refine Quiet.trans ?_ tryReconnect
  exact of_same le_rfl rfl rfl

end Quiet

/-- A connect is started on the current socket, which is open then. -/
structure Starts (s s' : LoopbackIpcClient) : Prop where
  opened : s'.isOpen = true
  socket : s'.socket = s.socket
  connects : s.connects.length < s'.connects.length

theorem connect_cases (cfg : NetworkConfig) (resolves : Bool) (now : UInt64) (s : LoopbackIpcClient) :
    Quiet s (connect cfg resolves now s).1 ∨ Starts s (connect cfg resolves now s).1 := by
  unfold connect
  split_ifs
  · exact .inl (.of_same le_rfl rfl rfl)
  · refine .inr ⟨rfl, rfl, ?_⟩
    simp [setState]
  · refine .inl (Quiet.trans ?_ Quiet.tryReconnect)
    exact .of_same le_rfl rfl rfl

/-- Every action but `send`, a connect that succeeds and a write that completes is quiet or starts a connect on
the current socket. -/
theorem step_quiet {a : Act} {r : LoopbackIpcClient × List Event} (h : step p cfg s a = some r)
    (hsend : ∀ data, a ≠ .send data) (hconnected : ∀ i now, a ≠ .connectDone i none now)
    (hwritten : ∀ ec now, a ≠ .writeDone ec now) : Quiet s r.1 ∨ Starts s r.1 := by
  have hsame : ∀ {s' : LoopbackIpcClient}, s'.connects = s.connects → s'.isOpen = s.isOpen →
      s'.socket = s.socket → Quiet s s' := by
    intro s' hc ho hs
    exact .of_same (congrArg List.length hc).le ho hs
  cases a with
  | connect resolves now =>
    cases h
    exact connect_cases cfg resolves now s
  | disconnect now =>
    cases h
    exact .inl (.disconnect now)
  | send data => exact absurd rfl (hsend data)
  | onReceive =>
    cases h
    exact .inl (hsame rfl rfl rfl)
  | enableHeartbeat enable =>
    cases h
    exact .inl (.enableHeartbeat enable)
  | setHeartbeatInterval intervalMs =>
    cases h
    exact .inl (hsame rfl rfl rfl)
  | reconnectExpires =>
    cases h
    exact .inl (hsame rfl rfl rfl)
  | reconnectTimer i resolves now =>
    obtain ⟨-, rfl⟩ | ⟨-, rfl⟩ := wait_cases h
    · unfold handleReconnectTimer
      split
      · obtain hquiet | hconnect := connect_cases cfg resolves now
          { s with reconnectTimer := s.reconnectTimer.eraseIdx i }
        · exact .inl (hquiet.after (by rfl) (by rfl) (by rfl))
        · exact .inr ⟨hconnect.opened, hconnect.socket, hconnect.connects⟩
      · exact .inl (hsame rfl rfl rfl)
    · exact .inl (hsame rfl rfl rfl)
  | heartbeatExpires =>
    cases h
    exact .inl (hsame rfl rfl rfl)
  | heartbeatTimer i now =>
    obtain ⟨-, rfl⟩ | ⟨-, rfl⟩ := wait_cases h
    · exact .inl ((Quiet.handleHeartbeatTimer now).after (by rfl) (by rfl) (by rfl))
    · exact .inl (hsame rfl rfl rfl)
  | connectDone i ec now =>
    obtain ⟨-, rfl⟩ := connectDone_cases h
    cases ec with
    | none => exact absurd rfl (hconnected i now)
    | some e =>
      refine .inl (Quiet.trans ?_ (.handleConnectFailure e now))
      exact .of_same (List.length_eraseIdx_le _ _) rfl rfl
  | readDone ec bytes now =>
    obtain rfl := readDone_cases h
    exact .inl ((Quiet.handleReadResult ec bytes now).after (by rfl) (by rfl) (by rfl))
  | writeDone ec now => exact absurd rfl (hwritten ec now)
  | pingDone ec now =>
    obtain rfl := pingDone_cases h
    exact .inl ((Quiet.handlePingResult ec now).after (by rfl) (by rfl) (by rfl))

theorem sendResult_quiet (ec : Option ErrorCode) (now : UInt64) : Quiet s (sendResult p cfg ec now s).1.1 := by
  cases ec with
  | none => exact .of_same le_rfl rfl rfl
  | some error => exact Quiet.noticed.after (by rfl) (by rfl) (by rfl)

theorem connectResult_frame (cfg : NetworkConfig) (now : UInt64) (s : LoopbackIpcClient) :
    (connectResult cfg now s).isOpen = s.isOpen ∧ (connectResult cfg now s).socket = s.socket := by
  unfold connectResult
  obtain ⟨n, hread⟩ := doRead_eq _
  rw [hread]
  split <;> exact ⟨rfl, rfl⟩

theorem sendStep_client (s : LoopbackIpcClient) (stage : SendStage) :
    (sendStep s stage).1.isOpen = s.isOpen ∧ (sendStep s stage).1.socket = s.socket := by
  cases stage with
  | compareExchange =>
    simp only [sendStep]
    split <;> exact ⟨rfl, rfl⟩
  | _ => exact ⟨rfl, rfl⟩

/-- Only the test of the socket takes a call past it, and it finds the socket open. -/
theorem sendStep_passed {stage next : SendStage} (h : (sendStep s stage).2 = some next)
    (hnext : next.passed = true) : stage.passed = true ∨ stage = .isConnected ∧ s.isOpen = true := by
  cases stage with
  | compareExchange =>
    simp only [sendStep] at h
    split_ifs at h
    obtain rfl := Option.some.inj h
    cases hnext
  | isConnected =>
    simp only [sendStep] at h
    split_ifs at h with hopen
    · exact .inr ⟨rfl, hopen⟩
    · obtain rfl := Option.some.inj h
      cases hnext
  | peek => exact .inl rfl
  | asyncWrite => exact .inl rfl
  | release => cases h

/-! ### The phase of the socket -/

namespace Phase

/-- The phase knows whether the socket is open. -/
def Tracks (phase : Phase) (s : LoopbackIpcClient) : Prop := phase = closed ↔ s.isOpen = false

theorem Tracks.of_open {phase : Phase} (h : phase.Tracks s) (hopen : s'.isOpen = s.isOpen) :
    phase.Tracks s' := by
  rw [Tracks, hopen]
  exact h

/-- A step that replaces no open socket, and opens one by a connect only, keeps track. -/
theorem Tracks.next {phase : Phase} (h : phase.Tracks s) (hcases : Quiet s s' ∨ Starts s s') :
    (phase.next s s').Tracks s' := by
  cases hopen : s'.isOpen with
  | false => exact iff_of_true (if_pos (.inl hopen)) hopen
  | true =>
    have hbefore : s'.socket = s.socket ∧ (s.isOpen = true ∨ s.connects.length < s'.connects.length) := by
      rcases hcases with hquiet | hstarts
      · exact ⟨(hquiet.opened hopen).1, .inl (hquiet.opened hopen).2⟩
      · exact ⟨hstarts.socket, .inr hstarts.connects⟩
    refine iff_of_false ?_ (by simp [hopen])
    unfold Phase.next
    rw [if_neg (by simp [hopen, hbefore.1])]
    split_ifs with hstarts
    · exact nofun
    · intro hphase
      have hclosed := h.mp hphase
      simp [hclosed, hstarts] at hbefore

end Phase

end LoopbackIpcClient

namespace SendingClient

variable {p : Platform} {cfg : NetworkConfig} {q q' : SendingClient} {es : List LoopbackIpcClient.Event}

/-! ### Steps -/

/-- The phase knows whether the socket is open, and a call is past its test on an established link only. -/
structure Guarded (q : SendingClient) : Prop where
  tracks : q.phase.Tracks q.client
  passed : q.passed = true → q.phase = .established

theorem guarded_create (now : UInt64) : Guarded (create now) := ⟨iff_of_true rfl rfl, nofun⟩

/-- An action that does not begin a call. -/
theorem actStep_other {a : LoopbackIpcClient.Act} (hsend : ∀ data, a ≠ .send data)
    (hconnected : ∀ i now, a ≠ .connectDone i none now) (hwritten : ∀ ec now, a ≠ .writeDone ec now) :
    q.actStep p cfg a =
      if a.ofIo ∧ q.io ≠ .idle then none
      else (LoopbackIpcClient.step p cfg q.client a).map fun r =>
        ({ q with client := r.1, phase := q.phase.next q.client r.1 }, r.2) := by
  cases a with
  | send data => exact absurd rfl (hsend data)
  | writeDone ec now => exact absurd rfl (hwritten ec now)
  | connectDone i ec now =>
    cases ec with
    | none => exact absurd rfl (hconnected i now)
    | some e => rfl
  | _ => rfl

/-- The actions: those that begin with a step of their own, and those of `Ipc.Link`. -/
theorem actStep_cases {a : LoopbackIpcClient.Act} (h : q.actStep p cfg a = some (q', es)) :
    (∃ data, a = .send data ∧ q'.client.isOpen = q.client.isOpen ∧ q'.phase = q.phase ∧
      q'.notify = some .compareExchange ∧ q'.io = q.io) ∨
    (∃ ec now, a = .writeDone ec now ∧ q'.client.isOpen = q.client.isOpen ∧ q'.phase = q.phase ∧
      q'.notify = q.notify ∧ q'.io = .sendResult ec now) ∨
    (∃ i now, a = .connectDone i none now ∧ q'.client.isOpen = true ∧ q'.phase = .established ∧
      q'.notify = q.notify ∧ q'.io = .sending .compareExchange) ∨
    ((Quiet q.client q'.client ∨ Starts q.client q'.client) ∧
      q'.phase = q.phase.next q.client q'.client ∧ q'.notify = q.notify ∧ q'.io = q.io) := by
  have hother : (∀ data, a ≠ .send data) → (∀ i now, a ≠ .connectDone i none now) →
      (∀ ec now, a ≠ .writeDone ec now) → (Quiet q.client q'.client ∨ Starts q.client q'.client) ∧
        q'.phase = q.phase.next q.client q'.client ∧ q'.notify = q.notify ∧ q'.io = q.io := by
    intro hsend hconnected hwritten
    rw [actStep_other hsend hconnected hwritten] at h
    split_ifs at h
    obtain ⟨r, hstep, heq⟩ := Option.map_eq_some_iff.mp h
    obtain ⟨rfl, -⟩ := Prod.mk.inj heq
    exact ⟨step_quiet hstep hsend hconnected hwritten, rfl, rfl, rfl⟩
  cases a with
  | send data =>
    simp only [actStep] at h
    split_ifs at h
    obtain ⟨rfl, -⟩ := Prod.mk.inj (Option.some.inj h)
    exact .inl ⟨data, rfl, rfl, rfl, rfl, rfl⟩
  | writeDone ec now =>
    simp only [actStep] at h
    split_ifs at h
    obtain ⟨rfl, -⟩ := Prod.mk.inj (Option.some.inj h)
    exact .inr (.inl ⟨ec, now, rfl, rfl, rfl, rfl, rfl⟩)
  | connectDone i ec now =>
    cases ec with
    | none =>
      obtain ⟨socket, -, h⟩ := Option.bind_eq_some_iff.mp h
      split_ifs at h with hopen
      obtain ⟨rfl, -⟩ := Prod.mk.inj (Option.some.inj h)
      exact .inr (.inr (.inl ⟨i, now, rfl, (connectResult_frame cfg now _).1.trans hopen.2.2, rfl, rfl,
        rfl⟩))
    | some e => exact .inr (.inr (.inr (hother (by simp) (by simp) (by simp))))
  | _ => exact .inr (.inr (.inr (hother (by simp) (by simp) (by simp))))

/-- One step: where the phase comes from, and how a call gets past its test. -/
theorem Guarded.tracks_step {m : Move} (h : Guarded q) (hs : q.step p cfg m = some (q', es)) :
    q'.phase.Tracks q'.client := by
  cases m with
  | act a =>
    obtain ⟨data, -, hopen, hphase, -⟩ | ⟨ec, now, -, hopen, hphase, -⟩ | ⟨i, now, -, hopen, hphase, -⟩ |
      ⟨hcases, hphase, -⟩ := actStep_cases hs
    · rw [hphase]
      exact h.tracks.of_open hopen
    · rw [hphase]
      exact h.tracks.of_open hopen
    · rw [hphase]
      exact iff_of_false nofun (by simp [hopen])
    · rw [hphase]
      exact h.tracks.next hcases
  | notify =>
    obtain ⟨stage, -, heq⟩ := Option.map_eq_some_iff.mp hs
    obtain ⟨rfl, -⟩ := Prod.mk.inj heq
    exact h.tracks.of_open (sendStep_client q.client stage).1
  | io =>
    simp only [step, ioStep] at hs
    split at hs
    · cases hs
    · obtain ⟨rfl, -⟩ := Prod.mk.inj (Option.some.inj hs)
      exact h.tracks.next (.inl (sendResult_quiet _ _))
    · obtain ⟨rfl, -⟩ := Prod.mk.inj (Option.some.inj hs)
      exact h.tracks.of_open (sendStep_client q.client _).1

/-- A call that is past its test was so before, or tests the socket in the step and finds it open. -/
theorem passed_step {m : Move} (hs : q.step p cfg m = some (q', es)) (hpassed : q'.passed = true) :
    q.passed = true ∨ q.moving m = some .isConnected ∧ q.client.isOpen = true ∧ q'.phase = q.phase := by
  cases m with
  | act a =>
    left
    obtain ⟨data, -, -, -, hnotify, hio⟩ | ⟨ec, now, -, -, -, hnotify, hio⟩ |
      ⟨i, now, -, -, -, hnotify, hio⟩ | ⟨-, -, hnotify, hio⟩ := actStep_cases hs
    · rw [passed, hnotify, hio] at hpassed
      exact Bool.or_eq_true_iff.mpr (.inr (by simpa [SendStage.passed] using hpassed))
    · rw [passed, hnotify, hio] at hpassed
      exact Bool.or_eq_true_iff.mpr (.inl (by simpa [IoStage.passed] using hpassed))
    · rw [passed, hnotify, hio] at hpassed
      exact Bool.or_eq_true_iff.mpr (.inl (by simpa [IoStage.passed, SendStage.passed] using hpassed))
    · rw [passed, hnotify, hio] at hpassed
      exact hpassed
  | notify =>
    obtain ⟨stage, hnotify, heq⟩ := Option.map_eq_some_iff.mp hs
    obtain ⟨rfl, -⟩ := Prod.mk.inj heq
    rcases Bool.or_eq_true_iff.mp hpassed with hany | hio
    · obtain ⟨next, hnext, hpass⟩ := (Option.any_eq_true _ _).mp hany
      rcases sendStep_passed hnext hpass with hbefore | ⟨rfl, hopen⟩
      · exact .inl (by simp [passed, hnotify, hbefore])
      · exact .inr ⟨hnotify, hopen, rfl⟩
    · exact .inl (Bool.or_eq_true_iff.mpr (.inr hio))
  | io =>
    simp only [step, ioStep] at hs
    split at hs
    · cases hs
    · obtain ⟨rfl, -⟩ := Prod.mk.inj (Option.some.inj hs)
      rcases Bool.or_eq_true_iff.mp hpassed with hany | hio
      · exact .inl (Bool.or_eq_true_iff.mpr (.inl hany))
      · revert hio
        show (if _ then _ else _ : IoStage).passed = true → _
        split <;> exact nofun
    · next stage hsending =>
      obtain ⟨rfl, -⟩ := Prod.mk.inj (Option.some.inj hs)
      rcases Bool.or_eq_true_iff.mp hpassed with hany | hio
      · exact .inl (Bool.or_eq_true_iff.mpr (.inl hany))
      · cases hnext : (sendStep q.client stage).2 with
        | none => simp [hnext, IoStage.after, IoStage.passed] at hio
        | some next =>
          simp only [hnext, IoStage.after, IoStage.passed] at hio
          rcases sendStep_passed hnext hio with hbefore | ⟨rfl, hopen⟩
          · exact .inl (by simp [passed, hsending, IoStage.passed, hbefore])
          · exact .inr ⟨by simp [moving, hsending], hopen, rfl⟩

/-- A careful step leaves every call that is past its test on an established link. -/
theorem Guarded.step {m : Move} (h : Guarded q) (hm : q.Careful p cfg m)
    (hs : q.step p cfg m = some (q', es)) : Guarded q' := by
  refine ⟨h.tracks_step hs, fun hpassed => ?_⟩
  rcases passed_step hs hpassed with hbefore | ⟨htests, hopen, hphase⟩
  · exact hm.2 hbefore (h.passed hbefore) _ hs
  · rw [hphase]
    have hclosed : q.phase ≠ .closed := by
      intro hclosed
      rw [h.tracks.mp hclosed] at hopen
      cases hopen
    have hattempted := hm.1 htests
    cases hq : q.phase with
    | closed => exact absurd hq hclosed
    | attempted => exact absurd hq hattempted
    | established => rfl

/-- A call that writes is past its test. -/
theorem passed_of_moving {m : Move} (h : q.moving m = some .asyncWrite) : q.passed = true := by
  cases m with
  | act a => cases h
  | notify =>
    replace h : q.notify = some .asyncWrite := h
    simp [passed, h, SendStage.passed]
  | io =>
    cases hio : q.io with
    | idle => simp [moving, hio] at h
    | sendResult ec now => simp [moving, hio] at h
    | sending stage =>
      simp only [moving, hio, Option.some.injEq] at h
      simp [passed, hio, IoStage.passed, h, SendStage.passed]

/-- **Early sends**: in every run of a new client, the calls of the user, the timers, the completions and the
steps of `send()` in any order and with any result, every write is started on an established link, as long as
the socket is not tested while it is merely open and nothing takes the link down between a test and its write. -/
theorem run_writesEstablished {start : UInt64} {ms : List Move}
    (hcareful : (threads p cfg).Along (Careful p cfg) (create start) ms) :
    (threads p cfg).Along WritesEstablished (create start) ms := by
  have hguarded : (threads p cfg).Along (fun q _ => Guarded q) (create start) ms :=
    hcareful.holds (fun _ _ _ _ hq hm hs => hq.step hm hs) (guarded_create start)
  refine hguarded.mono fun q m hq => ?_
  intro hwrites
  exact hq.passed (passed_of_moving hwrites)

/-- A new client connects, and a message goes out; a second one is queued while the first is being sent. -/
def sendConnected : List Move :=
  [.act (.connect true 2), .act (.connectDone 0 none 3), .io, .io, .io, .io, .act (.send [7]), .notify, .notify,
    .notify, .notify, .act (.send [8]), .notify, .act (.writeDone none 4), .io, .io, .io, .io, .io]

theorem run_writesEstablished_connected :
    (threads .windows {}).Along WritesEstablished (create 1) sendConnected ∧
    ((threads .windows {}).run (create 1) sendConnected).map
        (fun r => (r.1.client.writes, r.1.client.queue, r.1.phase)) = some (1, [[8]], .established) :=
  ⟨run_writesEstablished (by decide +kernel), by rfl⟩

/-- A `send()` during the first connect: the write starts on a socket that is not connected, and its error
makes the monitor replace that socket, which leaves the pending connect behind. -/
theorem early_send_replaces_socket :
    ¬ (threads .windows {}).Along WritesEstablished (create 1)
      [.act (.connect true 2), .act (.send [7]), .notify, .notify, .notify, .notify] ∧
    ((threads .windows {}).run (create 1)
      [.act (.connect true 2), .act (.send [7]), .notify, .notify, .notify, .notify,
        .act (.writeDone (some ⟨.system, 10057⟩) 3), .io]).map
        (fun r => (r.1.client.writes, r.1.client.connects, r.1.client.socket, r.1.client.isOpen)) =
      some (0, [0], 1, false) :=
  ⟨by decide +kernel, by rfl⟩

/-- One PING of the heartbeat, which fails. -/
def failedPing (now : UInt64) : List Move :=
  [.act .heartbeatExpires, .act (.heartbeatTimer 0 now), .act (.pingDone (some ⟨.system, 10054⟩) now)]

/-- The third PING fails while `send()` stands between its test and its write: it writes to the new socket. -/
example : ¬ (threads .windows {}).Along WritesEstablished (create 1)
    (([.act (.connect true 2), .act (.connectDone 0 none 3), .io, .io, .io, .io] ++ failedPing 4 ++ failedPing 5) ++
      (.act (.send [7]) :: .notify :: .notify :: failedPing 6) ++ [.notify, .notify]) := by decide +kernel

/-! ### A condition that fails -/

/-- One step of a call of `do_send_from_queue`, on either thread. -/
theorem step_moving {m : Move} {stage : SendStage} (h : q.moving m = some stage) :
    ∃ q', q.step p cfg m = some (q', []) ∧ q'.client = (sendStep q.client stage).1 ∧ q'.phase = q.phase ∧
      q'.moving m = (sendStep q.client stage).2 := by
  cases m with
  | act a => cases h
  | notify =>
    replace h : q.notify = some stage := h
    refine ⟨{ q with client := (sendStep q.client stage).1, notify := (sendStep q.client stage).2 }, ?_, rfl,
      rfl, rfl⟩
    simp [step, h]
  | io =>
    cases hio : q.io with
    | idle => simp [moving, hio] at h
    | sendResult ec now => simp [moving, hio] at h
    | sending stage' =>
      obtain rfl : stage' = stage := by simpa [moving, hio] using h
      refine ⟨{ q with client := (sendStep q.client stage').1, io := .after (sendStep q.client stage').2 }, ?_,
        rfl, rfl, ?_⟩
      · simp [step, ioStep, hio]
      · cases hnext : (sendStep q.client stage').2 <;> simp [moving, IoStage.after]

/-- A call past its test that finds a message writes it, whatever has become of the link. -/
theorem peek_writes {m : Move} (hpeek : q.moving m = some .peek) (hqueue : q.client.queue ≠ [])
    (hphase : q.phase ≠ .established) :
    ∃ q', q.step p cfg m = some (q', []) ∧ ¬ q'.WritesEstablished m := by
  obtain ⟨q', hs, -, hphase', hmoving⟩ := @step_moving p cfg _ _ _ hpeek
  refine ⟨q', hs, fun hwrites => hphase ?_⟩
  rw [← hphase']
  refine hwrites (hmoving.trans ?_)
  simp [sendStep, hqueue]

/-- A call that tests the socket while it is merely open goes on to write, if there is a message. -/
theorem test_writes {m : Move} (h : Guarded q) (htest : q.moving m = some .isConnected)
    (hphase : q.phase = .attempted) (hqueue : q.client.queue ≠ []) :
    ∃ q', (threads p cfg).run q [m, m] = some (q', []) ∧ ¬ q'.WritesEstablished m := by
  have hopen : q.client.isOpen = true := by
    by_contra hclosed
    have hno := h.tracks.mpr (by simpa using hclosed)
    rw [hphase] at hno
    cases hno
  obtain ⟨q₁, hs₁, hclient, hphase₁, hmoving⟩ := @step_moving p cfg _ _ _ htest
  have hpeek : q₁.moving m = some .peek := by simpa [sendStep, hopen] using hmoving
  have hqueue₁ : q₁.client.queue ≠ [] := by
    rw [hclient]
    exact hqueue
  obtain ⟨q₂, hs₂, hno⟩ := @peek_writes p cfg _ _ hpeek hqueue₁
    (by rw [hphase₁, hphase]; exact nofun)
  have hrun₂ : (threads p cfg).run q₁ [m] = some (q₂, []) := Machine.run_singleton hs₂
  exact ⟨q₂, Machine.run_cons hs₁ hrun₂, hno⟩

/-! ### Without interleaving -/

/-- `do_send_from_queue` from a step on to its return, by itself. -/
inductive Returns : LoopbackIpcClient → Option SendStage → LoopbackIpcClient → Prop where
  | done (s : LoopbackIpcClient) : Returns s none s
  | step {s t : LoopbackIpcClient} {stage : SendStage}
      (rest : Returns (sendStep s stage).1 (sendStep s stage).2 t) : Returns s (some stage) t

theorem returns_doSendFromQueue (s : LoopbackIpcClient) :
    Returns s (some .compareExchange) (doSendFromQueue s) := by
  refine .step ?_
  unfold doSendFromQueue
  simp only [sendStep]
  split_ifs with hsending hclosed hempty
  · exact .done s
  all_goals
    -- the flag is put back where nothing is written
    have hfree : s.isSending = false := by simpa using hsending
    have hreleased : { s with isSending := false } = s := by rw [← hfree]
    refine .step ?_
    simp only [sendStep]
  · rw [if_neg (by simpa using hclosed)]
    have hlast : Returns { s with isSending := true } (some .release) { s with isSending := false } :=
      .step (.done _)
    rwa [hreleased] at hlast
  · rw [if_pos (by simpa using hclosed)]
    refine .step ?_
    simp only [sendStep]
    rw [if_pos hempty]
    have hlast : Returns { s with isSending := true } (some .release) { s with isSending := false } :=
      .step (.done _)
    rwa [hreleased] at hlast
  · rw [if_pos (by simpa using hclosed)]
    refine .step ?_
    simp only [sendStep]
    rw [if_neg hempty]
    exact .step (.done _)

section Alone

variable {s t : LoopbackIpcClient} {stage : Option SendStage}

theorem Returns.notify (h : Returns s stage t) (phase : Phase) (io : IoStage) :
    ∃ n, (threads p cfg).run ⟨s, phase, stage, io⟩ (List.replicate n .notify) =
      some (⟨t, phase, none, io⟩, []) := by
  induction h with
  | done s => exact ⟨0, rfl⟩
  | @step s t stage _ ih =>
    obtain ⟨n, hn⟩ := ih
    have hs : (threads p cfg).step ⟨s, phase, some stage, io⟩ .notify =
        some (⟨(sendStep s stage).1, phase, (sendStep s stage).2, io⟩, []) := rfl
    exact ⟨n + 1, Machine.run_cons hs hn⟩

theorem Returns.io (h : Returns s stage t) (phase : Phase) (notify : Option SendStage) :
    ∃ n, (threads p cfg).run ⟨s, phase, notify, .after stage⟩ (List.replicate n .io) =
      some (⟨t, phase, notify, .idle⟩, []) := by
  induction h with
  | done s => exact ⟨0, rfl⟩
  | @step s t stage _ ih =>
    obtain ⟨n, hn⟩ := ih
    have hs : (threads p cfg).step ⟨s, phase, notify, .sending stage⟩ .io =
        some (⟨(sendStep s stage).1, phase, notify, .after (sendStep s stage).2⟩, []) := rfl
    exact ⟨n + 1, Machine.run_cons hs hn⟩

theorem handleConnectResult_eq (cfg : NetworkConfig) (now : UInt64) (s : LoopbackIpcClient) :
    handleConnectResult cfg none now s = (doSendFromQueue (connectResult cfg now s), [.connected now]) := rfl

theorem handleSendResult_eq (p : Platform) (cfg : NetworkConfig) (ec : Option ErrorCode) (now : UInt64)
    (s : LoopbackIpcClient) :
    let r := sendResult p cfg ec now { s with isSending := false }
    handleSendResult p cfg ec now s = if r.2 then (doSendFromQueue r.1.1, r.1.2) else r.1 := by
  cases ec with
  | none => rfl
  | some error =>
    simp only [handleSendResult, sendResult]
    by_cases hneed : (s.monitor.recordSendFailure p error true now now).2.2 = true
    · rw [if_pos hneed]
      simp [hneed]
    · rw [if_neg hneed]
      simp [hneed]

/-- **The steps of `Ipc.Link`** are runs here in which nobody interrupts `do_send_from_queue`. -/
theorem run_alone {a : LoopbackIpcClient.Act} {r : LoopbackIpcClient × List LoopbackIpcClient.Event}
    (h : LoopbackIpcClient.step p cfg s a = some r)
    (phase : Phase) : ∃ ms phase', (threads p cfg).run ⟨s, phase, none, .idle⟩ (.act a :: ms) =
      some (⟨r.1, phase', none, .idle⟩, r.2) := by
  by_cases hother : (∀ data, a ≠ .send data) ∧ (∀ i now, a ≠ .connectDone i none now) ∧
      ∀ ec now, a ≠ .writeDone ec now
  · have hact : (threads p cfg).step ⟨s, phase, none, .idle⟩ (.act a) =
        some (⟨r.1, phase.next s r.1, none, .idle⟩, r.2) := by
      show actStep p cfg _ a = _
      rw [actStep_other hother.1 hother.2.1 hother.2.2, if_neg (by simp), h]
      rfl
    exact ⟨[], phase.next s r.1, Machine.run_singleton hact⟩
  · simp only [not_and_or, not_forall, not_not] at hother
    obtain ⟨data, rfl⟩ | ⟨i, now, rfl⟩ | ⟨ec, now, rfl⟩ := hother
    · cases h
      obtain ⟨n, hn⟩ := (returns_doSendFromQueue { s with queue := s.queue ++ [data] }).notify
        (p := p) phase .idle
      have hact : (threads p cfg).step ⟨s, phase, none, .idle⟩ (.act (.send data)) =
          some (⟨{ s with queue := s.queue ++ [data] }, phase, some .compareExchange, .idle⟩, []) := rfl
      exact ⟨List.replicate n .notify, phase, Machine.run_cons hact hn⟩
    · obtain ⟨socket, hsocket, h⟩ := Option.bind_eq_some_iff.mp h
      split_ifs at h with hopen
      obtain rfl := Option.some.inj h
      rw [handleConnectResult_eq]
      obtain ⟨n, hn⟩ := (returns_doSendFromQueue
        (connectResult cfg now { s with connects := s.connects.eraseIdx i })).io (p := p) .established none
      have hact : (threads p cfg).step ⟨s, phase, none, .idle⟩ (.act (.connectDone i none now)) =
          some (⟨connectResult cfg now { s with connects := s.connects.eraseIdx i }, .established, none,
            .sending .compareExchange⟩, [.connected now]) := by
        show (s.connects[i]?.bind _) = _
        rw [hsocket, Option.bind_some]
        exact if_pos ⟨rfl, hopen rfl⟩
      exact ⟨List.replicate n .io, .established, Machine.run_cons hact hn⟩
    · simp only [LoopbackIpcClient.step] at h
      split_ifs at h with hpos
      obtain rfl := Option.some.inj h
      rw [handleSendResult_eq]
      have hact : (threads p cfg).step ⟨s, phase, none, .idle⟩ (.act (.writeDone ec now)) =
          some (⟨{ s with writes := s.writes - 1, isSending := false }, phase, none,
            .sendResult ec now⟩, []) := if_pos ⟨rfl, hpos⟩
      have hresult : ∀ t, sendResult p cfg ec now { s with writes := s.writes - 1, isSending := false } = t →
          (threads p cfg).step ⟨{ s with writes := s.writes - 1, isSending := false }, phase, none,
            .sendResult ec now⟩ .io = some (⟨t.1.1,
              phase.next { s with writes := s.writes - 1, isSending := false } t.1.1, none,
              if t.2 then .sending .compareExchange else .idle⟩, t.1.2) := by
        rintro t rfl
        rfl
      obtain ⟨⟨⟨client, es⟩, goesOn⟩, ht⟩ : ∃ t, sendResult p cfg ec now
        { s with writes := s.writes - 1, isSending := false } = t := ⟨_, rfl⟩
      have hio := hresult _ ht
      simp only [ht]
      cases goesOn with
      | false =>
        exact ⟨[.io], phase.next { s with writes := s.writes - 1, isSending := false } client,
          Machine.run_cons hact (Machine.run_singleton hio)⟩
      | true =>
        obtain ⟨n, hn⟩ := @Returns.io p cfg _ _ _ (returns_doSendFromQueue client)
          (phase.next { s with writes := s.writes - 1, isSending := false } client) none
        refine ⟨.io :: List.replicate n .io,
          phase.next { s with writes := s.writes - 1, isSending := false } client, ?_⟩
        have hrest := Machine.run_cons hio hn
        rw [List.append_nil] at hrest
        exact Machine.run_cons hact hrest

end Alone

end SendingClient

end LuspUpload.Ipc
