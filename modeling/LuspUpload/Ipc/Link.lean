import LuspUpload.Config.NetworkConfig
import LuspUpload.Ipc.Monitor
import LuspUpload.Lib.Runs
import LuspUpload.Lib.Timer

/-!
# Ipc.Link — the life of the client's connection

`Lusp_AsioLoopbackIpcClient` handler by handler: connecting, reading, sending, reconnecting and the
heartbeat, with the state they share and the operations they leave pending.  An action is a call of the
user, the passing of a deadline, or a pending operation that completes; every order of them is a
schedule.  A handler runs without interruption and reads one time.

* Completions of reads and writes may have any result.  `async_connect` succeeds only on a socket that is
  still open and has not been replaced.
* The callbacks of the monitor log a line, respectively call `try_reconnect`.
* `handle_heartbeat_pong` is called by nobody; the bytes of a PONG go to `on_message_` like all others.
* The message queue is an ideal FIFO.
* `do_send_from_queue` is a part of the handler or call that makes it; `Ipc.EarlySend` takes its steps apart.
-/

namespace LuspUpload.Ipc

open Lib Config

/-- The client; `socket` names the socket object that `socket_` points to.  `connects` are the sockets of
the pending connects; `reads`, `writes` and `pings` count the other pending operations. -/
structure LoopbackIpcClient where
  monitor : ConnectionMonitor
  currentReconnectAttempts : ℤ
  isConnecting : Bool
  isPermanentlyStopped : Bool
  socket : ℕ
  isOpen : Bool
  onMessage : Bool
  isSending : Bool
  queue : List (List UInt8)
  heartbeatEnabled : Bool
  heartbeatIntervalMs : UInt32
  heartbeatSequence : UInt32
  lastPongTimeMs : UInt64
  heartbeatFailureCount : UInt32
  reconnectTimer : Timer
  heartbeatTimer : Timer
  connects : List ℕ
  reads : ℕ
  writes : ℕ
  pings : ℕ

namespace LoopbackIpcClient

/-- What a handler does beside changing the state. -/
inductive Event where
  | attempted
  | armed (delayMs : UInt32)
  | connected (now : UInt64)
  | tick (now : UInt64)
  | ping (sequence : UInt32)
  | timedOut
  | timeoutDisconnect
  | received (bytes : List UInt8) (now : UInt64)
  | message (bytes : List UInt8)
  deriving DecidableEq, Repr

/-- A handler, or a part of one. -/
abbrev Handler := LoopbackIpcClient → LoopbackIpcClient × List Event

/-- One part of a handler after the other. -/
def andThen (first second : Handler) : Handler := fun s =>
  ((second (first s).1).1, (first s).2 ++ (second (first s).1).2)

/-- The constructor. -/
def create (now : UInt64) : LoopbackIpcClient where
  monitor := .create now true true
  currentReconnectAttempts := 0
  isConnecting := false
  isPermanentlyStopped := false
  socket := 0
  isOpen := false
  onMessage := false
  isSending := false
  queue := []
  heartbeatEnabled := false
  heartbeatIntervalMs := 10000
  heartbeatSequence := 0
  lastPongTimeMs := 0
  heartbeatFailureCount := 0
  reconnectTimer := []
  heartbeatTimer := []
  connects := []
  reads := 0
  writes := 0
  pings := 0

/-- `connection_monitor_->set_state`. -/
def setState (newState : ConnectionState) (now : UInt64) (s : LoopbackIpcClient) : LoopbackIpcClient :=
  { s with monitor := (s.monitor.setState newState now).1 }

/-! ### Reconnecting and connecting -/

/-- The delay before reconnect attempt number `attempts`.  The shift is taken modulo 32, as the
hardware does; from attempt 33 on the source leaves it undefined. -/
def reconnectDelay (cfg : NetworkConfig) (attempts : ℤ) : UInt32 :=
  if cfg.enableReconnectBackoff ∧ 1 < attempts then
    let exponentialDelay := cfg.reconnectIntervalMs * (1 <<< UInt32.ofNat (attempts - 1).toNat)
    min exponentialDelay cfg.reconnectBackoffMs
  else cfg.reconnectIntervalMs

/-- `try_reconnect`. -/
def tryReconnect (cfg : NetworkConfig) : Handler := fun s =>
  if s.isPermanentlyStopped then (s, [])
  else if !cfg.enableAutoReconnect then (s, [])
  else if cfg.maxReconnectAttempts.toInt32.toInt ≤ s.currentReconnectAttempts then
    ({ s with isPermanentlyStopped := true }, [])
  else
    let attempts := s.currentReconnectAttempts + 1
    ({ s with
        currentReconnectAttempts := attempts
        isConnecting := false
        socket := s.socket + 1
        isOpen := false
        reconnectTimer := s.reconnectTimer.rearm }, [.armed (reconnectDelay cfg attempts)])

/-- The reconnect callback of the monitor, if one of its operations has invoked it. -/
def noticed (cfg : NetworkConfig) (notices : List Notice) : Handler := fun s =>
  if .reconnect ∈ notices then tryReconnect cfg s else (s, [])

/-- `connection_monitor_->try_trigger_reconnect`. -/
def tryTriggerReconnect (cfg : NetworkConfig) : Handler := fun s =>
  let r := s.monitor.tryTriggerReconnect
  noticed cfg r.2.1 { s with monitor := r.1 }

/-- `connect`; `resolves` says whether the host can be resolved.  `async_connect` opens the socket. -/
def connect (cfg : NetworkConfig) (resolves : Bool) (now : UInt64) : Handler := fun s =>
  if s.isConnecting then (s, [])
  else
    let s := setState .connecting now { s with isConnecting := true, isPermanentlyStopped := false }
    if resolves then
      ({ s with isOpen := true, connects := s.connects ++ [s.socket] }, [.attempted])
    else
      let r := tryReconnect cfg (setState .disconnected now { s with isConnecting := false })
      (r.1, .attempted :: r.2)

/-! ### The heartbeat timer -/

/-- `start_heartbeat_timer`. -/
def startHeartbeatTimer (s : LoopbackIpcClient) : LoopbackIpcClient :=
  { s with heartbeatTimer := s.heartbeatTimer.rearm }

/-- `stop_heartbeat_timer`. -/
def stopHeartbeatTimer (s : LoopbackIpcClient) : LoopbackIpcClient :=
  { s with heartbeatEnabled := false, heartbeatTimer := s.heartbeatTimer.cancel }

/-- `enable_heartbeat`. -/
def enableHeartbeat (enable : Bool) (s : LoopbackIpcClient) : LoopbackIpcClient :=
  let s := { s with heartbeatEnabled := enable }
  if enable && s.isOpen then startHeartbeatTimer s else stopHeartbeatTimer s

/-- `disconnect`. -/
def disconnect (now : UInt64) (s : LoopbackIpcClient) : LoopbackIpcClient :=
  { stopHeartbeatTimer (setState .disconnected now { s with isPermanentlyStopped := true }) with
    isOpen := false }

/-! ### Reading and sending -/

/-- `do_read`. -/
def doRead (s : LoopbackIpcClient) : LoopbackIpcClient :=
  if s.isOpen then { s with reads := s.reads + 1 } else s

/-- `do_send_from_queue`. -/
def doSendFromQueue (s : LoopbackIpcClient) : LoopbackIpcClient :=
  if s.isSending then s
  else if !s.isOpen then s
  else if s.queue.isEmpty then s
  else { s with isSending := true, writes := s.writes + 1 }

/-- `send`. -/
def send (data : List UInt8) (s : LoopbackIpcClient) : LoopbackIpcClient :=
  doSendFromQueue { s with queue := s.queue ++ [data] }

/-- `handle_connect_result`; `none` is success. -/
def handleConnectResult (cfg : NetworkConfig) (ec : Option ErrorCode) (now : UInt64) : Handler := fun s =>
  let s := { s with isConnecting := false }
  match ec with
  | none =>
    let s := setState .connected now { s with currentReconnectAttempts := 0 }
    let s := { s with monitor := (s.monitor.resetStatistics now).reconnectCompleted }
    let s :=
      if cfg.enableAppHeartbeat then
        startHeartbeatTimer { s with
          heartbeatEnabled := true
          heartbeatIntervalMs := cfg.heartbeatIntervalMs
          lastPongTimeMs := now }
      else s
    (doSendFromQueue (doRead s), [.connected now])
  | some _ => tryReconnect cfg (setState .disconnected now s)

/-- `handle_read_result`.  An empty read without an error counts as a failure, with error code 0. -/
def handleReadResult (p : Platform) (cfg : NetworkConfig) (ec : Option ErrorCode) (bytes : List UInt8)
    (now : UInt64) : Handler := fun s =>
  if ec = none ∧ bytes ≠ [] then
    (doRead s, .received bytes now :: if s.onMessage then [.message bytes] else [])
  else
    let r := s.monitor.recordReadFailure p (ec.getD ⟨.system, 0⟩) now now
    noticed cfg r.2.1 { s with monitor := r.1 }

/-- `handle_send_result`. -/
def handleSendResult (p : Platform) (cfg : NetworkConfig) (ec : Option ErrorCode) (now : UInt64) :
    Handler := fun s =>
  let s := { s with isSending := false }
  match ec with
  | none =>
    (doSendFromQueue { s with
      queue := s.queue.tail
      monitor := s.monitor.recordSendSuccess now }, [])
  | some error =>
    let r := s.monitor.recordSendFailure p error true now now
    let s' := noticed cfg r.2.1 { s with monitor := r.1 }
    if r.2.2 then s' else (doSendFromQueue s'.1, s'.2)

/-! ### The heartbeat -/

/-- `send_heartbeat_ping`. -/
def sendHeartbeatPing : Handler := fun s =>
  ({ s with heartbeatSequence := s.heartbeatSequence + 1, pings := s.pings + 1 },
    [.ping s.heartbeatSequence])

/-- The write handler of `send_heartbeat_ping`. -/
def handlePingResult (cfg : NetworkConfig) (ec : Option ErrorCode) (now : UInt64) : Handler := fun s =>
  match ec with
  | none => (s, [])
  | some _ =>
    let failureCount := s.heartbeatFailureCount
    let s := { s with
      heartbeatFailureCount := failureCount + 1
      monitor := (s.monitor.recordHeartbeatFailure false now).1 }
    if cfg.heartbeatMaxFailures ≤ failureCount + 1 then tryTriggerReconnect cfg s else (s, [])

/-- `check_heartbeat_timeout`. -/
def checkHeartbeatTimeout (cfg : NetworkConfig) (now : UInt64) : Handler := fun s =>
  if s.lastPongTimeMs = 0 then (s, [])
  else if now - s.lastPongTimeMs ≤ cfg.heartbeatTimeoutMs.toUInt64 then (s, [])
  else
    let failureCount := s.heartbeatFailureCount
    let s := { s with heartbeatFailureCount := failureCount + 1 }
    if cfg.heartbeatMaxFailures ≤ failureCount + 1 then
      let s := { s with monitor := (s.monitor.recordHeartbeatFailure true now).1 }
      let r := tryTriggerReconnect cfg (disconnect now s)
      (r.1, .timedOut :: .timeoutDisconnect :: r.2)
    else (s, [.timedOut])

/-- The handler of the heartbeat timer. -/
def handleHeartbeatTimer (cfg : NetworkConfig) (now : UInt64) : Handler := fun s =>
  if s.heartbeatEnabled && s.isOpen then
    let r := andThen sendHeartbeatPing (checkHeartbeatTimeout cfg now) s
    (startHeartbeatTimer r.1, .tick now :: r.2)
  else (s, [])

/-- The handler of the reconnect timer. -/
def handleReconnectTimer (cfg : NetworkConfig) (resolves : Bool) (now : UInt64) : Handler := fun s =>
  if cfg.enableAutoReconnect then connect cfg resolves now s else (s, [])

/-! ### Schedules -/

/-- A call of the user, the passing of a deadline, or the completion of a pending operation. -/
inductive Act where
  | connect (resolves : Bool) (now : UInt64)
  | disconnect (now : UInt64)
  | send (data : List UInt8)
  | onReceive
  | enableHeartbeat (enable : Bool)
  | setHeartbeatInterval (intervalMs : UInt32)
  | reconnectExpires
  | reconnectTimer (i : ℕ) (resolves : Bool) (now : UInt64)
  | heartbeatExpires
  | heartbeatTimer (i : ℕ) (now : UInt64)
  | connectDone (i : ℕ) (ec : Option ErrorCode) (now : UInt64)
  | readDone (ec : Option ErrorCode) (bytes : List UInt8) (now : UInt64)
  | writeDone (ec : Option ErrorCode) (now : UInt64)
  | pingDone (ec : Option ErrorCode) (now : UInt64)
  deriving DecidableEq, Repr

/-- The handler of a wait that is no longer armed: nothing after an abort. -/
def onWait (handler : Handler) : Wait → Option Handler
  | .armed => none
  | .due => some handler
  | .aborted => some fun s => (s, [])

/-- One action; `none` when there is nothing that could happen so. -/
def step (p : Platform) (cfg : NetworkConfig) (s : LoopbackIpcClient) :
    Act → Option (LoopbackIpcClient × List Event)
  | .connect resolves now => some (connect cfg resolves now s)
  | .disconnect now => some (disconnect now s, [])
  | .send data => some (send data s, [])
  | .onReceive => some ({ s with onMessage := true }, [])
  | .enableHeartbeat enable => some (enableHeartbeat enable s, [])
  | .setHeartbeatInterval intervalMs => some ({ s with heartbeatIntervalMs := intervalMs }, [])
  | .reconnectExpires => some ({ s with reconnectTimer := s.reconnectTimer.expire }, [])
  | .reconnectTimer i resolves now => s.reconnectTimer[i]?.bind fun w =>
      (onWait (handleReconnectTimer cfg resolves now) w).map fun handler =>
        handler { s with reconnectTimer := s.reconnectTimer.eraseIdx i }
  | .heartbeatExpires => some ({ s with heartbeatTimer := s.heartbeatTimer.expire }, [])
  | .heartbeatTimer i now => s.heartbeatTimer[i]?.bind fun w =>
      (onWait (handleHeartbeatTimer cfg now) w).map fun handler =>
        handler { s with heartbeatTimer := s.heartbeatTimer.eraseIdx i }
  | .connectDone i ec now => s.connects[i]?.bind fun socket =>
      if ec = none → socket = s.socket ∧ s.isOpen then
        some (handleConnectResult cfg ec now { s with connects := s.connects.eraseIdx i })
      else none
  | .readDone ec bytes now =>
      if 0 < s.reads then some (handleReadResult p cfg ec bytes now { s with reads := s.reads - 1 })
      else none
  | .writeDone ec now =>
      if 0 < s.writes then some (handleSendResult p cfg ec now { s with writes := s.writes - 1 })
      else none
  | .pingDone ec now =>
      if 0 < s.pings then some (handlePingResult cfg ec now { s with pings := s.pings - 1 })
      else none

/-- The client under a schedule. -/
def link (p : Platform) (cfg : NetworkConfig) : Machine LoopbackIpcClient Act Event := ⟨step p cfg⟩

/-- One tick of the heartbeat, when no older wait of its timer is left. -/
def tickAt (now : UInt64) : List Act := [.heartbeatExpires, .heartbeatTimer 0 now]

end LoopbackIpcClient

end LuspUpload.Ipc
