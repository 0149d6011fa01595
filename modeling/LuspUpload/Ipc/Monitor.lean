import Mathlib.Data.Int.Notation
import Mathlib.Tactic.Common

/-!
# Ipc.Monitor — the connection monitor

`ConnectionMonitor`: the link state, the reconnect flag, failure counters and statistics.  Every reading
of the clock is an argument of the call that makes it.  The two callbacks are events; they do not call
back into the monitor (the client's log a line, respectively arm the reconnect timer).
-/

namespace LuspUpload.Ipc

/-- The states of the link. -/
inductive ConnectionState where
  | disconnected
  | connecting
  | connected
  | reconnecting
  | failed
  deriving DecidableEq, Repr

/-- Classes of errors. -/
inductive ErrorCategory where
  | networkDisconnect
  | connectionRefused
  | timeout
  | hostUnreachable
  | applicationError
  | heartbeatFailure
  | unknown
  deriving DecidableEq, Repr

/-- The category of a `std::error_code`, as far as `classify_error` compares it: `asio::system_category()`
and `std::system_category()` are two objects, and what a socket operation fails with belongs to the first. -/
inductive CodeCategory where
  | system
  | misc
  | stdSystem
  | other
  deriving DecidableEq, Repr

/-- A `std::error_code`. -/
structure ErrorCode where
  category : CodeCategory
  value : ℤ
  deriving DecidableEq, Repr

/-- The platform that the client is built for: `_WIN32` or not. -/
inductive Platform where
  | windows
  | posix
  deriving DecidableEq, Repr

/-! ### Classification -/

/-- The `asio::error` codes of the first `switch`. -/
def asioCategory : Platform → ℤ → Option ErrorCategory
  | .windows, 10061 => some .connectionRefused
  | .windows, 10054 => some .networkDisconnect
  | .windows, 10053 => some .networkDisconnect
  | .windows, 109 => some .networkDisconnect
  | .windows, 10060 => some .timeout
  | .windows, 10051 => some .hostUnreachable
  | .windows, 10065 => some .hostUnreachable
  | .windows, 10050 => some .hostUnreachable
  | .windows, 10057 => some .networkDisconnect
  | .posix, 111 => some .connectionRefused
  | .posix, 104 => some .networkDisconnect
  | .posix, 103 => some .networkDisconnect
  | .posix, 32 => some .networkDisconnect
  | .posix, 110 => some .timeout
  | .posix, 101 => some .hostUnreachable
  | .posix, 113 => some .hostUnreachable
  | .posix, 100 => some .hostUnreachable
  | .posix, 107 => some .networkDisconnect
  -- `asio::error::eof`; the values of `system` and `misc` are not told apart
  | _, 2 => some .networkDisconnect
  | _, _ => none

/-- The second `switch`, on Windows and for `std::system_category()`. -/
def windowsCategory : ℤ → Option ErrorCategory
  | 10053 => some .networkDisconnect
  | 10054 => some .networkDisconnect
  | 1236 => some .networkDisconnect
  | 10061 => some .connectionRefused
  | 10060 => some .timeout
  | 10064 => some .hostUnreachable
  | 10065 => some .hostUnreachable
  | 10050 => some .hostUnreachable
  | 10051 => some .hostUnreachable
  | 10057 => some .networkDisconnect
  | 10058 => some .networkDisconnect
  | _ => none

/-- `classify_error`. -/
def classifyError (p : Platform) (error : ErrorCode) : ErrorCategory :=
  let first :=
    if error.category = .system ∨ error.category = .misc then asioCategory p error.value else none
  let second :=
    if p = .windows ∧ error.category = .stdSystem then windowsCategory error.value else none
  (first <|> second).getD .applicationError

/-- `should_trigger_reconnect`. -/
def shouldTriggerReconnect : ErrorCategory → Bool
  | .networkDisconnect => true
  | .connectionRefused => true
  | .hostUnreachable => true
  | .timeout => true
  | .heartbeatFailure => true
  | .applicationError => false
  | .unknown => false

/-- `is_connection_error`. -/
def isConnectionError (p : Platform) (error : ErrorCode) : Bool :=
  shouldTriggerReconnect (classifyError p error)

/-! ### The monitor -/

/-- `ErrorStatistics`; a count that was never touched is zero. -/
structure ErrorStatistics where
  errorCountByCategory : ErrorCategory → UInt32
  errorCountByCode : ℤ → UInt32
  totalNetworkErrors : UInt32
  totalTimeoutErrors : UInt32
  totalHeartbeatFailures : UInt32
  lastErrorTimeMs : UInt64
  lastErrorCategory : ErrorCategory
  lastErrorCode : ℤ

/-- `ConnectionStatistics`. -/
structure ConnectionStatistics where
  totalConnections : UInt64
  successfulConnections : UInt64
  failedConnections : UInt64
  totalReconnects : UInt64
  totalSendCount : UInt64
  totalSendSuccess : UInt64
  totalSendFailure : UInt64
  firstConnectTimeMs : UInt64
  lastConnectTimeMs : UInt64
  lastDisconnectTimeMs : UInt64
  totalConnectedDurationMs : UInt64
  deriving DecidableEq, Repr

/-- The monitor; the last two fields say which callbacks are installed. -/
structure ConnectionMonitor where
  state : ConnectionState
  isReconnectingFlag : Bool
  consecutiveFailures : UInt32
  consecutiveHeartbeatFailures : UInt32
  lastActiveTimeMs : UInt64
  errorStats : ErrorStatistics
  connectionStats : ConnectionStatistics
  stateChangeCallback : Bool
  reconnectCallback : Bool

/-- A callback is invoked. -/
inductive Notice where
  | stateChanged (oldState newState : ConnectionState)
  | reconnect
  deriving DecidableEq, Repr

namespace ConnectionMonitor

/-- The constructor, and the callbacks installed after it. -/
def create (now : UInt64) (stateChangeCallback reconnectCallback : Bool) : ConnectionMonitor where
  state := .disconnected
  isReconnectingFlag := false
  consecutiveFailures := 0
  consecutiveHeartbeatFailures := 0
  lastActiveTimeMs := now
  errorStats := ⟨fun _ => 0, fun _ => 0, 0, 0, 0, 0, .unknown, 0⟩
  connectionStats := ⟨0, 0, 0, 0, 0, 0, 0, 0, 0, 0, 0⟩
  stateChangeCallback := stateChangeCallback
  reconnectCallback := reconnectCallback

/-- What `set_state` does on entering a new state, after the callback. -/
def entered (m : ConnectionMonitor) (now : UInt64) : ConnectionState → ConnectionMonitor
  | .connected =>
    { m with
      lastActiveTimeMs := now
      connectionStats := { m.connectionStats with
        lastConnectTimeMs := now
        firstConnectTimeMs :=
          if m.connectionStats.firstConnectTimeMs = 0 then now
          else m.connectionStats.firstConnectTimeMs } }
  | .disconnected =>
    { m with
      connectionStats := { m.connectionStats with
        lastDisconnectTimeMs := now
        totalConnectedDurationMs :=
          if m.connectionStats.lastConnectTimeMs > 0 then
            m.connectionStats.totalConnectedDurationMs + (now - m.connectionStats.lastConnectTimeMs)
          else m.connectionStats.totalConnectedDurationMs } }
  | .reconnecting =>
    { m with
      connectionStats := { m.connectionStats with
        totalReconnects := m.connectionStats.totalReconnects + 1 }
      isReconnectingFlag := true }
  | .connecting => m
  | .failed => m

/-- `set_state`. -/
def setState (m : ConnectionMonitor) (newState : ConnectionState) (now : UInt64) :
    ConnectionMonitor × List Notice :=
  if m.state = newState then (m, [])
  else (({ m with state := newState }).entered now newState,
    if m.stateChangeCallback then [.stateChanged m.state newState] else [])

/-- `try_trigger_reconnect`. -/
def tryTriggerReconnect (m : ConnectionMonitor) : ConnectionMonitor × List Notice × Bool :=
  if m.isReconnectingFlag then (m, [], false)
  else ({ m with isReconnectingFlag := true },
    if m.reconnectCallback then [.reconnect] else [], true)

/-- `reconnect_completed`. -/
def reconnectCompleted (m : ConnectionMonitor) : ConnectionMonitor :=
  { m with isReconnectingFlag := false }

/-- `record_error_to_statistics`. -/
def recordErrorToStatistics (m : ConnectionMonitor) (error : ErrorCode) (category : ErrorCategory)
    (now : UInt64) : ConnectionMonitor :=
  let s := m.errorStats
  let network := category = .networkDisconnect ∨ category = .connectionRefused ∨
    category = .hostUnreachable
  { m with errorStats := { s with
      errorCountByCategory := fun c =>
        if c = category then s.errorCountByCategory c + 1 else s.errorCountByCategory c
      errorCountByCode := fun v =>
        if v = error.value then s.errorCountByCode v + 1 else s.errorCountByCode v
      totalNetworkErrors := if network then s.totalNetworkErrors + 1 else s.totalNetworkErrors
      totalTimeoutErrors :=
        if category = .timeout then s.totalTimeoutErrors + 1 else s.totalTimeoutErrors
      lastErrorTimeMs := now
      lastErrorCategory := category
      lastErrorCode := error.value } }

/-- `record_send_success`. -/
def recordSendSuccess (m : ConnectionMonitor) (now : UInt64) : ConnectionMonitor :=
  { m with
    consecutiveFailures := 0
    connectionStats := { m.connectionStats with
      totalSendCount := m.connectionStats.totalSendCount + 1
      totalSendSuccess := m.connectionStats.totalSendSuccess + 1 }
    lastActiveTimeMs := now }

/-- The bookkeeping of `record_send_failure`, before it decides about the link. -/
def countSendFailure (m : ConnectionMonitor) (error : ErrorCode) (category : ErrorCategory)
    (now : UInt64) : ConnectionMonitor :=
  { m with
    consecutiveFailures := m.consecutiveFailures + 1
    connectionStats := { m.connectionStats with
      totalSendCount := m.connectionStats.totalSendCount + 1
      totalSendFailure := m.connectionStats.totalSendFailure + 1 } }.recordErrorToStatistics
    error category now

/-- `record_send_failure`; `now` is read for the statistics and `now'` by `set_state`. -/
def recordSendFailure (p : Platform) (m : ConnectionMonitor) (error : ErrorCode)
    (triggerReconnect : Bool) (now now' : UInt64) : ConnectionMonitor × List Notice × Bool :=
  let category := classifyError p error
  let m₁ := m.countSendFailure error category now
  if shouldTriggerReconnect category then
    let r := if m₁.state = .connected then m₁.setState .reconnecting now' else (m₁, [])
    if triggerReconnect && r.1.reconnectCallback then
      let t := r.1.tryTriggerReconnect
      (t.1, r.2 ++ t.2.1, true)
    else (r.1, r.2, true)
  else (m₁, [], false)

/-- `record_read_failure`. -/
def recordReadFailure (p : Platform) (m : ConnectionMonitor) (error : ErrorCode)
    (now now' : UInt64) : ConnectionMonitor × List Notice × Bool :=
  m.recordSendFailure p error true now now'

/-- `record_heartbeat_failure`. -/
def recordHeartbeatFailure (m : ConnectionMonitor) (isTimeout : Bool) (now : UInt64) :
    ConnectionMonitor × Bool :=
  let s := m.errorStats
  let category : ErrorCategory := if isTimeout then .timeout else .heartbeatFailure
  ({ m with
      consecutiveHeartbeatFailures := m.consecutiveHeartbeatFailures + 1
      errorStats := { s with
        totalHeartbeatFailures := s.totalHeartbeatFailures + 1
        totalTimeoutErrors := if isTimeout then s.totalTimeoutErrors + 1 else s.totalTimeoutErrors
        errorCountByCategory := fun c =>
          if c = category then s.errorCountByCategory c + 1 else s.errorCountByCategory c
        lastErrorCategory := category
        lastErrorTimeMs := now } }, true)

/-- `record_heartbeat_success`. -/
def recordHeartbeatSuccess (m : ConnectionMonitor) (now : UInt64) : ConnectionMonitor :=
  { m with consecutiveHeartbeatFailures := 0, lastActiveTimeMs := now }

/-- `record_connect_attempt`. -/
def recordConnectAttempt (m : ConnectionMonitor) : ConnectionMonitor :=
  { m with connectionStats := { m.connectionStats with
      totalConnections := m.connectionStats.totalConnections + 1 } }

/-- `record_connect_success`. -/
def recordConnectSuccess (m : ConnectionMonitor) (now : UInt64) : ConnectionMonitor :=
  { m with
    consecutiveFailures := 0
    consecutiveHeartbeatFailures := 0
    connectionStats := { m.connectionStats with
      successfulConnections := m.connectionStats.successfulConnections + 1 }
    lastActiveTimeMs := now }

/-- `record_connect_failure`. -/
def recordConnectFailure (p : Platform) (m : ConnectionMonitor) (error : ErrorCode) (now : UInt64) :
    ConnectionMonitor :=
  { m with
    consecutiveFailures := m.consecutiveFailures + 1
    connectionStats := { m.connectionStats with
      failedConnections := m.connectionStats.failedConnections + 1 } }.recordErrorToStatistics
    error (classifyError p error) now

/-- `reset_statistics`. -/
def resetStatistics (m : ConnectionMonitor) (now : UInt64) : ConnectionMonitor :=
  { m with
    consecutiveFailures := 0
    consecutiveHeartbeatFailures := 0
    connectionStats := { m.connectionStats with
      totalSendCount := 0
      totalSendSuccess := 0
      totalSendFailure := 0 }
    lastActiveTimeMs := now }

/-! ### Calls -/

/-- A call of a monitor's operation, with the clock as it reads it. -/
inductive Call where
  | setState (newState : ConnectionState) (now : UInt64)
  | recordConnectAttempt
  | recordConnectSuccess (now : UInt64)
  | recordConnectFailure (error : ErrorCode) (now : UInt64)
  | recordSendSuccess (now : UInt64)
  | recordSendFailure (error : ErrorCode) (triggerReconnect : Bool) (now now' : UInt64)
  | recordReadFailure (error : ErrorCode) (now now' : UInt64)
  | recordHeartbeatFailure (isTimeout : Bool) (now : UInt64)
  | recordHeartbeatSuccess (now : UInt64)
  | tryTriggerReconnect
  | reconnectCompleted
  | resetStatistics (now : UInt64)
  deriving DecidableEq, Repr

/-- What a call does. -/
def call (p : Platform) (m : ConnectionMonitor) : Call → ConnectionMonitor × List Notice
  | .setState newState now => m.setState newState now
  | .recordConnectAttempt => (m.recordConnectAttempt, [])
  | .recordConnectSuccess now => (m.recordConnectSuccess now, [])
  | .recordConnectFailure error now => (m.recordConnectFailure p error now, [])
  | .recordSendSuccess now => (m.recordSendSuccess now, [])
  | .recordSendFailure error trigger now now' =>
    let r := m.recordSendFailure p error trigger now now'
    (r.1, r.2.1)
  | .recordReadFailure error now now' =>
    let r := m.recordReadFailure p error now now'
    (r.1, r.2.1)
  | .recordHeartbeatFailure isTimeout now => ((m.recordHeartbeatFailure isTimeout now).1, [])
  | .recordHeartbeatSuccess now => (m.recordHeartbeatSuccess now, [])
  | .tryTriggerReconnect =>
    let r := m.tryTriggerReconnect
    (r.1, r.2.1)
  | .reconnectCompleted => (m.reconnectCompleted, [])
  | .resetStatistics now => (m.resetStatistics now, [])

/-- The monitor after a sequence of calls. -/
def after (p : Platform) (m : ConnectionMonitor) (calls : List Call) : ConnectionMonitor :=
  calls.foldl (fun m c => (m.call p c).1) m

/-- The callbacks invoked by a sequence of calls, in order. -/
def notices (p : Platform) : ConnectionMonitor → List Call → List Notice
  | _, [] => []
  | m, c :: calls => (m.call p c).2 ++ notices p (m.call p c).1 calls

end ConnectionMonitor

end LuspUpload.Ipc
