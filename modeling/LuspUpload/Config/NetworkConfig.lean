import Mathlib.Tactic.Common

/-!
# Config.NetworkConfig — the network configuration and its validation

`NetworkConfig` with the defaults of its declaration, and `validateNetworkConfig`: every violated check
adds its text, in the order of the source.  A `std::string` is a list of bytes.
-/

namespace LuspUpload.Config

/-- `NetworkConfig`; times are in ms. -/
structure NetworkConfig where
  connectTimeoutMs : UInt32 := 5000
  readTimeoutMs : UInt32 := 30000
  writeTimeoutMs : UInt32 := 30000
  bufferSize : UInt32 := 8192
  maxConnections : UInt32 := 10
  enableKeepAlive : Bool := true
  keepAliveIntervalMs : UInt32 := 30000
  enableAppHeartbeat : Bool := true
  heartbeatIntervalMs : UInt32 := 10000
  heartbeatTimeoutMs : UInt32 := 30000
  heartbeatMaxFailures : UInt32 := 3
  enableAutoReconnect : Bool := true
  reconnectIntervalMs : UInt32 := 1000
  maxReconnectAttempts : UInt32 := 5
  reconnectBackoffMs : UInt32 := 2000
  enableReconnectBackoff : Bool := true
  enableProxy : Bool := false
  proxyHost : List UInt8 := []
  proxyPort : UInt16 := 7890
  proxyUser : List UInt8 := []
  proxyPassword : List UInt8 := []
  deriving DecidableEq, Repr

/-- The text of a check, if it is violated. -/
def violated (bad : Bool) (text : String) : List String := if bad then [text] else []

/-- The value is outside `low .. high`. -/
def outside (low high value : UInt32) : Bool := value < low || high < value

/-- The checks of the heartbeat, made when it is enabled. -/
def heartbeatErrors (c : NetworkConfig) : List String :=
  violated (outside 1000 300000 c.heartbeatIntervalMs) "心跳间隔应在1-300秒范围内" ++
  violated (outside 5000 600000 c.heartbeatTimeoutMs) "心跳超时时间应在5-600秒范围内" ++
  violated (c.heartbeatMaxFailures == 0 || 10 < c.heartbeatMaxFailures) "心跳最大失败次数应在1-10范围内" ++
  violated (c.heartbeatTimeoutMs ≤ c.heartbeatIntervalMs) "心跳超时时间应大于心跳间隔"

/-- The checks of the proxy, made when it is enabled. -/
def proxyErrors (c : NetworkConfig) : List String :=
  violated c.proxyHost.isEmpty "启用代理时代理主机不能为空" ++
  violated (c.proxyPort == 0 || 65535 < c.proxyPort.toNat) "代理端口应在1-65535范围内"

/-- What `validateNetworkConfig` finds. -/
def networkErrors (c : NetworkConfig) : List String :=
  violated (outside 1000 60000 c.connectTimeoutMs) "连接超时时间应在1-60秒范围内" ++
  violated (outside 5000 300000 c.readTimeoutMs) "读取超时时间应在5-300秒范围内" ++
  violated (outside 5000 300000 c.writeTimeoutMs) "写入超时时间应在5-300秒范围内" ++
  violated (outside 1024 (1024 * 1024) c.bufferSize) "缓冲区大小应在1KB-1MB范围内" ++
  violated (c.maxConnections == 0 || 100 < c.maxConnections) "最大连接数应在1-100范围内" ++
  violated (outside 1000 300000 c.keepAliveIntervalMs) "Keep-Alive间隔应在1-300秒范围内" ++
  (if c.enableAppHeartbeat then heartbeatErrors c else []) ++
  violated (outside 100 60000 c.reconnectIntervalMs) "重连间隔应在0.1-60秒范围内" ++
  violated (c.maxReconnectAttempts == 0 || 100 < c.maxReconnectAttempts) "最大重连尝试次数应在1-100范围内" ++
  violated (outside 100 300000 c.reconnectBackoffMs) "重连退避时间应在0.1-300秒范围内" ++
  (if c.enableProxy then proxyErrors c else [])

/-- `validateNetworkConfig`: the verdict, and the texts behind those already there. -/
def validateNetworkConfig (c : NetworkConfig) (errors : List String) : Bool × List String :=
  ((networkErrors c).isEmpty, errors ++ networkErrors c)

/-- The defaults pass every check. -/
theorem networkErrors_default : networkErrors {} = [] := by decide

theorem outside_eq_false {low high value : UInt32} :
    outside low high value = false ↔ low ≤ value ∧ value ≤ high := by
  simp [outside]

/-- What a validated configuration promises about reconnects. -/
theorem reconnect_of_valid {c : NetworkConfig} {errors : List String}
    (h : (validateNetworkConfig c errors).1 = true) :
    (100 ≤ c.reconnectIntervalMs ∧ c.reconnectIntervalMs ≤ 60000) ∧
      (c.maxReconnectAttempts ≠ 0 ∧ c.maxReconnectAttempts ≤ 100) ∧
      (100 ≤ c.reconnectBackoffMs ∧ c.reconnectBackoffMs ≤ 300000) := by
  simp only [validateNetworkConfig, networkErrors, List.isEmpty_iff, List.append_eq_nil_iff] at h
  obtain ⟨⟨⟨⟨-, hinterval⟩, hmax⟩, hbackoff⟩, -⟩ := h
  simp only [violated, ite_eq_right_iff, imp_false, Bool.not_eq_true, outside_eq_false,
    Bool.or_eq_false_iff, beq_eq_false_iff_ne, decide_eq_false_iff_not, UInt32.not_lt,
    List.cons_ne_self] at hinterval hmax hbackoff
  exact ⟨hinterval, hmax, hbackoff⟩

theorem bufferSize_of_valid {c : NetworkConfig} {errors : List String}
    (h : (validateNetworkConfig c errors).1 = true) :
    1024 ≤ c.bufferSize ∧ c.bufferSize ≤ 1024 * 1024 := by
  simp only [validateNetworkConfig, networkErrors, List.isEmpty_iff, List.append_eq_nil_iff] at h
  obtain ⟨⟨⟨⟨⟨⟨⟨⟨-, hbuffer⟩, -⟩, -⟩, -⟩, -⟩, -⟩, -⟩, -⟩ := h
  simpa only [violated, ite_eq_right_iff, imp_false, Bool.not_eq_true, outside_eq_false,
    List.cons_ne_self] using hbuffer

end LuspUpload.Config
