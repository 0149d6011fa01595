import LuspUpload.Config.Manager
import LuspUpload.Lib.TomlParts

/-!
# Config.Export — the TOML text of the configuration

`generateFullTomlConfig` prints every field under the key that it is read from, in an order of its own.
Strings stand between quotes as they are, integers with all their digits, enumerators by their names; an
empty list of patterns is left out.
-/

namespace LuspUpload.Config

open Lib Toml

variable {α ρ : Type}

/-! ### The generator -/

/-- The entries of `[upload]`. -/
def uploadEntries (c : UploadConfig) : List (String × Literal) := [
  ("server_host", .string c.serverHost),
  ("server_port", .integer c.serverPort.toNat),
  ("upload_protocol", .string c.uploadProtocol),
  ("max_concurrent_uploads", .integer c.maxConcurrentUploads.toNat),
  ("chunk_size", .integer c.chunkSize.toNat),
  ("timeout_seconds", .integer c.timeoutSeconds.toNat),
  ("retry_count", .integer c.retryCount.toNat),
  ("retry_delay_ms", .integer c.retryDelayMs.toNat),
  ("max_upload_speed", .integer c.maxUploadSpeed.toNat),
  ("max_file_size", .integer c.maxFileSize.toNat),
  ("enable_resume", .boolean c.enableResume),
  ("enable_compression", .boolean c.enableCompression),
  ("compression_algorithm", .string (utf8 c.compressionAlgo.name)),
  ("enable_checksum", .boolean c.enableChecksum),
  ("checksum_algorithm", .string (utf8 c.checksumAlgo.name)),
  ("overwrite", .boolean c.overwrite),
  ("enable_multipart", .boolean c.enableMultipart),
  ("enable_progress", .boolean c.enableProgress),
  ("target_dir", .string c.targetDir),
  ("use_ssl", .boolean c.useSSL),
  ("cert_file", .string c.certFile),
  ("private_key_file", .string c.privateKeyFile),
  ("ca_file", .string c.caFile),
  ("verify_server", .boolean c.verifyServer),
  ("auth_token", .string c.authToken),
  ("log_level", .string c.logLevel),
  ("log_file_path", .string c.logFilePath),
  ("enable_detailed_log", .boolean c.enableDetailedLog),
  ("client_version", .string c.clientVersion),
  ("user_agent", .string c.userAgent)] ++
  match c.excludePatterns with
  | [] => []
  | p :: ps => [("exclude_patterns", .strings (p :: ps))]

/-- The entries of `[ui]`. -/
def uiEntries (c : UIConfig) : List (String × Literal) := [
  ("show_progress_details", .boolean c.showProgressDetails),
  ("show_speed_info", .boolean c.showSpeedInfo),
  ("auto_start_upload", .boolean c.autoStartUpload),
  ("minimize_to_tray", .boolean c.minimizeToTray),
  ("show_notifications", .boolean c.showNotifications),
  ("language", .string c.language),
  ("theme", .string c.theme),
  ("window_width", .integer c.windowWidth.toInt),
  ("window_height", .integer c.windowHeight.toInt),
  ("window_maximized", .boolean c.windowMaximized),
  ("show_file_size", .boolean c.showFileSize),
  ("show_file_type", .boolean c.showFileType),
  ("show_upload_time", .boolean c.showUploadTime),
  ("show_file_status", .boolean c.showFileStatus)]

/-- The entries of `[network]`. -/
def networkEntries (c : NetworkConfig) : List (String × Literal) := [
  ("connect_timeout_ms", .integer c.connectTimeoutMs.toNat),
  ("read_timeout_ms", .integer c.readTimeoutMs.toNat),
  ("write_timeout_ms", .integer c.writeTimeoutMs.toNat),
  ("buffer_size", .integer c.bufferSize.toNat),
  ("max_connections", .integer c.maxConnections.toNat),
  ("enable_keep_alive", .boolean c.enableKeepAlive),
  ("keep_alive_interval_ms", .integer c.keepAliveIntervalMs.toNat),
  ("enable_app_heartbeat", .boolean c.enableAppHeartbeat),
  ("heartbeat_interval_ms", .integer c.heartbeatIntervalMs.toNat),
  ("heartbeat_timeout_ms", .integer c.heartbeatTimeoutMs.toNat),
  ("heartbeat_max_failures", .integer c.heartbeatMaxFailures.toNat),
  ("enable_auto_reconnect", .boolean c.enableAutoReconnect),
  ("reconnect_interval_ms", .integer c.reconnectIntervalMs.toNat),
  ("max_reconnect_attempts", .integer c.maxReconnectAttempts.toNat),
  ("reconnect_backoff_ms", .integer c.reconnectBackoffMs.toNat),
  ("enable_reconnect_backoff", .boolean c.enableReconnectBackoff),
  ("enable_proxy", .boolean c.enableProxy),
  ("proxy_host", .string c.proxyHost),
  ("proxy_port", .integer c.proxyPort.toNat),
  ("proxy_user", .string c.proxyUser),
  ("proxy_password", .string c.proxyPassword)]

/-- The document: two comments, and the sections with a blank line before the second and the third. -/
def configParts (s : Settings) : List Part := [
  { lead := [.comment " 高性能文件上传客户端配置文件", .comment " 格式: TOML (Tom's Obvious, Minimal Language)"]
    name := "upload"
    entries := uploadEntries s.upload },
  { lead := [.blank]
    name := "ui"
    entries := uiEntries s.ui },
  { lead := [.blank]
    name := "network"
    entries := networkEntries s.network }]

/-- `generateFullTomlConfig`. -/
def generateFullTomlConfig (s : Settings) : Text := documentText (partLines (configParts s))

/-- `exportToTomlString`. -/
def exportToTomlString (s : Settings) : Text := generateFullTomlConfig s

/-! ### Fields and entries -/

/-- How a value of each kind is printed. -/
def Kind.literal : Kind α → α → Literal
  | .string, s => .string s
  | .boolean, b => .boolean b
  | .int, n => .integer n.toInt
  | .uint16, n => .integer n.toNat
  | .uint32, n => .integer n.toNat
  | .uint64, n => .integer n.toNat
  | .compression, algo => .string (utf8 algo.name)
  | .checksum, algo => .string (utf8 algo.name)
  | .strings, ss => .strings ss

/-- What is printed of a literal: no empty lists. -/
def printed : Literal → Option Literal
  | .strings [] => none
  | v => some v

/-- Every field is printed under its key, and nothing else is. -/
structure Prints (fields : List (Field Kind ρ)) (entries : List (String × Literal)) (r : ρ) : Prop where
  lookup : fields.Forall fun f => entries.lookup f.key = printed (f.kind.literal (f.get r))
  keys : ∀ k ∈ entries.map Prod.fst, k ∈ fields.map Field.key

/-- The keys are those of a configuration with a pattern, or these without the last. -/
theorem uploadEntries_keys (c : UploadConfig) :
    ((uploadEntries c).map Prod.fst).Sublist ((uploadEntries { excludePatterns := [[]] }).map Prod.fst) := by
  cases hpatterns : c.excludePatterns with
  | nil =>
    simp only [uploadEntries, hpatterns, List.map_append]
    exact List.Sublist.append (List.Sublist.refl _) (List.nil_sublist _)
  | cons p ps =>
    simp only [uploadEntries, hpatterns, List.map_append]
    exact List.Sublist.refl _

theorem uploadEntries_prints (c : UploadConfig) : Prints uploadFields (uploadEntries c) c where
  lookup := by
    unfold uploadFields
    repeat' first
      | exact trivial
      | exact rfl
      | apply forall_cons
    cases hpatterns : c.excludePatterns with
    | nil =>
      simp only [uploadEntries, hpatterns]
      rfl
    | cons p ps =>
      simp only [uploadEntries, hpatterns]
      rfl
  keys := by
    have hall : ∀ k ∈ (uploadEntries { excludePatterns := [[]] }).map Prod.fst, k ∈ uploadFields.map Field.key := by
      decide
    exact fun k hk => hall k ((uploadEntries_keys c).subset hk)

theorem uiEntries_prints (c : UIConfig) : Prints uiFields (uiEntries c) c where
  lookup := by
    unfold uiFields
    repeat' first
      | exact trivial
      | exact rfl
      | apply forall_cons
  keys := by
    have hkeys : (uiEntries c).map Prod.fst = uiFields.map Field.key := rfl
    rw [hkeys]
    exact fun k hk => hk

theorem networkEntries_prints (c : NetworkConfig) : Prints networkFields (networkEntries c) c where
  lookup := by
    unfold networkFields
    repeat' first
      | exact trivial
      | exact rfl
      | apply forall_cons
  keys := by
    have hkeys : (networkEntries c).map Prod.fst = networkFields.map Field.key := rfl
    rw [hkeys]
    exact fun k hk => hk

/-! ### The keys -/

theorem uploadEntries_tidy (c : UploadConfig) :
    ((uploadEntries c).map Prod.fst).Nodup ∧ ∀ k ∈ (uploadEntries c).map Prod.fst, Bare k := by
  have hall : ((uploadEntries { excludePatterns := [[]] }).map Prod.fst).Nodup ∧
      ∀ k ∈ (uploadEntries { excludePatterns := [[]] }).map Prod.fst, Bare k := by
    decide +kernel
  have hsub := uploadEntries_keys c
  exact ⟨hall.1.sublist hsub, fun k hk => hall.2 k (hsub.subset hk)⟩

theorem uiEntries_tidy (c : UIConfig) :
    ((uiEntries c).map Prod.fst).Nodup ∧ ∀ k ∈ (uiEntries c).map Prod.fst, Bare k := by
  show ((uiEntries {}).map Prod.fst).Nodup ∧ ∀ k ∈ (uiEntries {}).map Prod.fst, Bare k
  decide +kernel

theorem networkEntries_tidy (c : NetworkConfig) :
    ((networkEntries c).map Prod.fst).Nodup ∧ ∀ k ∈ (networkEntries c).map Prod.fst, Bare k := by
  show ((networkEntries {}).map Prod.fst).Nodup ∧ ∀ k ∈ (networkEntries {}).map Prod.fst, Bare k
  decide +kernel

theorem forall_configParts {p : Part → Prop} {s : Settings} :
    (∀ part ∈ configParts s, p part) ↔
      p { lead := [.comment " 高性能文件上传客户端配置文件",
            .comment " 格式: TOML (Tom's Obvious, Minimal Language)"]
          name := "upload"
          entries := uploadEntries s.upload } ∧
      p { lead := [.blank], name := "ui", entries := uiEntries s.ui } ∧
      p { lead := [.blank], name := "network", entries := networkEntries s.network } := by
  rw [configParts, List.forall_mem_cons, List.forall_mem_cons, List.forall_mem_singleton]

theorem configParts_tidy (s : Settings) : Tidy (configParts s) where
  lead := by
    have hblank : ∀ l ∈ [Line.blank], l.Loose := List.forall_mem_singleton.mpr trivial
    refine forall_configParts.mpr ⟨List.forall_mem_cons.mpr ⟨?_, List.forall_mem_singleton.mpr ?_⟩, hblank, hblank⟩
    · show ∀ b ∈ utf8 " 高性能文件上传客户端配置文件", ((b = 9 ∨ 0x20 ≤ b) ∧ b ≠ 0x7F) ∧ b ≠ quote
      exact forall_mem_of_all rfl
    · show ∀ b ∈ utf8 " 格式: TOML (Tom's Obvious, Minimal Language)",
        ((b = 9 ∨ 0x20 ≤ b) ∧ b ≠ 0x7F) ∧ b ≠ quote
      exact forall_mem_of_all rfl
  names := by
    show ["upload", "ui", "network"].Nodup
    decide
  bareName := by
    have hbare : Bare "upload" ∧ Bare "ui" ∧ Bare "network" := by decide
    exact forall_configParts.mpr hbare
  keys := forall_configParts.mpr
    ⟨(uploadEntries_tidy s.upload).1, (uiEntries_tidy s.ui).1, (networkEntries_tidy s.network).1⟩
  bareKey := by
    have hkeys : ∀ entries : List (String × Literal), (∀ k ∈ entries.map Prod.fst, Bare k) →
        ∀ e ∈ entries, Bare e.1 := fun entries h e he => h e.1 (List.mem_map_of_mem he)
    exact forall_configParts.mpr ⟨hkeys _ (uploadEntries_tidy s.upload).2, hkeys _ (uiEntries_tidy s.ui).2,
      hkeys _ (networkEntries_tidy s.network).2⟩

end LuspUpload.Config
