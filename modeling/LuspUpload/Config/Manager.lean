import LuspUpload.Config.Settings
import LuspUpload.Lib.Fields

/-!
# Config.Manager — reading the configuration from a TOML document

`parseFullTomlConfig` reads the sections one after the other into the live members.  Each section is a list
of keys with the members they are read into.  An exception ends the reading where it is and is caught around
the whole; what was assigned before it stays.

`toml::parse_str` is a parameter: a text has a document or does not parse.
-/

namespace LuspUpload.Config

open Lib Toml

/-- The types of the fields, as `parseConfigValue` and its siblings tell them apart. -/
inductive Kind : Type → Type where
  | string : Kind Text
  | boolean : Kind Bool
  | int : Kind Int32
  | uint16 : Kind UInt16
  | uint32 : Kind UInt32
  | uint64 : Kind UInt64
  | compression : Kind CompressionAlgorithm
  | checksum : Kind ChecksumAlgorithm
  | strings : Kind (List Text)

variable {α ρ : Type}

/-! ### Keys -/

/-- A key is read where the section has it; a value that cannot be converted leaves the target alone.  That
the section is no table is noticed outside of the inner `try`. -/
def parseKey (convert : Value → Option α) (section_ : Value) (key : String) (target : α) :
    Except BadCast α := do
  match ← section_.find key with
  | none => return target
  | some value => return (convert value).getD target

/-- The elements up to the first that is no string. -/
def leadingStrings : List Value → List Text
  | .string s :: items => s :: leadingStrings items
  | _ => []

theorem leadingStrings_map (ss : List Text) : leadingStrings (ss.map Value.string) = ss := by
  induction ss with
  | nil => rfl
  | cons s ss ih => exact congrArg (s :: ·) ih

theorem leadingStrings_append {v : Value} (hv : ∀ s, v ≠ .string s) (ss : List Text) (rest : List Value) :
    leadingStrings (ss.map Value.string ++ v :: rest) = ss := by
  induction ss with
  | nil =>
    cases v with
    | string s => exact absurd rfl (hv s)
    | _ => rfl
  | cons s ss ih => exact congrArg (s :: ·) ih

/-- All elements are strings, or the leading ones end before one that is none. -/
theorem leadingStrings_split (values : List Value) :
    (leadingStrings values).map Value.string = values ∨
      ∃ v rest, (∀ s, v ≠ .string s) ∧ values = (leadingStrings values).map Value.string ++ v :: rest := by
  induction values with
  | nil => exact Or.inl rfl
  | cons v values ih =>
    cases v with
    | string s =>
      rcases ih with hall | ⟨v, rest, hv, hsplit⟩
      · exact Or.inl (congrArg (Value.string s :: ·) hall)
      · exact Or.inr ⟨v, rest, hv, congrArg (Value.string s :: ·) hsplit⟩
    | _ =>
      refine Or.inr ⟨_, values, ?_, rfl⟩
      intro s h
      cases h

/-- What becomes of a value; `static_cast` takes an integer modulo the width of the target. -/
def Kind.convert : Kind α → Value → Option α
  | .string, v => v.asString
  | .boolean, v => v.asBoolean
  | .int, v => v.asInteger.map Int64.toInt32
  | .uint16, v => v.asInteger.map fun n => n.toUInt64.toUInt16
  | .uint32, v => v.asInteger.map fun n => n.toUInt64.toUInt32
  | .uint64, v => v.asInteger.map Int64.toUInt64
  | .compression, v => v.asString.bind stringToCompressionAlgorithm
  | .checksum, v => v.asString.bind stringToChecksumAlgorithm
  | .strings, v => v.asArray.map leadingStrings

/-- `parseConfigValue`, for the enumerations `parseEnumValue`, for the arrays `parseStringArray`. -/
def parseConfigValue (kind : Kind α) : Value → String → α → Except BadCast α := parseKey kind.convert

/-- The keys of a section one after the other. -/
def parseFields (section_ : Value) : List (Field Kind ρ) → ρ → Except BadCast Unit × ρ
  | [], r => (.ok (), r)
  | f :: fs, r =>
    match parseConfigValue f.kind section_ f.key (f.get r) with
    | .ok value => parseFields section_ fs (f.set value r)
    | .error e => (.error e, r)

/-! ### Sections -/

/-- `parseUploadConfigSection`. -/
def uploadFields : List (Field Kind UploadConfig) := [
  ⟨"server_host", .string, (·.serverHost), fun v c => { c with serverHost := v }⟩,
  ⟨"server_port", .uint16, (·.serverPort), fun v c => { c with serverPort := v }⟩,
  ⟨"upload_protocol", .string, (·.uploadProtocol), fun v c => { c with uploadProtocol := v }⟩,
  ⟨"max_concurrent_uploads", .uint32, (·.maxConcurrentUploads),
    fun v c => { c with maxConcurrentUploads := v }⟩,
  ⟨"chunk_size", .uint32, (·.chunkSize), fun v c => { c with chunkSize := v }⟩,
  ⟨"timeout_seconds", .uint32, (·.timeoutSeconds), fun v c => { c with timeoutSeconds := v }⟩,
  ⟨"retry_count", .uint32, (·.retryCount), fun v c => { c with retryCount := v }⟩,
  ⟨"retry_delay_ms", .uint32, (·.retryDelayMs), fun v c => { c with retryDelayMs := v }⟩,
  ⟨"max_upload_speed", .uint64, (·.maxUploadSpeed), fun v c => { c with maxUploadSpeed := v }⟩,
  ⟨"max_file_size", .uint64, (·.maxFileSize), fun v c => { c with maxFileSize := v }⟩,
  ⟨"enable_resume", .boolean, (·.enableResume), fun v c => { c with enableResume := v }⟩,
  ⟨"enable_compression", .boolean, (·.enableCompression), fun v c => { c with enableCompression := v }⟩,
  ⟨"enable_checksum", .boolean, (·.enableChecksum), fun v c => { c with enableChecksum := v }⟩,
  ⟨"overwrite", .boolean, (·.overwrite), fun v c => { c with overwrite := v }⟩,
  ⟨"enable_multipart", .boolean, (·.enableMultipart), fun v c => { c with enableMultipart := v }⟩,
  ⟨"enable_progress", .boolean, (·.enableProgress), fun v c => { c with enableProgress := v }⟩,
  ⟨"compression_algorithm", .compression, (·.compressionAlgo),
    fun v c => { c with compressionAlgo := v }⟩,
  ⟨"checksum_algorithm", .checksum, (·.checksumAlgo), fun v c => { c with checksumAlgo := v }⟩,
  ⟨"target_dir", .string, (·.targetDir), fun v c => { c with targetDir := v }⟩,
  ⟨"use_ssl", .boolean, (·.useSSL), fun v c => { c with useSSL := v }⟩,
  ⟨"cert_file", .string, (·.certFile), fun v c => { c with certFile := v }⟩,
  ⟨"private_key_file", .string, (·.privateKeyFile), fun v c => { c with privateKeyFile := v }⟩,
  ⟨"ca_file", .string, (·.caFile), fun v c => { c with caFile := v }⟩,
  ⟨"verify_server", .boolean, (·.verifyServer), fun v c => { c with verifyServer := v }⟩,
  ⟨"auth_token", .string, (·.authToken), fun v c => { c with authToken := v }⟩,
  ⟨"log_level", .string, (·.logLevel), fun v c => { c with logLevel := v }⟩,
  ⟨"log_file_path", .string, (·.logFilePath), fun v c => { c with logFilePath := v }⟩,
  ⟨"enable_detailed_log", .boolean, (·.enableDetailedLog), fun v c => { c with enableDetailedLog := v }⟩,
  ⟨"client_version", .string, (·.clientVersion), fun v c => { c with clientVersion := v }⟩,
  ⟨"user_agent", .string, (·.userAgent), fun v c => { c with userAgent := v }⟩,
  ⟨"exclude_patterns", .strings, (·.excludePatterns), fun v c => { c with excludePatterns := v }⟩]

/-- The one field that is a list. -/
def patternsField : Field Kind UploadConfig :=
  ⟨"exclude_patterns", .strings, (·.excludePatterns), fun v c => { c with excludePatterns := v }⟩

theorem patternsField_mem : patternsField ∈ uploadFields := by
  simp [uploadFields, patternsField]

/-- `parseUIConfigSection`. -/
def uiFields : List (Field Kind UIConfig) := [
  ⟨"show_progress_details", .boolean, (·.showProgressDetails),
    fun v c => { c with showProgressDetails := v }⟩,
  ⟨"show_speed_info", .boolean, (·.showSpeedInfo), fun v c => { c with showSpeedInfo := v }⟩,
  ⟨"auto_start_upload", .boolean, (·.autoStartUpload), fun v c => { c with autoStartUpload := v }⟩,
  ⟨"minimize_to_tray", .boolean, (·.minimizeToTray), fun v c => { c with minimizeToTray := v }⟩,
  ⟨"show_notifications", .boolean, (·.showNotifications), fun v c => { c with showNotifications := v }⟩,
  ⟨"language", .string, (·.language), fun v c => { c with language := v }⟩,
  ⟨"theme", .string, (·.theme), fun v c => { c with theme := v }⟩,
  ⟨"window_width", .int, (·.windowWidth), fun v c => { c with windowWidth := v }⟩,
  ⟨"window_height", .int, (·.windowHeight), fun v c => { c with windowHeight := v }⟩,
  ⟨"window_maximized", .boolean, (·.windowMaximized), fun v c => { c with windowMaximized := v }⟩,
  ⟨"show_file_size", .boolean, (·.showFileSize), fun v c => { c with showFileSize := v }⟩,
  ⟨"show_file_type", .boolean, (·.showFileType), fun v c => { c with showFileType := v }⟩,
  ⟨"show_upload_time", .boolean, (·.showUploadTime), fun v c => { c with showUploadTime := v }⟩,
  ⟨"show_file_status", .boolean, (·.showFileStatus), fun v c => { c with showFileStatus := v }⟩]

/-- `parseNetworkConfigSection`. -/
def networkFields : List (Field Kind NetworkConfig) := [
  ⟨"connect_timeout_ms", .uint32, (·.connectTimeoutMs), fun v c => { c with connectTimeoutMs := v }⟩,
  ⟨"read_timeout_ms", .uint32, (·.readTimeoutMs), fun v c => { c with readTimeoutMs := v }⟩,
  ⟨"write_timeout_ms", .uint32, (·.writeTimeoutMs), fun v c => { c with writeTimeoutMs := v }⟩,
  ⟨"buffer_size", .uint32, (·.bufferSize), fun v c => { c with bufferSize := v }⟩,
  ⟨"max_connections", .uint32, (·.maxConnections), fun v c => { c with maxConnections := v }⟩,
  ⟨"enable_keep_alive", .boolean, (·.enableKeepAlive), fun v c => { c with enableKeepAlive := v }⟩,
  ⟨"keep_alive_interval_ms", .uint32, (·.keepAliveIntervalMs),
    fun v c => { c with keepAliveIntervalMs := v }⟩,
  ⟨"enable_app_heartbeat", .boolean, (·.enableAppHeartbeat),
    fun v c => { c with enableAppHeartbeat := v }⟩,
  ⟨"heartbeat_interval_ms", .uint32, (·.heartbeatIntervalMs),
    fun v c => { c with heartbeatIntervalMs := v }⟩,
  ⟨"heartbeat_timeout_ms", .uint32, (·.heartbeatTimeoutMs),
    fun v c => { c with heartbeatTimeoutMs := v }⟩,
  ⟨"heartbeat_max_failures", .uint32, (·.heartbeatMaxFailures),
    fun v c => { c with heartbeatMaxFailures := v }⟩,
  ⟨"enable_auto_reconnect", .boolean, (·.enableAutoReconnect),
    fun v c => { c with enableAutoReconnect := v }⟩,
  ⟨"reconnect_interval_ms", .uint32, (·.reconnectIntervalMs),
    fun v c => { c with reconnectIntervalMs := v }⟩,
  ⟨"max_reconnect_attempts", .uint32, (·.maxReconnectAttempts),
    fun v c => { c with maxReconnectAttempts := v }⟩,
  ⟨"reconnect_backoff_ms", .uint32, (·.reconnectBackoffMs),
    fun v c => { c with reconnectBackoffMs := v }⟩,
  ⟨"enable_reconnect_backoff", .boolean, (·.enableReconnectBackoff),
    fun v c => { c with enableReconnectBackoff := v }⟩,
  ⟨"enable_proxy", .boolean, (·.enableProxy), fun v c => { c with enableProxy := v }⟩,
  ⟨"proxy_host", .string, (·.proxyHost), fun v c => { c with proxyHost := v }⟩,
  ⟨"proxy_port", .uint16, (·.proxyPort), fun v c => { c with proxyPort := v }⟩,
  ⟨"proxy_user", .string, (·.proxyUser), fun v c => { c with proxyUser := v }⟩,
  ⟨"proxy_password", .string, (·.proxyPassword), fun v c => { c with proxyPassword := v }⟩]

/-- A section of the document, if it is there, into the member `r`. -/
def parseSection (fields : List (Field Kind ρ)) (name : String) (data : Entries) (r : ρ) :
    Except BadCast Unit × ρ :=
  match data.lookup name with
  | none => (.ok (), r)
  | some section_ => parseFields section_ fields r

/-- `parseUploadConfigSection`. -/
def parseUploadConfigSection (data : Entries) (s : Settings) : Except BadCast Unit × Settings :=
  let r := parseSection uploadFields "upload" data s.upload
  (r.1, { s with upload := r.2 })

/-- `parseUIConfigSection`. -/
def parseUIConfigSection (data : Entries) (s : Settings) : Except BadCast Unit × Settings :=
  let r := parseSection uiFields "ui" data s.ui
  (r.1, { s with ui := r.2 })

/-- `parseNetworkConfigSection`. -/
def parseNetworkConfigSection (data : Entries) (s : Settings) : Except BadCast Unit × Settings :=
  let r := parseSection networkFields "network" data s.network
  (r.1, { s with network := r.2 })

/-- One call after the other; an exception skips the second. -/
def andThen (first second : Settings → Except BadCast Unit × Settings) (s : Settings) :
    Except BadCast Unit × Settings :=
  match first s with
  | (.ok (), s') => second s'
  | (.error e, s') => (.error e, s')

/-- `parseFullTomlConfig`. -/
def parseFullTomlConfig (parseStr : Text → Option Entries) (tomlContent : Text) (s : Settings) :
    Bool × Settings :=
  match parseStr tomlContent with
  | none => (false, s)
  | some data =>
    match andThen (parseUploadConfigSection data)
        (andThen (parseUIConfigSection data) (parseNetworkConfigSection data)) s with
    | (.ok (), s') => (true, s')
    | (.error _, s') => (false, s')

/-- The change callback: there is none, it returns, it throws. -/
inductive ChangeCallback where
  | none
  | returns
  | throws
  deriving DecidableEq, Repr

/-- `importFromTomlString`. -/
def importFromTomlString (parseStr : Text → Option Entries) (callback : ChangeCallback) (tomlContent : Text)
    (s : Settings) : Bool × Settings :=
  let r := parseFullTomlConfig parseStr tomlContent s
  (r.1 && callback != .throws, r.2)

/-- The file of a path: it is not there, cannot be opened, or has a content. -/
inductive ConfigFile where
  | missing
  | closed
  | content (text : Text)

/-- `loadFromFile`. -/
def loadFromFile (parseStr : Text → Option Entries) (file : ConfigFile) (s : Settings) : Bool × Settings :=
  match file with
  | .missing => (false, s)
  | .closed => (false, s)
  | .content text => parseFullTomlConfig parseStr text s

/-! ### Layouts -/

/-- The fields of a literal list one by one. -/
theorem apart_cons {f : Field Kind ρ} {fs : List (Field Kind ρ)} (h : fs.Forall f.Apart)
    (hfs : fs.Pairwise Field.Apart) : (f :: fs).Pairwise Field.Apart :=
  .cons (List.forall_iff_forall_mem.mp h) hfs

theorem forall_cons {p : Field Kind ρ → Prop} {f : Field Kind ρ} {fs : List (Field Kind ρ)} (h : p f)
    (hfs : fs.Forall p) : (f :: fs).Forall p :=
  (List.forall_cons p f fs).mpr ⟨h, hfs⟩

def uploadLayout : Layout Kind UploadConfig where
  fields := uploadFields
  get_set := by
    unfold uploadFields
    repeat' first
      | exact trivial
      | exact fun _ _ => rfl
      | apply forall_cons
  apart := by
    unfold uploadFields
    repeat' first
      | exact List.Pairwise.nil
      | exact trivial
      | exact ⟨fun _ _ => rfl, fun _ _ => rfl⟩
      | apply apart_cons
      | apply forall_cons
  ext := by
    rintro ⟨⟩ ⟨⟩ h
    simp only [uploadFields, List.forall_cons, List.Forall] at h
    simp [h]

def uiLayout : Layout Kind UIConfig where
  fields := uiFields
  get_set := by
    unfold uiFields
    repeat' first
      | exact trivial
      | exact fun _ _ => rfl
      | apply forall_cons
  apart := by
    unfold uiFields
    repeat' first
      | exact List.Pairwise.nil
      | exact trivial
      | exact ⟨fun _ _ => rfl, fun _ _ => rfl⟩
      | apply apart_cons
      | apply forall_cons
  ext := by
    rintro ⟨⟩ ⟨⟩ h
    simp only [uiFields, List.forall_cons, List.Forall] at h
    simp [h]

def networkLayout : Layout Kind NetworkConfig where
  fields := networkFields
  get_set := by
    unfold networkFields
    repeat' first
      | exact trivial
      | exact fun _ _ => rfl
      | apply forall_cons
  apart := by
    unfold networkFields
    repeat' first
      | exact List.Pairwise.nil
      | exact trivial
      | exact ⟨fun _ _ => rfl, fun _ _ => rfl⟩
      | apply apart_cons
      | apply forall_cons
  ext := by
    rintro ⟨⟩ ⟨⟩ h
    simp only [networkFields, List.forall_cons, List.Forall] at h
    simp [h]

/-! ### What is read -/

/-- The section is absent or a table. -/
def Readable (data : Entries) (name : String) : Prop :=
  match data.lookup name with
  | none => True
  | some (.table _) => True
  | some _ => False

instance (data : Entries) (name : String) : Decidable (Readable data name) :=
  match h : data.lookup name with
  | none => isTrue (by simp [Readable, h])
  | some (.table _) => isTrue (by simp [Readable, h])
  | some (.boolean _) => isFalse (by simp [Readable, h])
  | some (.integer _) => isFalse (by simp [Readable, h])
  | some (.string _) => isFalse (by simp [Readable, h])
  | some (.array _) => isFalse (by simp [Readable, h])
  | some .other => isFalse (by simp [Readable, h])

/-- The value of a field behind the reading of its section. -/
def readAt (data : Entries) (name : String) (f : Field Kind ρ) (x : f.α) : f.α :=
  ((valueAt data name f.key).bind f.kind.convert).getD x

theorem parseFields_table (entries : List (String × Value)) (fs : List (Field Kind ρ)) (r : ρ) :
    parseFields (.table entries) fs r =
      (.ok (), assign (fun f x => ((entries.lookup f.key).bind f.kind.convert).getD x) fs r) := by
  induction fs generalizing r with
  | nil => rfl
  | cons f fs ih =>
    have hkey : parseConfigValue f.kind (.table entries) f.key (f.get r) =
        .ok (((entries.lookup f.key).bind f.kind.convert).getD (f.get r)) := by
      simp only [parseConfigValue, parseKey, Value.find]
      cases entries.lookup f.key with
      | none => rfl
      | some value => rfl
    rw [parseFields, hkey, assign]
    exact ih _

/-- A section is read completely or, where it is no table, not at all. -/
theorem parseSection_readable (L : Layout Kind ρ) {data : Entries} {name : String} (h : Readable data name)
    (r : ρ) :
    parseSection L.fields name data r = (.ok (), assign (readAt data name) L.fields r) := by
  cases hsection : data.lookup name with
  | none =>
    have hsame : assign (readAt data name) L.fields r = r := by
      rw [L.assign_eq_iff]
      intro f _
      simp [readAt, valueAt, hsection]
    rw [parseSection, hsection, hsame]
  | some section_ =>
    cases section_ with
    | table entries =>
      have hread : readAt (ρ := ρ) data name =
          fun f x => ((entries.lookup f.key).bind f.kind.convert).getD x := by
        funext f x
        simp only [readAt, valueAt, hsection]
      rw [parseSection, hsection, hread]
      exact parseFields_table entries L.fields r
    | _ => simp [Readable, hsection] at h

theorem parseSection_unreadable (L : Layout Kind ρ) (hL : L.fields ≠ []) {data : Entries} {name : String}
    (h : ¬ Readable data name) (r : ρ) :
    parseSection L.fields name data r = (.error .badCast, r) := by
  obtain ⟨f, fs, hfields⟩ := List.exists_cons_of_ne_nil hL
  cases hsection : data.lookup name with
  | none => simp [Readable, hsection] at h
  | some section_ =>
    rw [parseSection, hsection, hfields]
    cases section_ with
    | table entries => simp [Readable, hsection] at h
    | _ => rfl

theorem parseSection_eq (L : Layout Kind ρ) (hL : L.fields ≠ []) (data : Entries) (name : String) (r : ρ) :
    parseSection L.fields name data r =
      if Readable data name then (.ok (), assign (readAt data name) L.fields r)
      else (.error .badCast, r) := by
  by_cases h : Readable data name
  · rw [if_pos h]
    exact parseSection_readable L h r
  · rw [if_neg h]
    exact parseSection_unreadable L hL h r

/-- The upload configuration behind the reading of its section; the others alike. -/
def readUpload (data : Entries) (s : Settings) : Settings :=
  { s with upload := assign (readAt data "upload") uploadFields s.upload }

def readUI (data : Entries) (s : Settings) : Settings :=
  { s with ui := assign (readAt data "ui") uiFields s.ui }

def readNetwork (data : Entries) (s : Settings) : Settings :=
  { s with network := assign (readAt data "network") networkFields s.network }

theorem parseUploadConfigSection_eq (data : Entries) (s : Settings) :
    parseUploadConfigSection data s =
      if Readable data "upload" then (.ok (), readUpload data s) else (.error .badCast, s) := by
  have hsection := parseSection_eq uploadLayout (List.cons_ne_nil _ _) data "upload" s.upload
  unfold parseUploadConfigSection
  rw [show uploadFields = uploadLayout.fields from rfl, hsection]
  split_ifs <;> rfl

theorem parseUIConfigSection_eq (data : Entries) (s : Settings) :
    parseUIConfigSection data s =
      if Readable data "ui" then (.ok (), readUI data s) else (.error .badCast, s) := by
  have hsection := parseSection_eq uiLayout (List.cons_ne_nil _ _) data "ui" s.ui
  unfold parseUIConfigSection
  rw [show uiFields = uiLayout.fields from rfl, hsection]
  split_ifs <;> rfl

theorem parseNetworkConfigSection_eq (data : Entries) (s : Settings) :
    parseNetworkConfigSection data s =
      if Readable data "network" then (.ok (), readNetwork data s) else (.error .badCast, s) := by
  have hsection := parseSection_eq networkLayout (List.cons_ne_nil _ _) data "network" s.network
  unfold parseNetworkConfigSection
  rw [show networkFields = networkLayout.fields from rfl, hsection]
  split_ifs <;> rfl

/-- The sections are read up to the first that is no table. -/
theorem parseFullTomlConfig_eq {parseStr : Text → Option Entries} {text : Text} {data : Entries}
    (h : parseStr text = some data) (s : Settings) :
    parseFullTomlConfig parseStr text s =
      if Readable data "upload" then
        if Readable data "ui" then
          if Readable data "network" then (true, readNetwork data (readUI data (readUpload data s)))
          else (false, readUI data (readUpload data s))
        else (false, readUpload data s)
      else (false, s) := by
  simp only [parseFullTomlConfig, h, andThen, parseUploadConfigSection_eq, parseUIConfigSection_eq,
    parseNetworkConfigSection_eq]
  by_cases hupload : Readable data "upload"
  · by_cases hui : Readable data "ui"
    · by_cases hnetwork : Readable data "network"
      · simp only [hupload, hui, hnetwork, if_true]
      · simp only [hupload, hui, hnetwork, if_true, if_false]
    · simp only [hupload, hui, if_true, if_false]
  · simp only [hupload, if_false]

/-- When an import succeeds and what it leaves then. -/
theorem import_eq_iff {parseStr : Text → Option Entries} {text : Text} {data : Entries}
    (h : parseStr text = some data) (callback : ChangeCallback) (s s' : Settings) :
    importFromTomlString parseStr callback text s = (true, s') ↔
      callback ≠ .throws ∧
      (Readable data "upload" ∧ assign (readAt data "upload") uploadLayout.fields s.upload = s'.upload) ∧
      (Readable data "ui" ∧ assign (readAt data "ui") uiLayout.fields s.ui = s'.ui) ∧
      (Readable data "network" ∧
        assign (readAt data "network") networkLayout.fields s.network = s'.network) := by
  rw [importFromTomlString, parseFullTomlConfig_eq h]
  constructor
  · intro heq
    obtain ⟨hok, hs⟩ := Prod.mk.inj heq
    obtain ⟨hread, hcallback⟩ := Bool.and_eq_true_iff.mp hok
    refine ⟨bne_iff_ne.mp hcallback, ?_⟩
    split_ifs at hread hs with hupload hui hnetwork
    subst hs
    exact ⟨⟨hupload, rfl⟩, ⟨hui, rfl⟩, hnetwork, rfl⟩
  · rintro ⟨hcallback, ⟨hupload, hu⟩, ⟨hui, hi⟩, hnetwork, hn⟩
    rw [if_pos hupload, if_pos hui, if_pos hnetwork]
    refine Prod.ext (bne_iff_ne.mpr hcallback) ?_
    show Settings.mk (assign (readAt data "upload") uploadLayout.fields s.upload)
      (assign (readAt data "ui") uiLayout.fields s.ui)
      (assign (readAt data "network") networkLayout.fields s.network) = s'
    rw [hu, hi, hn]

end LuspUpload.Config
