import LuspUpload.Config.NetworkConfig
import LuspUpload.Lib.TomlValue

/-!
# Config.Settings — the configuration of the client and its validation

The three structures that `ClientConfigManager` holds, with the defaults of their declarations, and
`validateConfig`.  A field of type `std::string` holds any bytes.
-/

namespace LuspUpload.Config

open Lib

inductive CompressionAlgorithm where
  | none
  | gzip
  | zstd
  | lz4
  | brotli
  | lzma
  deriving DecidableEq, Repr

inductive ChecksumAlgorithm where
  | none
  | crc32
  | md5
  | sha1
  | sha256
  | sha512
  | blake2
  deriving DecidableEq, Repr

/-- `CompressionAlgorithmToString`, that is `magic_enum::enum_name`. -/
def CompressionAlgorithm.name : CompressionAlgorithm → String
  | none => "NONE"
  | gzip => "GZIP"
  | zstd => "ZSTD"
  | lz4 => "LZ4"
  | brotli => "BROTLI"
  | lzma => "LZMA"

/-- `ChecksumAlgorithmToString`. -/
def ChecksumAlgorithm.name : ChecksumAlgorithm → String
  | none => "NONE"
  | crc32 => "CRC32"
  | md5 => "MD5"
  | sha1 => "SHA1"
  | sha256 => "SHA256"
  | sha512 => "SHA512"
  | blake2 => "BLAKE2"

/-- `StringToCompressionAlgorithm`, that is `magic_enum::enum_cast`: the enumerator of that very name. -/
def stringToCompressionAlgorithm (s : Text) : Option CompressionAlgorithm :=
  [.none, .gzip, .zstd, .lz4, .brotli, .lzma].find? fun algo => utf8 algo.name = s

/-- `StringToChecksumAlgorithm`. -/
def stringToChecksumAlgorithm (s : Text) : Option ChecksumAlgorithm :=
  [.none, .crc32, .md5, .sha1, .sha256, .sha512, .blake2].find? fun algo => utf8 algo.name = s

theorem stringToCompressionAlgorithm_name (algo : CompressionAlgorithm) :
    stringToCompressionAlgorithm (utf8 algo.name) = some algo := by
  cases algo <;> decide

theorem stringToChecksumAlgorithm_name (algo : ChecksumAlgorithm) :
    stringToChecksumAlgorithm (utf8 algo.name) = some algo := by
  cases algo <;> decide

/-- `UploadConfig`. -/
structure UploadConfig where
  serverHost : Text := utf8 "127.0.0.1"
  serverPort : UInt16 := 9000
  uploadProtocol : Text := utf8 "TCP"
  maxConcurrentUploads : UInt32 := 4
  chunkSize : UInt32 := 1024 * 1024
  timeoutSeconds : UInt32 := 30
  retryCount : UInt32 := 3
  retryDelayMs : UInt32 := 1000
  maxUploadSpeed : UInt64 := 0
  maxFileSize : UInt64 := 0
  enableResume : Bool := true
  enableCompression : Bool := true
  compressionAlgo : CompressionAlgorithm := .gzip
  enableChecksum : Bool := true
  checksumAlgo : ChecksumAlgorithm := .md5
  overwrite : Bool := false
  enableMultipart : Bool := true
  enableProgress : Bool := true
  targetDir : Text := utf8 "/uploads"
  useSSL : Bool := false
  certFile : Text := []
  privateKeyFile : Text := []
  caFile : Text := []
  verifyServer : Bool := true
  authToken : Text := []
  logLevel : Text := []
  logFilePath : Text := []
  enableDetailedLog : Bool := false
  clientVersion : Text := utf8 "1.0.0"
  userAgent : Text := utf8 "HesUploader/1.0"
  excludePatterns : List Text := []
  deriving DecidableEq

/-- `UIConfig`. -/
structure UIConfig where
  showProgressDetails : Bool := true
  showSpeedInfo : Bool := true
  autoStartUpload : Bool := true
  minimizeToTray : Bool := false
  showNotifications : Bool := true
  language : Text := utf8 "zh-CN"
  theme : Text := utf8 "default"
  windowWidth : Int32 := 1000
  windowHeight : Int32 := 700
  windowMaximized : Bool := false
  showFileSize : Bool := true
  showFileType : Bool := true
  showUploadTime : Bool := true
  showFileStatus : Bool := true
  deriving DecidableEq

/-- The configurations that `ClientConfigManager` holds. -/
structure Settings where
  upload : UploadConfig
  ui : UIConfig
  network : NetworkConfig
  deriving DecidableEq

/-- `initializeDefaults`. -/
def initializeDefaults : Settings where
  upload := { compressionAlgo := .zstd, checksumAlgo := .sha256 }
  ui := {}
  network := {}

/-! ### Validation -/

/-- What `validateUploadConfig` finds. -/
def uploadErrors (c : UploadConfig) : List Text :=
  (violated c.serverHost.isEmpty "服务器地址不能为空").map utf8 ++
  (violated (c.serverPort == 0 || 65535 < c.serverPort.toNat) "服务器端口号无效 (应在1-65535范围内)").map utf8 ++
  (violated (c.uploadProtocol ∉ ["HTTP", "HTTPS", "FTP", "FTPS", "TCP", "UDP", "gRPC", "WebSocket"].map utf8)
    "不支持的上传协议: ").map (utf8 · ++ c.uploadProtocol) ++
  (violated (c.maxConcurrentUploads == 0 || 50 < c.maxConcurrentUploads) "最大并发上传数应在1-50范围内").map utf8 ++
  (violated (outside 1024 (100 * 1024 * 1024) c.chunkSize) "分块大小应在1KB-100MB范围内").map utf8 ++
  (violated (c.timeoutSeconds == 0 || 3600 < c.timeoutSeconds) "超时时间应在1-3600秒范围内").map utf8

/-- What `validateUIConfig` finds. -/
def uiErrors (c : UIConfig) : List Text :=
  (violated (c.windowWidth < 800 || 4000 < c.windowWidth) "窗口宽度应在800-4000像素范围内").map utf8 ++
  (violated (c.windowHeight < 600 || 3000 < c.windowHeight) "窗口高度应在600-3000像素范围内").map utf8 ++
  (violated (c.language ∉ ["zh-CN", "en-US", "ja-JP"].map utf8) "不支持的语言: ").map (utf8 · ++ c.language)

/-- `validateUploadConfig`. -/
def validateUploadConfig (c : UploadConfig) (errors : List Text) : Bool × List Text :=
  ((uploadErrors c).isEmpty, errors ++ uploadErrors c)

/-- `validateUIConfig`. -/
def validateUIConfig (c : UIConfig) (errors : List Text) : Bool × List Text :=
  ((uiErrors c).isEmpty, errors ++ uiErrors c)

/-- `validateConfig`; the texts are only counted for the log. -/
def validateConfig (s : Settings) : Bool :=
  (validateUploadConfig s.upload []).1 && (validateUIConfig s.ui []).1 &&
    (validateNetworkConfig s.network []).1

/-- `getValidationErrors`. -/
def getValidationErrors (s : Settings) : List Text :=
  uploadErrors s.upload ++ uiErrors s.ui ++ (networkErrors s.network).map utf8

/-- A configuration is valid when there is nothing to complain about. -/
theorem validateConfig_iff (s : Settings) : validateConfig s = true ↔ getValidationErrors s = [] := by
  simp [validateConfig, getValidationErrors, validateUploadConfig, validateUIConfig, validateNetworkConfig,
    and_assoc]

theorem validateConfig_defaults : validateConfig initializeDefaults = true := by decide

end LuspUpload.Config
