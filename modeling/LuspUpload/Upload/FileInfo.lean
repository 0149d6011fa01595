import Mathlib.Data.List.Basic

/-!
# Upload.FileInfo — upload records and their construction from a path

`Lusp_SyncUploadFileInfo` and the constructor of `Lusp_SyncUploadFileInfoHandler`.  Strings are lists of
code units.  `Env` holds what is not in the repository (`UniConv`, the path functions, the computer name);
`Probe` holds what the file system, the clocks and the UUID service answer during one construction.

* A path that is empty or does not exist leaves the handler invalid, its file name empty; nobody looks
  at the flag.
* `file_size` throws for a directory, and so does the constructor (`none`).

`m_error` is left out: only `getError` reads it.
-/

namespace LuspUpload.Upload

/-- `Lusp_UploadFileTyped`. -/
inductive UploadFileTyped where
  | document | image | video | audio | archive | code | undefined
  deriving DecidableEq, Repr

/-- `Lusp_FileExistPolicy`. -/
inductive FileExistPolicy where
  | overwrite | skip | rename | undefined
  deriving DecidableEq, Repr

/-- `Lusp_UploadStatusInf`. -/
inductive UploadStatusInf where
  | completed | pending | uploading | rejected | failed | undefined
  deriving DecidableEq, Repr

/-- `static_cast<int>` of an enumerator. -/
def UploadFileTyped.toNat : UploadFileTyped → ℕ
  | document => 0
  | image => 1
  | video => 2
  | audio => 3
  | archive => 4
  | code => 5
  | undefined => 6

def FileExistPolicy.toNat : FileExistPolicy → ℕ
  | overwrite => 0
  | skip => 1
  | rename => 2
  | undefined => 3

def UploadStatusInf.toNat : UploadStatusInf → ℕ
  | completed => 0
  | pending => 1
  | uploading => 2
  | rejected => 3
  | failed => 4
  | undefined => 5

/-- `Lusp_SyncUploadFileInfo`; `enqueueTime` in nanoseconds of the steady clock. -/
structure SyncUploadFileInfo where
  eUploadFileTyped : UploadFileTyped
  sLanClientDevice : List UInt16
  sSyncFileSizeValue : UInt64
  sFileFullNameValue : List UInt16
  sOnlyFileNameValue : List UInt16
  sFileRecordTimeValue : List UInt8
  sFileMd5ValueInfo : List UInt8
  eFileExistPolicy : FileExistPolicy
  sAuthTokenValues : List UInt8
  uUploadTimeStamp : UInt64
  eUploadStatusInf : UploadStatusInf
  sDescriptionInfo : List UInt16
  enqueueTime : Int
  deriving DecidableEq, Repr

/-- Code outside the repository. -/
structure Env where
  toUtf8FromUtf16LE : List UInt16 → List UInt8
  toUtf16LEFromLocale : List UInt8 → List UInt16
  toUtf16LEFromUtf8 : List UInt8 → List UInt16
  filename : List UInt8 → List UInt8
  extension : List UInt8 → List Char
  computerNameU16 : List UInt16

/-- An environment for ASCII strings, with files in the current directory. -/
def asciiEnv : Env where
  toUtf8FromUtf16LE s := s.map fun c => .ofNat c.toNat
  toUtf16LEFromLocale s := s.map fun c => .ofNat c.toNat
  toUtf16LEFromUtf8 s := s.map fun c => .ofNat c.toNat
  filename s := s
  extension s := (s.map fun c => Char.ofNat c.toNat).dropWhile (· != '.')
  computerNameU16 := [68]

/-- The answers of one construction: whether the path exists, its size (`none`: `file_size` throws), its
MD5 (`none`: it cannot be opened), the UUID and the clocks. -/
structure Probe where
  pathExists : Bool
  fileSize : Option UInt64
  md5 : Option (List UInt8)
  uuid : List UInt8
  currentTimeString : List UInt8
  systemClockMs : UInt64
  steadyClockNs : Int
  deriving DecidableEq, Repr

/-- `Lusp_SyncUploadFileInfoHandler`. -/
structure FileInfoHandler where
  fileInfo : SyncUploadFileInfo
  id : List UInt8
  valid : Bool
  deriving DecidableEq, Repr

/-- The suffixes of each file type, in the order of the tests. -/
def suffixes : List (UploadFileTyped × List String) :=
  [(.document, ["txt", "doc", "docx", "pdf", "rtf", "odt"]),
   (.image, ["jpg", "jpeg", "png", "gif", "bmp", "svg", "tiff", "webp"]),
   (.video, ["mp4", "avi", "mkv", "mov", "wmv", "flv", "webm", "m4v"]),
   (.audio, ["mp3", "wav", "flac", "aac", "ogg", "wma", "m4a"]),
   (.archive, ["zip", "rar", "7z", "tar", "gz", "bz2", "xz"]),
   (.code, ["cpp", "h", "c", "hpp", "js", "py", "java", "cs", "php", "html", "css", "xml", "json"])]

/-- `detectFileType`, on the extension with its dot. -/
def detectFileType (extension : List Char) : UploadFileTyped :=
  let suffix := ((if extension.head? = some '.' then extension.tail else extension).map Char.toLower)
  if extension = [] then .undefined
  else
    match suffixes.find? (fun row => row.2.any (·.toList == suffix)) with
    | some row => row.1
    | none => .undefined

/-- `initializeDefaults`. -/
def initializeDefaults (env : Env) (probe : Probe) : FileInfoHandler where
  fileInfo :=
    { eUploadFileTyped := .undefined
      sLanClientDevice := env.computerNameU16
      sSyncFileSizeValue := 0
      sFileFullNameValue := []
      sOnlyFileNameValue := []
      sFileRecordTimeValue := []
      sFileMd5ValueInfo := []
      eFileExistPolicy := .overwrite
      sAuthTokenValues := probe.uuid
      uUploadTimeStamp := 0
      eUploadStatusInf := .pending
      sDescriptionInfo := []
      enqueueTime := 0 }
  id := probe.uuid
  valid := false

/-- `setFileInfoPath`. -/
def setFileInfoPath (env : Env) (filePath : List UInt16) (h : FileInfoHandler) : FileInfoHandler :=
  let utf8 := env.toUtf8FromUtf16LE filePath
  { h with fileInfo :=
    { h.fileInfo with
      sFileFullNameValue := filePath
      sOnlyFileNameValue := env.toUtf16LEFromLocale (env.filename utf8)
      eUploadFileTyped := detectFileType (env.extension utf8) } }

/-- `updateFileInfoFromFileSystem`; `none` when `file_size` throws. -/
def updateFileInfoFromFileSystem (env : Env) (probe : Probe) (h : FileInfoHandler) :
    Option FileInfoHandler :=
  let utf8 := env.toUtf8FromUtf16LE h.fileInfo.sFileFullNameValue
  if utf8 = [] then some { h with valid := false }
  else if probe.pathExists = false then some { h with valid := false }
  else
    probe.fileSize.map fun size =>
      { h with fileInfo :=
        { h.fileInfo with
          sSyncFileSizeValue := size
          sOnlyFileNameValue := env.toUtf16LEFromUtf8 (env.filename utf8)
          sFileRecordTimeValue := probe.currentTimeString
          sFileMd5ValueInfo :=
            if h.fileInfo.sFileMd5ValueInfo = [] then probe.md5.getD []
            else h.fileInfo.sFileMd5ValueInfo } }

/-- The constructor from a path; `none` when it throws. -/
def FileInfoHandler.ofPath (env : Env) (probe : Probe) (filePath : List UInt16) :
    Option FileInfoHandler :=
  let h := initializeDefaults env probe
  if filePath = [] ∨ probe.pathExists = false then some h
  else
    let h := setFileInfoPath env filePath h
    let h := { h with fileInfo :=
      { h.fileInfo with
        eUploadFileTyped := detectFileType (env.extension (env.toUtf8FromUtf16LE filePath)) } }
    -- the flag is set whatever the update found
    (updateFileInfoFromFileSystem env probe h).map fun h => { h with valid := true }

/-- The record that `pushFileInfo` enqueues: the handler's, with both timestamps set. -/
def queuedInfo (probe : Probe) (h : FileInfoHandler) : SyncUploadFileInfo :=
  { h.fileInfo with
    uUploadTimeStamp := probe.systemClockMs
    enqueueTime := probe.steadyClockNs }

end LuspUpload.Upload
