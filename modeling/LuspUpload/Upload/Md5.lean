import LuspUpload.Lib.ReadLoop
import LuspUpload.Upload.FileInfo

/-!
# Upload.Md5 — the MD5 of a file

`calculateFileMd5ValueInfo` reads the file through a buffer of 8192 bytes and feeds what it reads to an `MD5`
object, which is a parameter.  The loop has fuel for its rounds and is `none` when that runs out.
-/

namespace LuspUpload.Upload

open Lib

variable {σ : Type}

/-- The `MD5` object. -/
structure Md5 (σ : Type) where
  reset : σ
  add : σ → List UInt8 → σ
  getHash : σ → List UInt8

/-- An object that keeps what it is given, call by call. -/
def recorder : Md5 (List (List UInt8)) where
  reset := []
  add chunks chunk := chunks ++ [chunk]
  getHash := List.flatten

/-- The size of the buffer. -/
def BUFFER_SIZE : ℕ := 8192

/-- The loop of `calculateFileMd5ValueInfo` on a file that was just opened. -/
def md5Loop (md5 : Md5 σ) (fuel : ℕ) (content : List UInt8) : Option σ :=
  readLoop md5.add fuel (List.replicate BUFFER_SIZE 0) (.opened content) md5.reset

/-- `setMd5Hash`. -/
def setMd5Hash (hash : List UInt8) (h : FileInfoHandler) : FileInfoHandler :=
  { h with fileInfo := { h.fileInfo with sFileMd5ValueInfo := hash } }

/-- `calculateFileMd5ValueInfo`; `openFile` has the content of a file that can be opened. -/
def calculateFileMd5ValueInfo (md5 : Md5 σ) (openFile : List UInt16 → Option (List UInt8)) (fuel : ℕ)
    (h : FileInfoHandler) : Option (Bool × FileInfoHandler) :=
  if h.fileInfo.sFileFullNameValue = [] then some (false, h)
  else
    match openFile h.fileInfo.sFileFullNameValue with
    | none => some (false, h)
    | some content => (md5Loop md5 fuel content).map fun hash => (true, setMd5Hash (md5.getHash hash) h)

/-- The rounds that a file takes at most: one for each full buffer, one for a rest, one that finds nothing. -/
def rounds (content : List UInt8) : ℕ := content.length / BUFFER_SIZE + 2

theorem bufferSize_pos : 0 < BUFFER_SIZE := by
  unfold BUFFER_SIZE
  omega

theorem md5Loop_pieces {content : List UInt8} {chunks : List (List UInt8)}
    (h : Pieces BUFFER_SIZE content chunks) (md5 : Md5 σ) {fuel : ℕ} (hfuel : rounds content ≤ fuel) :
    md5Loop md5 fuel content = some (chunks.foldl md5.add md5.reset) := by
  have hlen := h.length_le bufferSize_pos
  unfold rounds at hfuel
  exact readLoop_pieces bufferSize_pos h List.length_replicate (by omega) 0 md5.reset

/-- The loop ends. -/
theorem md5Loop_ends (md5 : Md5 σ) (content : List UInt8) :
    ∃ hash, ∀ fuel, rounds content ≤ fuel → md5Loop md5 fuel content = some hash := by
  obtain ⟨chunks, hchunks⟩ := exists_pieces bufferSize_pos content
  exact ⟨_, fun fuel => md5Loop_pieces hchunks md5⟩

theorem foldl_recorder (chunks before : List (List UInt8)) :
    chunks.foldl recorder.add before = before ++ chunks := by
  induction chunks generalizing before with
  | nil => simp
  | cons chunk chunks ih =>
    rw [List.foldl_cons, ih]
    simp [recorder]

/-- **The whole file, once.**  On every file the loop ends, and what it passes to `add`, call by call, are the
bytes of the file in their order: so the recorder has it, and so every `MD5` object gets it. -/
theorem md5_whole_file (content : List UInt8) :
    ∃ chunks, chunks.flatten = content ∧ (∀ c ∈ chunks, 0 < c.length ∧ c.length ≤ BUFFER_SIZE) ∧
      (∀ fuel, rounds content ≤ fuel → md5Loop recorder fuel content = some chunks) ∧
      ∀ {σ : Type} (md5 : Md5 σ) (openFile : List UInt16 → Option (List UInt8)) (h : FileInfoHandler) (fuel : ℕ),
        h.fileInfo.sFileFullNameValue ≠ [] → openFile h.fileInfo.sFileFullNameValue = some content →
        rounds content ≤ fuel →
        calculateFileMd5ValueInfo md5 openFile fuel h =
          some (true, setMd5Hash (md5.getHash (chunks.foldl md5.add md5.reset)) h) := by
  obtain ⟨chunks, hchunks⟩ := exists_pieces bufferSize_pos content
  refine ⟨chunks, hchunks.flatten, hchunks.length_mem bufferSize_pos, ?_, ?_⟩
  · intro fuel hfuel
    rw [md5Loop_pieces hchunks recorder hfuel, foldl_recorder]
    rfl
  · intro σ md5 openFile h fuel hname hopen hfuel
    rw [calculateFileMd5ValueInfo, if_neg hname]
    simp only [hopen, md5Loop_pieces hchunks md5 hfuel, Option.map_some]

/-- A handler of the file "D". -/
def handlerOfD : FileInfoHandler :=
  setFileInfoPath asciiEnv [68] (initializeDefaults asciiEnv ⟨true, none, none, [], [], 0, 0⟩)

theorem md5_whole_file_D :
    ∃ chunks, chunks.flatten = [1, 2, 3] ∧ md5Loop recorder 2 [1, 2, 3] = some chunks ∧
      calculateFileMd5ValueInfo recorder (fun _ => some [1, 2, 3]) 2 handlerOfD =
        some (true, setMd5Hash (recorder.getHash (chunks.foldl recorder.add recorder.reset)) handlerOfD) := by
  obtain ⟨chunks, hflat, -, hrecorder, hall⟩ := md5_whole_file [1, 2, 3]
  have hrounds : rounds [1, 2, 3] ≤ 2 := by decide
  exact ⟨chunks, hflat, hrecorder 2 hrounds, hall recorder _ handlerOfD 2 (by decide) rfl hrounds⟩

/-- The hash that a construction finds is that of `calculateFileMd5ValueInfo`. -/
theorem update_md5 {md5 : Md5 σ} {openFile : List UInt16 → Option (List UInt8)} {fuel : ℕ} {env : Env}
    {probe : Probe} {h h' : FileInfoHandler}
    (hprobe : probe.md5 = (openFile h.fileInfo.sFileFullNameValue).bind fun content =>
      (md5Loop md5 (rounds content) content).map md5.getHash)
    (hfuel : ∀ content, openFile h.fileInfo.sFileFullNameValue = some content → rounds content ≤ fuel)
    (hempty : h.fileInfo.sFileMd5ValueInfo = []) (hname : h.fileInfo.sFileFullNameValue ≠ [])
    (hutf8 : env.toUtf8FromUtf16LE h.fileInfo.sFileFullNameValue ≠ []) (hexists : probe.pathExists = true)
    (hupdate : updateFileInfoFromFileSystem env probe h = some h') :
    (calculateFileMd5ValueInfo md5 openFile fuel h).map (fun r => r.2.fileInfo.sFileMd5ValueInfo) =
      some h'.fileInfo.sFileMd5ValueInfo := by
  rw [updateFileInfoFromFileSystem, if_neg hutf8, if_neg (by rw [hexists]; exact Bool.noConfusion)] at hupdate
  obtain ⟨size, -, rfl⟩ := Option.map_eq_some_iff.mp hupdate
  rw [calculateFileMd5ValueInfo, if_neg hname]
  simp only [hempty, if_true]
  cases hopen : openFile h.fileInfo.sFileFullNameValue with
  | none =>
    rw [hopen, Option.bind_none] at hprobe
    simp only [hprobe, Option.map_some, hempty, Option.getD_none]
  | some content =>
    obtain ⟨hash, hends⟩ := md5Loop_ends md5 content
    rw [hopen, Option.bind_some, hends _ le_rfl, Option.map_some] at hprobe
    simp only [hprobe, hends fuel (hfuel content hopen), Option.map_some, Option.getD_some]
    rfl

end LuspUpload.Upload
