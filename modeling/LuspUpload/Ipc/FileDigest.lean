import LuspUpload.Hash.Md5Stream
import LuspUpload.Ipc.UploadRecord
import LuspUpload.Upload.Pushed
import LuspUpload.Upload.Md5

/-!
# Ipc.FileDigest — the MD5 of a file, from its bytes to the receiver of its record

`calculateFileMd5ValueInfo` with the `MD5` of the hash library in place of its parameter.  The bytes of the file
go through the 8192-byte buffer of the loop and the 64-byte buffer of the object into the digest, its text into
the record, the record into a FlatBuffer and out of it again.
-/

namespace LuspUpload.Ipc

open Lib Upload Hash

/-- The object on the stack of `calculateFileMd5ValueInfo`: `m` is what its memory held before, `extra` what the
second array of `processBuffer` holds. -/
def libraryMd5 (m : MD5) (extra : Block) : Md5 MD5 where
  reset := m.reset
  add := MD5.add
  getHash hash := (hash.getHash extra).1

/-- What a construction finds for the hash of a path. -/
def fileMd5 {σ : Type} (md5 : Md5 σ) (openFile : List UInt16 → Option (List UInt8)) (path : List UInt16) :
    Option (List UInt8) :=
  (openFile path).bind fun content => (md5Loop md5 (rounds content) content).map md5.getHash

/-- The text of the digest. -/
def digestText (content : List UInt8) : List UInt8 := MD5.hexText (Rfc1321.md5 content)

theorem holds_foldl {m : MD5} {data : List UInt8} (h : m.Holds data) (chunks : List (List UInt8)) :
    (chunks.foldl MD5.add m).Holds (data ++ chunks.flatten) := by
  induction chunks generalizing m data with
  | nil =>
    rw [List.flatten_nil, List.append_nil]
    exact h
  | cons chunk chunks ih =>
    rw [List.foldl_cons, List.flatten_cons, ← List.append_assoc]
    exact ih (h.add chunk)

section File

variable (m : MD5) (extra : Block) {openFile : List UInt16 → Option (List UInt8)} {content : List UInt8}

/-- The loop over the file and the hash of what it fed. -/
theorem md5Loop_library {fuel : ℕ} (hfuel : rounds content ≤ fuel) :
    (md5Loop (libraryMd5 m extra) fuel content).map (libraryMd5 m extra).getHash =
      some (digestText content) := by
  obtain ⟨chunks, hchunks⟩ := exists_pieces bufferSize_pos content
  have hholds := holds_foldl (MD5.holds_reset m) chunks
  rw [List.nil_append, hchunks.flatten] at hholds
  rw [md5Loop_pieces hchunks (libraryMd5 m extra) hfuel, Option.map_some]
  exact congrArg some (hholds.getHash extra).1

theorem fileMd5_library {path : List UInt16} (hopen : openFile path = some content) :
    fileMd5 (libraryMd5 m extra) openFile path = some (digestText content) := by
  rw [fileMd5, hopen, Option.bind_some]
  exact md5Loop_library m extra le_rfl

theorem calculate_library {h : FileInfoHandler} {fuel : ℕ} (hname : h.fileInfo.sFileFullNameValue ≠ [])
    (hopen : openFile h.fileInfo.sFileFullNameValue = some content) (hfuel : rounds content ≤ fuel) :
    calculateFileMd5ValueInfo (libraryMd5 m extra) openFile fuel h =
      some (true, setMd5Hash (digestText content) h) := by
  obtain ⟨hash, hends, htext⟩ := Option.map_eq_some_iff.mp (md5Loop_library m extra hfuel)
  rw [calculateFileMd5ValueInfo, if_neg hname]
  simp only [hopen, hends, Option.map_some, htext]

end File

section Record

variable {env : Env} {e : Upload.Element} {info : SyncUploadFileInfo}

/-- A record that is pushed for a file has the hash that its construction found. -/
theorem pushFile_md5 (henv : env.Converts e.path) (hkind : e.kind = .regular) (hpush : pushFile env e = some info) :
    info.sFileMd5ValueInfo = e.probe.md5.getD [] := by
  have hpresent : ¬ (e.path = [] ∨ e.probe.pathExists = false) := by
    intro hmissing
    rw [kind_eq_missing_iff.mpr hmissing] at hkind
    exact nomatch hkind
  have hpath : e.path ≠ [] := fun hp => hpresent (Or.inl hp)
  have hexists : ¬ e.probe.pathExists = false := fun hp => hpresent (Or.inr hp)
  obtain ⟨h, hof, rfl⟩ := Option.map_eq_some_iff.mp hpush
  simp only [FileInfoHandler.ofPath, if_neg hpresent, updateFileInfoFromFileSystem, setFileInfoPath,
    initializeDefaults, if_neg (henv hpath), if_neg hexists] at hof
  obtain ⟨h', hsize, rfl⟩ := Option.map_eq_some_iff.mp hof
  obtain ⟨size, -, rfl⟩ := Option.map_eq_some_iff.mp hsize
  rfl

end Record

/-- **The digest arrives** — for every file that can be opened, of whatever length, the loop over it ends with
the text of the RFC 1321 digest of its bytes; the record that a push of its path puts into the queue has this
text, and so has the record that is read from the buffer it is sent in. -/
theorem file_digest_arrives (m : MD5) (extra : Block) {openFile : List UInt16 → Option (List UInt8)} {env : Env}
    {e : Upload.Element} (henv : env.Converts e.path) (hkind : e.kind = .regular) {content : List UInt8}
    (hopen : openFile e.path = some content)
    (hprobe : e.probe.md5 = fileMd5 (libraryMd5 m extra) openFile e.path) {info : SyncUploadFileInfo}
    (hpush : pushFile env e = some info) (hinfo : ValidInfo info) {R : Reader} {buf : List UInt8}
    (henc : R.Encodes schemaSlots buf (toFlatBuffer env info)) :
    (∀ (h : FileInfoHandler) (fuel : ℕ), h.fileInfo.sFileFullNameValue = e.path → rounds content ≤ fuel →
      calculateFileMd5ValueInfo (libraryMd5 m extra) openFile fuel h =
        some (true, setMd5Hash (digestText content) h)) ∧
      info.sFileMd5ValueInfo = digestText content ∧
      (fromFlatBuffer R env buf).map SyncUploadFileInfo.sFileMd5ValueInfo = some (digestText content) := by
  have hrecord : info.sFileMd5ValueInfo = digestText content := by
    rw [pushFile_md5 henv hkind hpush, hprobe, fileMd5_library m extra hopen, Option.getD_some]
  refine ⟨?_, hrecord, ?_⟩
  · intro h fuel hpath hfuel
    have hname : e.path ≠ [] := by
      intro hp
      rw [kind_eq_missing_iff.mpr (Or.inl hp)] at hkind
      exact nomatch hkind
    exact calculate_library m extra (by rw [hpath]; exact hname) (by rw [hpath]; exact hopen) hfuel
  · rw [fromFlatBuffer_toFlatBuffer hinfo henc, Option.map_some, ← hrecord]
    rfl

/-- The file "f" with the bytes of "abc". -/
def abcFile : Upload.Element := ⟨[102], ⟨true, some 5, some (digestText [97, 98, 99]), [], [], 7, 9000000⟩⟩

/-- The record that a push of it puts into the queue. -/
def abcInfo : SyncUploadFileInfo :=
  { smallInfo .undefined with sFileMd5ValueInfo := digestText [97, 98, 99] }

/-- The buffer of that record. -/
def abcBuffer : List UInt8 :=
  [40, 0, 0, 0, 0, 0, 0, 0, 0, 0, 30, 0, 64, 0, 4, 0, 8, 0, 40, 0, 12, 0, 16, 0, 20, 0, 24, 0, 0, 0, 28, 0,
   48, 0, 32, 0, 36, 0, 56, 0, 30, 0, 0, 0, 6, 0, 0, 0, 104, 0, 0, 0, 92, 0, 0, 0, 80, 0, 0, 0, 68, 0, 0, 0,
   96, 0, 0, 0, 44, 0, 0, 0, 1, 0, 0, 0, 28, 0, 0, 0, 5, 0, 0, 0, 0, 0, 0, 0, 7, 0, 0, 0, 0, 0, 0, 0, 9, 0,
   0, 0, 0, 0, 0, 0, 0, 0, 0, 0, 0, 0, 0, 0, 0, 0, 0, 0, 0, 0, 0, 0, 0, 0, 0, 0, 0, 0, 0, 0, 0, 0, 0, 0, 0,
   0, 0, 0, 1, 0, 0, 0, 102, 0, 0, 0, 1, 0, 0, 0, 102, 0, 0, 0, 1, 0, 0, 0, 68, 0, 0, 0, 32, 0, 0, 0, 57, 48,
   48, 49, 53, 48, 57, 56, 51, 99, 100, 50, 52, 102, 98, 48, 100, 54, 57, 54, 51, 102, 55, 100, 50, 56, 101,
   49, 55, 102, 55, 50, 0, 0, 0, 0]

theorem abcInfo_valid : ValidInfo abcInfo where
  texts := (smallInfo_valid .undefined).texts
  lower := (smallInfo_valid .undefined).lower
  upper := (smallInfo_valid .undefined).upper

/-- An object in memory that was zero. -/
def zeroBlock : Block := ⟨List.replicate 64 0, List.length_replicate⟩

theorem file_digest_arrives_abc :
    (fromFlatBuffer Reader.wire asciiEnv abcBuffer).map SyncUploadFileInfo.sFileMd5ValueInfo =
      some (digestText [97, 98, 99]) := by
  have hprobe : abcFile.probe.md5 = fileMd5 (libraryMd5 ⟨0, 0, zeroBlock, ⟨0, 0, 0, 0⟩⟩ zeroBlock)
      (fun _ => some [97, 98, 99]) abcFile.path := (fileMd5_library _ _ rfl).symm
  have hpush : pushFile asciiEnv abcFile = some abcInfo := rfl
  exact (file_digest_arrives _ _ (asciiEnv_converts _) (by decide) rfl hprobe hpush abcInfo_valid
    (by decide +kernel)).2.2

end LuspUpload.Ipc
