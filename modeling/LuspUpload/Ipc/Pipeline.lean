import LuspUpload.Ipc.EndToEnd
import LuspUpload.Ipc.FileDigest
import LuspUpload.Upload.Forward

/-!
# Ipc.Pipeline — from the pushed files to the records that the server unpacks

The stages together: the UI thread pushes paths, `notificationLoop` hands their records over,
`ToFlatBuffer` and `send` put them on the wire, `on_message_` gets the payloads and `UnPack` reads them.  Each
stage runs under a schedule of its own; what links two of them is that `send` is called with the buffers of the
records, in the order in which the loop hands these over.  The verifier that `on_flatbuffer_message` asks first
is left out.
-/

namespace LuspUpload.Ipc

open Lib Upload

/-! ### `UnPack` -/

/-- `FBS_SyncUploadFileInfoT`; the enumerators by their numbers. -/
structure SyncUploadFileInfoT where
  eUploadFileTyped : ℕ
  sLanClientDevice : List UInt8
  sSyncFileSizeValue : ℕ
  sFileFullNameValue : List UInt8
  sOnlyFileNameValue : List UInt8
  sFileRecordTimeValue : List UInt8
  sFileMd5ValueInfo : List UInt8
  eFileExistPolicy : ℕ
  sAuthTokenValues : List UInt8
  uUploadTimeStamp : ℕ
  eUploadStatusInf : ℕ
  sDescriptionInfo : List UInt8
  enqueueTimeMs : ℕ
  deriving DecidableEq, Repr

/-- `FBS_SyncUploadFileInfo::UnPack`. -/
def unPack (R : Reader) (buf : List UInt8) : SyncUploadFileInfoT where
  eUploadFileTyped := R.getField buf 4 4 0
  sLanClientDevice := stringField R buf 6
  sSyncFileSizeValue := R.getField buf 8 8 0
  sFileFullNameValue := stringField R buf 10
  sOnlyFileNameValue := stringField R buf 12
  sFileRecordTimeValue := stringField R buf 14
  sFileMd5ValueInfo := stringField R buf 16
  eFileExistPolicy := R.getField buf 18 4 0
  sAuthTokenValues := stringField R buf 20
  uUploadTimeStamp := R.getField buf 22 8 0
  eUploadStatusInf := R.getField buf 24 4 0
  sDescriptionInfo := stringField R buf 26
  enqueueTimeMs := R.getField buf 28 8 0

/-- What the server is to have of a record: the UTF-16 strings as UTF-8, the time in milliseconds. -/
def received (env : Env) (info : SyncUploadFileInfo) : SyncUploadFileInfoT where
  eUploadFileTyped := info.eUploadFileTyped.toNat
  sLanClientDevice := env.toUtf8FromUtf16LE info.sLanClientDevice
  sSyncFileSizeValue := info.sSyncFileSizeValue.toNat
  sFileFullNameValue := env.toUtf8FromUtf16LE info.sFileFullNameValue
  sOnlyFileNameValue := env.toUtf8FromUtf16LE info.sOnlyFileNameValue
  sFileRecordTimeValue := info.sFileRecordTimeValue
  sFileMd5ValueInfo := info.sFileMd5ValueInfo
  eFileExistPolicy := info.eFileExistPolicy.toNat
  sAuthTokenValues := info.sAuthTokenValues
  uUploadTimeStamp := info.uUploadTimeStamp.toNat
  eUploadStatusInf := info.eUploadStatusInf.toNat
  sDescriptionInfo := env.toUtf8FromUtf16LE info.sDescriptionInfo
  enqueueTimeMs := ((info.enqueueTime.tdiv 1000000) % 2 ^ 64).toNat

section Stages

variable {env : Env} {R : Reader}

/-- `UnPack` undoes `ToFlatBuffer`. -/
theorem unPack_toFlatBuffer {info : SyncUploadFileInfo} {buf : List UInt8}
    (henc : R.Encodes schemaSlots buf (toFlatBuffer env info)) : unPack R buf = received env info := by
  obtain ⟨h6, h10, h12, h14, h16, h20, h26⟩ := toFlatBuffer_strings env info
  obtain ⟨h4, h8, h18, h22, h24, h28⟩ := toFlatBuffer_scalars env info
  have hstring : ∀ slot ∈ schemaSlots, ∀ s, (toFlatBuffer env info).at slot = some (.text s) →
      stringField R buf slot = s := by
    intro slot hslot s hs
    rw [stringField, henc.text hslot hs, Option.getD_some]
  have htyped : info.eUploadFileTyped.toNat < 256 ^ 4 := by cases info.eUploadFileTyped <;> decide
  have hpolicy : info.eFileExistPolicy.toNat < 256 ^ 4 := by cases info.eFileExistPolicy <;> decide
  have hstatus : info.eUploadStatusInf.toNat < 256 ^ 4 := by cases info.eUploadStatusInf <;> decide
  have htime : ((info.enqueueTime.tdiv 1000000) % 2 ^ 64).toNat < 256 ^ 8 := by omega
  unfold unPack
  rw [henc.getField (by decide) (by decide) h4 htyped (by decide),
    henc.getField (by decide) (by decide) h8 info.sSyncFileSizeValue.toNat_lt (by decide),
    henc.getField (by decide) (by decide) h18 hpolicy (by decide),
    henc.getField (by decide) (by decide) h22 info.uUploadTimeStamp.toNat_lt (by decide),
    henc.getField (by decide) (by decide) h24 hstatus (by decide),
    henc.getField (by decide) (by decide) h28 htime (by decide),
    hstring 6 (by decide) _ h6, hstring 10 (by decide) _ h10, hstring 12 (by decide) _ h12,
    hstring 14 (by decide) _ h14, hstring 16 (by decide) _ h16, hstring 20 (by decide) _ h20,
    hstring 26 (by decide) _ h26]
  rfl

/-- Buffers are unpacked one by one. -/
theorem unPack_buffers {build : SyncUploadFileInfo → List UInt8} {infos : List SyncUploadFileInfo}
    (hbuild : ∀ info ∈ infos, R.Encodes schemaSlots (build info) (toFlatBuffer env info)) :
    (infos.map build).map (unPack R) = infos.map (received env) := by
  rw [List.map_map]
  refine List.map_congr_left ?_
  intro info hinfo
  exact unPack_toFlatBuffer (hbuild info hinfo)

end Stages

/-- The steps that send the buffer of "abc" in one piece. -/
def abcActs : List Wire.Act :=
  [.client (.send abcBuffer true), .client .notify, .client .notify, .client .notify, .client .notify,
    .transfer 0 204, .complete 0 .sent, .client .io, .client .io, .client .io, .client .io, .client .io,
    .client .io]

/-- The file is pushed while the loop sleeps. -/
def abcMoves : List NotificationService.Move :=
  List.replicate 4 .loop ++ List.replicate 7 .ui ++ List.replicate 13 .loop

end LuspUpload.Ipc
