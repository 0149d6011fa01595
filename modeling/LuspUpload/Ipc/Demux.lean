import LuspUpload.Ipc.Server
import LuspUpload.Lib.FlatTable
import LuspUpload.Upload.FileInfo
import Mathlib.Algebra.Ring.Int.Defs

/-!
# Ipc.Demux — two root tables on one stream

The client sends upload records (`ToFlatBuffer`) and heartbeats (`send_heartbeat_ping`) as frames of one
stream, without a type tag.  The server reads every payload as a heartbeat first: slot 4, one byte.  In
a heartbeat that is the type, PING when absent; in an upload record it is the low byte of the file
type.  A document has file type 0, so its record reads as a PING.

FlatBuffers itself is a parameter: a `Reader`, and buffers that encode the tables of the generated code.
-/

namespace LuspUpload.Ipc

open Lib Upload

/-! ### The tables of the generated code -/

/-- The vtable slots of the two tables. -/
def schemaSlots : List ℕ := [4, 6, 8, 10, 12, 14, 16, 18, 20, 22, 24, 26, 28]

/-- `ToFlatBuffer`: the calls of `CreateFBS_SyncUploadFileInfo` in their order. -/
def toFlatBuffer (env : Env) (info : SyncUploadFileInfo) : Table :=
  -- `duration_cast` to milliseconds truncates toward zero; the count becomes a `uint64_t`
  let enqueueMs := ((info.enqueueTime.tdiv 1000000) % 2 ^ 64).toNat
  addElement 28 8 enqueueMs 0 ++
  addElement 22 8 info.uUploadTimeStamp.toNat 0 ++
  addElement 8 8 info.sSyncFileSizeValue.toNat 0 ++
  addOffset 26 (env.toUtf8FromUtf16LE info.sDescriptionInfo) ++
  addElement 24 4 info.eUploadStatusInf.toNat 0 ++
  addOffset 20 info.sAuthTokenValues ++
  addElement 18 4 info.eFileExistPolicy.toNat 0 ++
  addOffset 16 info.sFileMd5ValueInfo ++
  addOffset 14 info.sFileRecordTimeValue ++
  addOffset 12 (env.toUtf8FromUtf16LE info.sOnlyFileNameValue) ++
  addOffset 10 (env.toUtf8FromUtf16LE info.sFileFullNameValue) ++
  addOffset 6 (env.toUtf8FromUtf16LE info.sLanClientDevice) ++
  addElement 4 4 info.eUploadFileTyped.toNat 0

section Slots

variable (env : Env) (info : SyncUploadFileInfo)

/-- The strings of an upload record, each in its slot. -/
theorem toFlatBuffer_strings :
    (toFlatBuffer env info).at 6 = some (.text (env.toUtf8FromUtf16LE info.sLanClientDevice)) ∧
    (toFlatBuffer env info).at 10 = some (.text (env.toUtf8FromUtf16LE info.sFileFullNameValue)) ∧
    (toFlatBuffer env info).at 12 = some (.text (env.toUtf8FromUtf16LE info.sOnlyFileNameValue)) ∧
    (toFlatBuffer env info).at 14 = some (.text info.sFileRecordTimeValue) ∧
    (toFlatBuffer env info).at 16 = some (.text info.sFileMd5ValueInfo) ∧
    (toFlatBuffer env info).at 20 = some (.text info.sAuthTokenValues) ∧
    (toFlatBuffer env info).at 26 = some (.text (env.toUtf8FromUtf16LE info.sDescriptionInfo)) := by
  simp only [toFlatBuffer, Table.at_or]
  refine ⟨?_, ?_, ?_, ?_, ?_, ?_, ?_⟩
  all_goals simp [Table.at_addElement_of_ne, Table.at_addOffset_of_ne, Table.at_addOffset]

/-- The scalars, each in its slot or left out. -/
theorem toFlatBuffer_scalars :
    (toFlatBuffer env info).at 4 = (addElement 4 4 info.eUploadFileTyped.toNat 0).at 4 ∧
    (toFlatBuffer env info).at 8 = (addElement 8 8 info.sSyncFileSizeValue.toNat 0).at 8 ∧
    (toFlatBuffer env info).at 18 = (addElement 18 4 info.eFileExistPolicy.toNat 0).at 18 ∧
    (toFlatBuffer env info).at 22 = (addElement 22 8 info.uUploadTimeStamp.toNat 0).at 22 ∧
    (toFlatBuffer env info).at 24 = (addElement 24 4 info.eUploadStatusInf.toNat 0).at 24 ∧
    (toFlatBuffer env info).at 28 =
      (addElement 28 8 ((info.enqueueTime.tdiv 1000000) % 2 ^ 64).toNat 0).at 28 := by
  simp only [toFlatBuffer, Table.at_or]
  refine ⟨?_, ?_, ?_, ?_, ?_, ?_⟩
  all_goals simp [Table.at_addElement_of_ne, Table.at_addOffset_of_ne]

end Slots

/-- `FBS_HeartbeatType`. -/
inductive HeartbeatType where
  | ping | pong
  deriving DecidableEq, Repr

def HeartbeatType.toNat : HeartbeatType → ℕ
  | ping => 0
  | pong => 1

/-- `CreateFBS_HeartbeatMessage`. -/
def heartbeatTable (type : HeartbeatType) (sequence : UInt32) (timestamp : UInt64)
    (clientName clientVersion payload : List UInt8) : Table :=
  addElement 8 8 timestamp.toNat 0 ++
  addOffset 14 payload ++
  addOffset 12 clientVersion ++
  addOffset 10 clientName ++
  addElement 6 4 sequence.toNat 0 ++
  addElement 4 1 type.toNat 0

/-- What a client sends. -/
inductive Outgoing where
  | upload (info : SyncUploadFileInfo)
  | ping (sequence : UInt32) (timestamp : UInt64) (clientName clientVersion : List UInt8)
  deriving DecidableEq, Repr

/-- Its table. -/
def Outgoing.table (env : Env) : Outgoing → Table
  | upload info => toFlatBuffer env info
  | ping sequence timestamp clientName clientVersion =>
    heartbeatTable .ping sequence timestamp clientName clientVersion []

/-- Where its payload belongs. -/
def Outgoing.belongs (payload : List UInt8) : Outgoing → Delivery
  | upload _ => .message payload
  | ping .. => .ping payload

/-- An upload record of a document. -/
def Outgoing.IsDocument : Outgoing → Prop
  | upload info => info.eUploadFileTyped = .document
  | ping .. => False

instance : ∀ out : Outgoing, Decidable out.IsDocument
  | .upload _ => inferInstanceAs (Decidable (_ = _))
  | .ping .. => inferInstanceAs (Decidable False)

/-! ### The server's test -/

/-- `heartbeat_msg->type() == PING` on an unverified payload. -/
def isHeartbeatPing (R : Reader) (payload : List UInt8) : Bool :=
  R.getField payload 4 1 0 == HeartbeatType.ping.toNat

section Test

variable {R : Reader} {env : Env} {payload : List UInt8}

/-- Slot 4 of an upload record, read as a heartbeat type, is the file type. -/
theorem getField_upload {info : SyncUploadFileInfo}
    (h : R.Encodes schemaSlots payload (toFlatBuffer env info)) :
    R.getField payload 4 1 0 = info.eUploadFileTyped.toNat := by
  have hfind := h 4 (by decide)
  rw [(toFlatBuffer_scalars env info).1] at hfind
  rw [Reader.getField_addElement hfind (by decide) (by decide) (by decide)]
  cases info.eUploadFileTyped <;> rfl

/-- Slot 4 of a PING is 0, absent or not. -/
theorem getField_ping {sequence : UInt32} {timestamp : UInt64} {clientName clientVersion : List UInt8}
    (h : R.Encodes schemaSlots payload
      (heartbeatTable .ping sequence timestamp clientName clientVersion [])) :
    R.getField payload 4 1 0 = 0 := by
  have hat : (heartbeatTable .ping sequence timestamp clientName clientVersion []).at 4 =
      (addElement 4 1 HeartbeatType.ping.toNat 0).at 4 := by
    simp [heartbeatTable, Table.at_or, Table.at_addElement_of_ne, Table.at_addOffset_of_ne]
  exact h.getField (by decide) (by decide) hat (by decide) (by decide)

theorem toNat_eq_zero {type : UploadFileTyped} : type.toNat = 0 ↔ type = .document := by
  cases type <;> decide

/-- The test is right about everything but documents. -/
theorem deliver_iff {out : Outgoing} (h : R.Encodes schemaSlots payload (out.table env)) :
    deliver (isHeartbeatPing R) payload = out.belongs payload ↔ ¬ out.IsDocument := by
  cases out with
  | upload info =>
    have hfield := getField_upload h
    rw [deliver, isHeartbeatPing, hfield]
    simp [Outgoing.belongs, Outgoing.IsDocument, HeartbeatType.toNat, toNat_eq_zero]
  | ping sequence timestamp clientName clientVersion =>
    have hfield := getField_ping h
    rw [deliver, isHeartbeatPing, hfield]
    simp [Outgoing.belongs, Outgoing.IsDocument, HeartbeatType.toNat]

end Test

/-! ### Sample buffers -/

/-- A small upload record. -/
def smallInfo (type : UploadFileTyped) : SyncUploadFileInfo :=
  { eUploadFileTyped := type
    sLanClientDevice := [68]
    sSyncFileSizeValue := 5
    sFileFullNameValue := [102]
    sOnlyFileNameValue := [102]
    sFileRecordTimeValue := []
    sFileMd5ValueInfo := []
    eFileExistPolicy := .overwrite
    sAuthTokenValues := []
    uUploadTimeStamp := 7
    eUploadStatusInf := .pending
    sDescriptionInfo := []
    enqueueTime := 9000000 }

/-- The buffer of an image record in the binary format. -/
def imageBuffer : List UInt8 :=
   [40, 0, 0, 0, 0, 0, 0, 0, 0, 0, 30, 0, 64, 0, 4, 0, 8, 0, 40, 0, 12, 0, 16, 0, 20, 0, 24, 0,
     0, 0, 28, 0, 48, 0, 32, 0, 36, 0, 56, 0, 30, 0, 0, 0, 1, 0, 0, 0, 104, 0, 0, 0, 92, 0, 0,
     0, 80, 0, 0, 0, 68, 0, 0, 0, 56, 0, 0, 0, 44, 0, 0, 0, 1, 0, 0, 0, 28, 0, 0, 0, 5, 0, 0,
     0, 0, 0, 0, 0, 7, 0, 0, 0, 0, 0, 0, 0, 9, 0, 0, 0, 0, 0, 0, 0, 0, 0, 0, 0, 0, 0, 0, 0, 0,
     0, 0, 0, 0, 0, 0, 0, 0, 0, 0, 0, 0, 0, 0, 0, 0, 0, 0, 0, 0, 0, 0, 0, 1, 0, 0, 0, 102, 0,
     0, 0, 1, 0, 0, 0, 102, 0, 0, 0, 1, 0, 0, 0, 68, 0, 0, 0]

/-- The buffer of a PING: slot 4 is absent, for the type is its default. -/
def pingBuffer : List UInt8 :=
   [20, 0, 0, 0, 16, 0, 28, 0, 0, 0, 4, 0, 20, 0, 8, 0, 12, 0, 16, 0, 16, 0, 0, 0, 1, 0, 0, 0,
     36, 0, 0, 0, 24, 0, 0, 0, 12, 0, 0, 0, 9, 0, 0, 0, 0, 0, 0, 0, 0, 0, 0, 0, 0, 0, 0, 0,
     1, 0, 0, 0, 49, 0, 0, 0, 1, 0, 0, 0, 67, 0, 0, 0]

example : Reader.wire.Encodes schemaSlots pingBuffer (heartbeatTable .ping 1 9 [67] [49] []) := by
  decide +kernel

/-- The buffer of the same record of a document: slot 4 is absent. -/
def documentBuffer : List UInt8 :=
   [36, 0, 0, 0, 0, 0, 30, 0, 60, 0, 0, 0, 4, 0, 36, 0, 8, 0, 12, 0, 16, 0, 20, 0, 0, 0, 24, 0,
     44, 0, 28, 0, 32, 0, 52, 0, 30, 0, 0, 0, 104, 0, 0, 0, 92, 0, 0, 0, 80, 0, 0, 0, 68, 0, 0,
     0, 56, 0, 0, 0, 44, 0, 0, 0, 1, 0, 0, 0, 28, 0, 0, 0, 5, 0, 0, 0, 0, 0, 0, 0, 7, 0, 0, 0,
     0, 0, 0, 0, 9, 0, 0, 0, 0, 0, 0, 0, 0, 0, 0, 0, 0, 0, 0, 0, 0, 0, 0, 0, 0, 0, 0, 0, 0, 0,
     0, 0, 0, 0, 0, 0, 0, 0, 0, 0, 0, 0, 0, 0, 1, 0, 0, 0, 102, 0, 0, 0, 1, 0, 0, 0, 102, 0, 0,
     0, 1, 0, 0, 0, 68, 0, 0, 0]

/-! ### One frame -/

/-- **Demultiplexing**: a payload that arrives as one frame goes where it belongs exactly when it is not
the record of a document. -/
theorem receive_belongs_iff (R : Reader) (env : Env) (out : Outgoing) (payload : List UInt8)
    (henc : R.Encodes schemaSlots payload (out.table env)) (hpay : Framable payload)
    (chunks : List (List UInt8)) (hchunks : chunks.flatten = frame payload) :
    receive (isHeartbeatPing R) chunks [] [] = ([out.belongs payload], [], .waiting []) ↔
      ¬ out.IsDocument := by
  rw [receive_frame hpay hchunks, ← deliver_iff henc]
  simp

/-- The image record goes to the callback, its frame cut in two. -/
theorem receive_image : receive (isHeartbeatPing Reader.wire)
    [(frame imageBuffer).take 3, (frame imageBuffer).drop 3] [] [] =
      ([.message imageBuffer], [], .waiting []) :=
  (receive_belongs_iff Reader.wire asciiEnv (.upload (smallInfo .image)) imageBuffer
    (by decide +kernel) (by decide +kernel) _ (by simp)).mpr (by decide)

/-- The document record is answered as a heartbeat. -/
theorem receive_document :
    Reader.wire.Encodes schemaSlots documentBuffer
      ((Outgoing.upload (smallInfo .document)).table asciiEnv) ∧
    Framable documentBuffer ∧
    receive (isHeartbeatPing Reader.wire) [frame documentBuffer] [] [] =
      ([.ping documentBuffer], [], .waiting []) := by
  have hpay : Framable documentBuffer := by decide +kernel
  refine ⟨by decide +kernel, hpay, ?_⟩
  rw [receive_frame hpay (by simp)]
  decide +kernel

end LuspUpload.Ipc
