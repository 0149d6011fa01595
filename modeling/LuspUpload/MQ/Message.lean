import LuspUpload.Lib.LeBytes

/-!
# MQ.Message — the message record and its codec

`IpcMessage`, `serialize_message` and `deserialize_message` of `PersistentMessageQueue`.  A record is a
24-byte header (id 8, timestamp 8, priority 4, data_size 4, little-endian) followed by the payload.
`data_size` is a `uint32_t`, so the codec is a round trip for payloads shorter than `2 ^ 32` and the
record size fits the `uint32_t` of an index entry when the payload is shorter than `2 ^ 32 - 24`.
-/

namespace LuspUpload.MQ

open Lib

/-- A queued message: unique id, timestamp in ms, priority (0 is highest) and payload. -/
structure IpcMessage where
  id : UInt64
  timestamp : UInt64
  priority : UInt32
  data : List UInt8
  deriving DecidableEq, Repr

/-- Size of the fixed record header: id(8) + timestamp(8) + priority(4) + data_size(4). -/
def HEADER_SIZE : ℕ := 24

/-- `serialize_message`: the header and `data_size` bytes of payload. -/
def serializeMessage (message : IpcMessage) : List UInt8 :=
  let dataSize := message.data.length % 2 ^ 32
  leBytes 8 message.id.toNat ++ leBytes 8 message.timestamp.toNat ++
    leBytes 4 message.priority.toNat ++ leBytes 4 dataSize ++ message.data.take dataSize

/-- `deserialize_message`: `none` on a short buffer or a length mismatch. -/
def deserializeMessage (data : List UInt8) : Option IpcMessage :=
  if data.length < HEADER_SIZE then none
  else
    let id := leNat (data.take 8)
    let timestamp := leNat ((data.drop 8).take 8)
    let priority := leNat ((data.drop 16).take 4)
    let dataSize := leNat ((data.drop 20).take 4)
    if HEADER_SIZE + dataSize ≠ data.length then none
    else some ⟨.ofNat id, .ofNat timestamp, .ofNat priority, data.drop HEADER_SIZE⟩

/-- The payload is short enough for the `uint32_t` record size. -/
def IpcMessage.Fits (m : IpcMessage) : Prop := m.data.length < 2 ^ 32 - 24

instance (m : IpcMessage) : Decidable m.Fits := inferInstanceAs (Decidable (_ < _))

/-- The number of bytes of the record of `m`. -/
def recordSize (m : IpcMessage) : ℕ := HEADER_SIZE + m.data.length

theorem serializeMessage_of_fits {m : IpcMessage} (h : m.Fits) :
    serializeMessage m = leBytes 8 m.id.toNat ++ leBytes 8 m.timestamp.toNat ++
      leBytes 4 m.priority.toNat ++ leBytes 4 m.data.length ++ m.data := by
  have hlt : m.data.length % 2 ^ 32 = m.data.length := Nat.mod_eq_of_lt (by unfold IpcMessage.Fits at h; omega)
  simp only [serializeMessage, hlt, List.take_length]

theorem length_serializeMessage {m : IpcMessage} (h : m.Fits) :
    (serializeMessage m).length = recordSize m := by
  rw [serializeMessage_of_fits h]
  simp only [List.length_append, leBytes_length, recordSize, HEADER_SIZE]

theorem recordSize_lt {m : IpcMessage} (h : m.Fits) : recordSize m < 2 ^ 32 := by
  unfold IpcMessage.Fits at h
  unfold recordSize HEADER_SIZE
  omega

theorem recordSize_pos (m : IpcMessage) : 0 < recordSize m := by
  unfold recordSize HEADER_SIZE
  omega

/-! ### Reading the header back -/

section Header

variable {m : IpcMessage}

/-- The `data_size` field of a record, whatever follows the record. -/
theorem dataSize_serializeMessage (h : m.Fits) (rest : List UInt8) :
    leNat ((((serializeMessage m) ++ rest).drop 20).take 4) = m.data.length := by
  have hsplit : serializeMessage m ++ rest = (leBytes 8 m.id.toNat ++ leBytes 8 m.timestamp.toNat ++
      leBytes 4 m.priority.toNat) ++ (leBytes 4 m.data.length ++ (m.data ++ rest)) := by
    rw [serializeMessage_of_fits h]
    simp only [List.append_assoc]
  rw [hsplit, List.drop_left' (by simp), List.take_left' (by simp)]
  exact leNat_leBytes_of_lt (by unfold IpcMessage.Fits at h; omega)

/-- The four fields and a payload of the length that the last of them gives. -/
theorem deserializeMessage_fields (id timestamp : UInt64) (priority : UInt32) {body : List UInt8}
    (hb : body.length < 2 ^ 32) :
    deserializeMessage (leBytes 8 id.toNat ++ leBytes 8 timestamp.toNat ++ leBytes 4 priority.toNat ++
      leBytes 4 body.length ++ body) = some ⟨id, timestamp, priority, body⟩ := by
  set buf := leBytes 8 id.toNat ++ leBytes 8 timestamp.toNat ++ leBytes 4 priority.toNat ++
    leBytes 4 body.length ++ body with hbuf
  have hlen : buf.length = HEADER_SIZE + body.length := by
    rw [hbuf]
    simp only [List.length_append, leBytes_length, HEADER_SIZE]
  have hid : leNat (buf.take 8) = id.toNat := by
    rw [hbuf]
    simp only [List.append_assoc]
    rw [List.take_left' (by simp)]
    exact leNat_leBytes_of_lt id.toNat_lt
  have hts : leNat ((buf.drop 8).take 8) = timestamp.toNat := by
    rw [hbuf]
    simp only [List.append_assoc]
    rw [List.drop_left' (by simp), List.take_left' (by simp)]
    exact leNat_leBytes_of_lt timestamp.toNat_lt
  have hpr : leNat ((buf.drop 16).take 4) = priority.toNat := by
    rw [hbuf, List.append_assoc, List.append_assoc, List.drop_left' (by simp),
      List.take_left' (by simp)]
    exact leNat_leBytes_of_lt priority.toNat_lt
  have hds : leNat ((buf.drop 20).take 4) = body.length := by
    rw [hbuf, List.append_assoc, List.drop_left' (by simp), List.take_left' (by simp)]
    exact leNat_leBytes_of_lt (by omega)
  have hbody : buf.drop HEADER_SIZE = body := by
    rw [hbuf]
    exact List.drop_left' (by simp [HEADER_SIZE])
  simp [deserializeMessage, hid, hts, hpr, hds, hlen, hbody]

/-- A header whose `data_size` field is that of `m` and a body of that length decode to `m` with the
body as payload. -/
theorem deserializeMessage_header (h : m.Fits) {body : List UInt8}
    (hb : body.length = m.data.length) :
    deserializeMessage ((serializeMessage m).take HEADER_SIZE ++ body) = some { m with data := body } := by
  have hhead : (serializeMessage m).take HEADER_SIZE = leBytes 8 m.id.toNat ++
      leBytes 8 m.timestamp.toNat ++ leBytes 4 m.priority.toNat ++ leBytes 4 body.length := by
    rw [serializeMessage_of_fits h, hb]
    exact List.take_left' (by simp [HEADER_SIZE])
  rw [hhead]
  exact deserializeMessage_fields _ _ _ (by unfold IpcMessage.Fits at h; omega)

end Header

/-- **Record round trip.** -/
theorem deserializeMessage_serializeMessage {m : IpcMessage} (h : m.Fits) :
    deserializeMessage (serializeMessage m) = some m := by
  have hbody : (serializeMessage m).drop HEADER_SIZE = m.data := by
    rw [serializeMessage_of_fits h]
    exact List.drop_left' (by simp [HEADER_SIZE])
  have := deserializeMessage_header h rfl
  rwa [← hbody, List.take_append_drop, hbody] at this

end LuspUpload.MQ
