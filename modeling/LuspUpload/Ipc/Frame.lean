import LuspUpload.Lib.Deframe
import LuspUpload.Lib.LeBytes

/-!
# Ipc.Frame — length-prefixed frames

The client's `do_send_from_queue` writes a 4-byte little-endian length and the payload; the server's
`do_read` takes frames off its buffer.  Both lengths are `uint32_t`: the encoder truncates the payload's
length, and `4 + msg_len` on the server wraps, so that a length prefix of `2 ^ 32 - 4` or more passes
the test although the buffer does not hold the frame (`Front.overrun`).
-/

namespace LuspUpload.Ipc

open Lib

/-- The frame of a payload as `do_send_from_queue` writes it. -/
def frame (payload : List UInt8) : List UInt8 := leBytes 4 (payload.length % 2 ^ 32) ++ payload

/-- What the unpack loop finds at the front of `state->buffer`. -/
inductive Front where
  | short
  | frame (msg rest : List UInt8)
  | overrun
  deriving DecidableEq, Repr

/-- The tests of one round of the unpack loop. -/
def front (buffer : List UInt8) : Front :=
  if buffer.length < 4 then .short
  else
    let msgLen := leNat (buffer.take 4)
    -- `4 + msg_len` is a `uint32_t`
    if buffer.length < (4 + msgLen) % 2 ^ 32 then .short
    else if buffer.length < 4 + msgLen then .overrun
    else .frame ((buffer.drop 4).take msgLen) (buffer.drop (4 + msgLen))

/-- The payload can be framed: its frame is shorter than `2 ^ 32` bytes. -/
def Framable (payload : List UInt8) : Prop := payload.length < 2 ^ 32 - 4

instance (payload : List UInt8) : Decidable (Framable payload) := inferInstanceAs (Decidable (_ < _))

/-! ### One round -/

section Front

variable {buffer msg rest : List UInt8}

theorem front_frame (h : front buffer = .frame msg rest) :
    4 + leNat (buffer.take 4) ≤ buffer.length ∧ msg = (buffer.drop 4).take (leNat (buffer.take 4)) ∧
      rest = buffer.drop (4 + leNat (buffer.take 4)) := by
  simp only [front] at h
  split_ifs at h
  obtain ⟨rfl, rfl⟩ := Front.frame.inj h
  exact ⟨by omega, rfl, rfl⟩

theorem front_of_le (h : 4 + leNat (buffer.take 4) ≤ buffer.length) :
    front buffer = .frame ((buffer.drop 4).take (leNat (buffer.take 4)))
      (buffer.drop (4 + leNat (buffer.take 4))) := by
  have hmod := Nat.mod_le (4 + leNat (buffer.take 4)) (2 ^ 32)
  unfold front
  rw [if_neg (by omega)]
  simp only
  rw [if_neg (by omega), if_neg (by omega)]

/-- Taking a frame off shortens the buffer. -/
theorem front_shorter (h : front buffer = .frame msg rest) : rest.length < buffer.length := by
  obtain ⟨hle, -, rfl⟩ := front_frame h
  rw [List.length_drop]
  omega

/-- More input does not change the frame at the front. -/
theorem front_append (h : front buffer = .frame msg rest) (more : List UInt8) :
    front (buffer ++ more) = .frame msg (rest ++ more) := by
  obtain ⟨hle, rfl, rfl⟩ := front_frame h
  have htake : (buffer ++ more).take 4 = buffer.take 4 := List.take_append_of_le_length (by omega)
  rw [front_of_le (by rw [htake, List.length_append]; omega), htake,
    List.drop_append_of_le_length (by omega), List.drop_append_of_le_length (by omega),
    List.take_append_of_le_length (by rw [List.length_drop]; omega)]

/-- The unpack loop as an incremental parser. -/
def framer : Framer UInt8 (List UInt8) where
  next buffer :=
    match front buffer with
    | .frame msg rest => some (msg, rest)
    | _ => none
  shorter := by
    intro b x r h
    split at h
    · next heq =>
      obtain ⟨rfl, rfl⟩ := Prod.mk.inj (Option.some.inj h)
      exact front_shorter heq
    · simp at h
  stable := by
    intro b x r h c
    split at h
    · next heq =>
      obtain ⟨rfl, rfl⟩ := Prod.mk.inj (Option.some.inj h)
      simp only [front_append heq c]
    · simp at h

end Front

/-! ### Frames -/

section Frames

variable {payload : List UInt8}

/-- A frame is longer than nothing, whatever its payload. -/
theorem length_le_flatMap_frame (payloads : List (List UInt8)) :
    payloads.length ≤ (payloads.flatMap frame).length := by
  induction payloads with
  | nil => simp
  | cons p payloads ih =>
    rw [List.flatMap_cons, List.length_append, List.length_cons, frame, List.length_append,
      leBytes_length]
    omega

theorem frame_of_framable (h : Framable payload) :
    frame payload = leBytes 4 payload.length ++ payload := by
  unfold Framable at h
  rw [frame, Nat.mod_eq_of_lt (by omega)]

theorem length_frame (h : Framable payload) : (frame payload).length = 4 + payload.length := by
  rw [frame_of_framable h, List.length_append, leBytes_length]

theorem leNat_frame (h : Framable payload) (rest : List UInt8) :
    leNat ((frame payload ++ rest).take 4) = payload.length := by
  rw [frame_of_framable h, List.append_assoc, List.take_left' (by simp)]
  unfold Framable at h
  exact leNat_leBytes_of_lt (by omega)

/-- A whole frame is taken off. -/
theorem front_complete (h : Framable payload) (rest : List UInt8) :
    front (frame payload ++ rest) = .frame payload rest := by
  have hlen := leNat_frame h rest
  rw [front_of_le (by rw [hlen, List.length_append, length_frame h]; omega), hlen,
    frame_of_framable h, List.append_assoc, List.drop_left' (by simp), List.take_left,
    ← List.append_assoc, List.drop_left' (by simp)]

/-- Of a cut frame nothing is taken off. -/
theorem front_partly (h : Framable payload) {t : ℕ} (ht : t < (frame payload).length) :
    front ((frame payload).take t) = .short := by
  have hlen : ((frame payload).take t).length = t := by
    rw [List.length_take]
    omega
  unfold front
  by_cases h4 : t < 4
  · rw [hlen, if_pos h4]
  · have hval : leNat (((frame payload).take t).take 4) = payload.length := by
      rw [List.take_take, Nat.min_eq_left (by omega)]
      have := leNat_frame h []
      rwa [List.append_nil] at this
    have hmod : (4 + payload.length) % 2 ^ 32 = 4 + payload.length := by
      unfold Framable at h
      exact Nat.mod_eq_of_lt (by omega)
    rw [length_frame h] at ht
    simp only [hlen, hval, hmod]
    rw [if_neg h4, if_pos ht]

/-- The server's loop undoes the client's framing. -/
theorem framer_undoes : framer.Undoes frame Framable where
  complete payload h rest := by simp only [framer, front_complete h]
  partly payload h t ht := by simp only [framer, front_partly h ht]

end Frames

end LuspUpload.Ipc
