import LuspUpload.Ipc.Demux

/-!
# Ipc.Redelivery — the unpack loop under a callback that throws

The `catch (...)` of the dispatch is meant for a payload that is no heartbeat message; it also takes the
exceptions of `on_message_` itself, and its handler calls `on_message_` with the same payload again.  A
second exception leaves the loop before the `erase`.  `dispatched` is the loop of `Ipc.Server` with the
deliveries kept apart frame by frame, so that frames with equal payloads are not confused.
-/

namespace LuspUpload.Ipc

open Lib

/-- The deliveries of each frame that the loop takes up, frame by frame. -/
def dispatched (isPing : List UInt8 → Bool) : ℕ → List UInt8 → List Bool → List (List Delivery)
  | 0, _, _ => []
  | rounds + 1, buffer, throws =>
    match front buffer with
    | .short => []
    | .overrun => []
    | .frame msg rest =>
      let d := dispatch isPing msg throws
      d.1 :: if d.2.2 then [] else dispatched isPing rounds rest d.2.1

/-- What is in `state->buffer` when the handler ends. -/
def Exit.left : Exit → Option (List UInt8)
  | .waiting buffer => some buffer
  | .thrown buffer => some buffer
  | .overrun => none

/-- Every frame that was taken up was delivered once at most, and exactly these frames have left the
buffer. -/
structure OnceEach (payloads : List (List UInt8)) (ds : List (List Delivery)) (exit : Exit) : Prop where
  once : ∀ d ∈ ds, d.length ≤ 1
  removed : exit.left = some ((payloads.drop ds.length).flatMap frame)

/-! ### One round -/

section Round

variable {isPing : List UInt8 → Bool} {rounds : ℕ} {buffer msg rest : List UInt8} {throws : List Bool}

/-- The deliveries of the loop are those of its frames. -/
theorem flatten_dispatched :
    (dispatched isPing rounds buffer throws).flatten = (unpackLoop isPing rounds buffer throws).1 := by
  induction rounds generalizing buffer throws with
  | zero => rfl
  | succ rounds ih =>
    rw [dispatched, unpackLoop]
    rcases front buffer with _ | ⟨msg, rest⟩ | _
    · rfl
    · by_cases hthrown : (dispatch isPing msg throws).2.2
      · simp [hthrown]
      · simp [hthrown, ih]
    · rfl

/-- A frame whose payload has a 32-bit length is taken off. -/
theorem front_whole (hmsg : msg.length < 2 ^ 32) (rest : List UInt8) :
    front (frame msg ++ rest) = .frame msg rest := by
  have hlen : leNat ((frame msg ++ rest).take 4) = msg.length := by
    rw [frame, List.append_assoc, List.take_left' (leBytes_length 4 _), Nat.mod_eq_of_lt hmsg]
    exact leNat_leBytes_of_lt (by omega)
  rw [front_of_le, hlen]
  · rw [frame, List.append_assoc, List.drop_left' (leBytes_length 4 _), List.take_left,
      ← List.append_assoc, List.drop_left']
    rw [List.length_append, leBytes_length]
  · rw [hlen, frame, List.length_append, List.length_append, leBytes_length]
    omega

theorem dispatch_message (hping : isPing msg = false) (throws : List Bool) :
    dispatch isPing msg throws = if throws.headD false then
      ([.message msg, .message msg], throws.tail.tail, throws.tail.headD false)
    else ([.message msg], throws.tail, false) := by
  rw [dispatch, if_neg (by rw [hping]; exact Bool.false_ne_true)]

/-- The callback returns: the frame is erased. -/
theorem round_returns (hmsg : msg.length < 2 ^ 32) (hping : isPing msg = false)
    (hquiet : throws.headD false = false) :
    dispatched isPing (rounds + 1) (frame msg ++ rest) throws =
        [.message msg] :: dispatched isPing rounds rest throws.tail ∧
      (unpackLoop isPing (rounds + 1) (frame msg ++ rest) throws).2.2 =
        (unpackLoop isPing rounds rest throws.tail).2.2 := by
  constructor
  · rw [dispatched, front_whole hmsg]
    simp only [dispatch_message hping, hquiet, Bool.false_eq_true, if_false]
  · rw [unpackLoop, front_whole hmsg]
    simp only [dispatch_message hping, hquiet, Bool.false_eq_true, if_false]

/-- The callback throws: the frame is delivered a second time. -/
theorem round_throws (hmsg : msg.length < 2 ^ 32) (hping : isPing msg = false)
    (hthrow : throws.headD false = true) :
    [.message msg, .message msg] ∈ dispatched isPing (rounds + 1) (frame msg ++ rest) throws := by
  rw [dispatched, front_whole hmsg]
  simp only [dispatch_message hping, hthrow, if_true]
  exact List.mem_cons_self ..

end Round

/-! ### The frames of a buffer -/

section Frames

variable {isPing : List UInt8 → Bool} {payloads : List (List UInt8)} {throws : List Bool} {rounds : ℕ}

/-- No first delivery throws. -/
def Returns (throws : List Bool) (frames : ℕ) : Prop := ∀ b ∈ throws.take frames, b = false

instance (throws : List Bool) (frames : ℕ) : Decidable (Returns throws frames) :=
  inferInstanceAs (Decidable (∀ b ∈ throws.take frames, b = false))

theorem returns_succ {frames : ℕ} :
    Returns throws (frames + 1) ↔ throws.headD false = false ∧ Returns throws.tail frames := by
  cases throws with
  | nil => simp [Returns]
  | cons b throws => simp [Returns]

/-- A callback that returns gets every frame once, and the buffer ends empty. -/
theorem frames_return (hlen : ∀ p ∈ payloads, p.length < 2 ^ 32)
    (hping : ∀ p ∈ payloads, isPing p = false) (hrounds : payloads.length ≤ rounds)
    (hreturns : Returns throws payloads.length) :
    dispatched isPing rounds (payloads.flatMap frame) throws = payloads.map ([.message ·]) ∧
      (unpackLoop isPing rounds (payloads.flatMap frame) throws).2.2 = .waiting [] := by
  induction payloads generalizing rounds throws with
  | nil =>
    have hnil : front [] = .short := rfl
    cases rounds with
    | zero => exact ⟨rfl, rfl⟩
    | succ rounds =>
      refine ⟨?_, ?_⟩
      · simp [dispatched, hnil]
      · simp [unpackLoop, hnil]
  | cons p payloads ih =>
    obtain ⟨hquiet, hrest⟩ := returns_succ.mp hreturns
    obtain ⟨rounds, rfl⟩ : ∃ n, rounds = n + 1 := ⟨rounds - 1, by rw [List.length_cons] at hrounds; omega⟩
    have hround := @round_returns isPing rounds p (payloads.flatMap frame) throws
      (hlen p (by simp)) (hping p (by simp)) hquiet
    obtain ⟨hds, hexit⟩ := ih (fun q hq => hlen q (by simp [hq])) (fun q hq => hping q (by simp [hq]))
      (Nat.le_of_succ_le_succ hrounds) hrest
    rw [List.flatMap_cons, hround.1, hround.2, hds, hexit]
    exact ⟨rfl, rfl⟩

/-- Where a first delivery throws, some frame is delivered twice. -/
theorem frames_throw (hlen : ∀ p ∈ payloads, p.length < 2 ^ 32)
    (hping : ∀ p ∈ payloads, isPing p = false) (hrounds : payloads.length ≤ rounds)
    (hthrows : ¬ Returns throws payloads.length) :
    ∃ p ∈ payloads, [.message p, .message p] ∈
      dispatched isPing rounds (payloads.flatMap frame) throws := by
  induction payloads generalizing rounds throws with
  | nil => exact absurd (by simp [Returns]) hthrows
  | cons p payloads ih =>
    obtain ⟨rounds, rfl⟩ : ∃ n, rounds = n + 1 := ⟨rounds - 1, by rw [List.length_cons] at hrounds; omega⟩
    rw [List.flatMap_cons]
    by_cases hquiet : throws.headD false = false
    · have hrest : ¬ Returns throws.tail payloads.length := fun h => hthrows (returns_succ.mpr ⟨hquiet, h⟩)
      obtain ⟨q, hq, hmem⟩ := ih (fun q hq => hlen q (by simp [hq])) (fun q hq => hping q (by simp [hq]))
        (Nat.le_of_succ_le_succ hrounds) hrest
      refine ⟨q, by simp [hq], ?_⟩
      rw [(round_returns (hlen p (by simp)) (hping p (by simp)) hquiet).1]
      exact List.mem_cons_of_mem _ hmem
    · refine ⟨p, by simp, round_throws (hlen p (by simp)) (hping p (by simp)) ?_⟩
      simpa using hquiet

/-- **Each frame once**: the loop delivers every frame at most once and erases what it delivered, if and
only if the callback returns from the first delivery of each frame. -/
theorem unpackLoop_once_iff (isPing : List UInt8 → Bool) (payloads : List (List UInt8))
    (hlen : ∀ p ∈ payloads, p.length < 2 ^ 32) (hping : ∀ p ∈ payloads, isPing p = false)
    (throws : List Bool) :
    OnceEach payloads
        (dispatched isPing (payloads.flatMap frame).length (payloads.flatMap frame) throws)
        (unpackLoop isPing (payloads.flatMap frame).length (payloads.flatMap frame) throws).2.2 ↔
      Returns throws payloads.length := by
  constructor
  · intro h
    by_contra hthrows
    obtain ⟨p, -, hmem⟩ := frames_throw hlen hping (length_le_flatMap_frame payloads) hthrows
    have htwice : 2 ≤ 1 := h.once _ hmem
    omega
  · intro hreturns
    obtain ⟨hds, hexit⟩ := frames_return hlen hping (length_le_flatMap_frame payloads) hreturns
    rw [hds, hexit]
    refine ⟨?_, ?_⟩
    · intro d hd
      obtain ⟨p, -, rfl⟩ := List.mem_map.mp hd
      exact le_rfl
    · simp [Exit.left]

/-- Two image records, and a callback that would throw on a third one. -/
theorem unpackLoop_once_images : OnceEach [imageBuffer, imageBuffer]
    (dispatched (isHeartbeatPing Reader.wire) ([imageBuffer, imageBuffer].flatMap frame).length
      ([imageBuffer, imageBuffer].flatMap frame) [false, false, true])
    (unpackLoop (isHeartbeatPing Reader.wire) ([imageBuffer, imageBuffer].flatMap frame).length
      ([imageBuffer, imageBuffer].flatMap frame) [false, false, true]).2.2 :=
  (unpackLoop_once_iff (isHeartbeatPing Reader.wire) [imageBuffer, imageBuffer] (by decide +kernel)
    (by decide +kernel) _).mpr (by decide)

/-- The callback throws on the first record and again: the record is delivered twice and stays in front of
the second one. -/
theorem callback_throws_twice :
    (∀ p ∈ [imageBuffer, imageBuffer], isHeartbeatPing Reader.wire p = false) ∧
      dispatched (isHeartbeatPing Reader.wire) ([imageBuffer, imageBuffer].flatMap frame).length
          ([imageBuffer, imageBuffer].flatMap frame) [true, true] =
        [[.message imageBuffer, .message imageBuffer]] ∧
      (unpackLoop (isHeartbeatPing Reader.wire) ([imageBuffer, imageBuffer].flatMap frame).length
          ([imageBuffer, imageBuffer].flatMap frame) [true, true]).2.2 =
        .thrown ([imageBuffer, imageBuffer].flatMap frame) ∧
      ¬ OnceEach [imageBuffer, imageBuffer]
        (dispatched (isHeartbeatPing Reader.wire) ([imageBuffer, imageBuffer].flatMap frame).length
          ([imageBuffer, imageBuffer].flatMap frame) [true, true])
        (unpackLoop (isHeartbeatPing Reader.wire) ([imageBuffer, imageBuffer].flatMap frame).length
          ([imageBuffer, imageBuffer].flatMap frame) [true, true]).2.2 := by
  have htwice : dispatched (isHeartbeatPing Reader.wire)
      ([imageBuffer, imageBuffer].flatMap frame).length ([imageBuffer, imageBuffer].flatMap frame)
      [true, true] = [[.message imageBuffer, .message imageBuffer]] := by decide +kernel
  refine ⟨by decide +kernel, htwice, by decide +kernel, ?_⟩
  intro h
  have hlength : 2 ≤ 1 := h.once [.message imageBuffer, .message imageBuffer] (by
    rw [htwice]
    exact List.mem_singleton_self _)
  omega

end Frames

end LuspUpload.Ipc
