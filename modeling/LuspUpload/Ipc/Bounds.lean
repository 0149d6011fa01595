import LuspUpload.Ipc.Server

/-!
# Ipc.Bounds — the unpack loop on any bytes

Nothing is known about the sender: the stream is any list of bytes, cut into reads in any way, and the
callback may throw.  The completeness test of the loop adds `4 + msg_len` in 32 bits and the slices
add it in 64, so the two agree for every length but the last four.  A round leaves the buffer exactly when
such a length stands where the loop looks for one.
-/

namespace LuspUpload.Ipc

open Lib

/-- No round of the unpack loop uses an iterator beyond the end of the buffer, however the stream is cut
into reads, whatever counts as a PING and whatever the callback throws. -/
def StaysInBounds (stream : List UInt8) : Prop :=
  ∀ isPing throws chunks, chunks.flatten = stream → (receive isPing chunks [] throws).2.2 ≠ .overrun

/-- Every length prefix at a frame boundary of the stream is below `2 ^ 32 - 4`. -/
def PrefixesFit (stream : List UInt8) : Prop :=
  ∀ (payloads : List (List UInt8)) (rest : List UInt8), (∀ p ∈ payloads, Framable p) →
    stream = payloads.flatMap frame ++ rest → 4 ≤ rest.length → leNat (rest.take 4) < 2 ^ 32 - 4

/-! ### One round -/

section Round

variable {buffer msg rest later : List UInt8}

theorem leNat_prefix_lt (h : 4 ≤ buffer.length) : leNat (buffer.take 4) < 2 ^ 32 := by
  have := leNat_lt (buffer.take 4)
  rwa [List.length_take, Nat.min_eq_left h] at this

/-- The test and the slices disagree only about the last four lengths. -/
theorem front_overrun (h : front buffer = .overrun) :
    4 ≤ buffer.length ∧ 2 ^ 32 - 4 ≤ leNat (buffer.take 4) := by
  unfold front at h
  by_cases h4 : buffer.length < 4
  · rw [if_pos h4] at h
    exact absurd h (by simp)
  · rw [if_neg h4] at h
    refine ⟨by omega, ?_⟩
    by_contra hsmall
    have hmod : (4 + leNat (buffer.take 4)) % 2 ^ 32 = 4 + leNat (buffer.take 4) :=
      Nat.mod_eq_of_lt (by omega)
    simp only [hmod] at h
    split_ifs at h

/-- A prefix of such a length with nothing behind it. -/
theorem front_hostile (h4 : buffer.length = 4) (h : 2 ^ 32 - 4 ≤ leNat (buffer.take 4)) :
    front buffer = .overrun := by
  have hlt := @leNat_prefix_lt buffer (by omega)
  have hwrap : (4 + leNat (buffer.take 4)) % 2 ^ 32 < 4 := by
    rw [Nat.mod_eq_sub_mod (by omega), Nat.mod_eq_of_lt (by omega)]
    omega
  unfold front
  rw [if_neg (by omega)]
  simp only
  rw [if_neg (by omega), if_pos (by omega)]

/-- A frame that is taken off a fitting prefix is the frame of its payload. -/
theorem front_splits (h : front buffer = .frame msg rest) (hfit : leNat (buffer.take 4) < 2 ^ 32 - 4) :
    Framable msg ∧ buffer = frame msg ++ rest := by
  obtain ⟨hle, rfl, rfl⟩ := front_frame h
  set msgLen := leNat (buffer.take 4) with hlen
  have hmsg : ((buffer.drop 4).take msgLen).length = msgLen := by
    rw [List.length_take, List.length_drop]
    omega
  have hframable : Framable ((buffer.drop 4).take msgLen) := by
    unfold Framable
    omega
  have hhead : leBytes 4 msgLen = buffer.take 4 := by
    have := leBytes_leNat (buffer.take 4)
    rwa [List.length_take, Nat.min_eq_left (by omega)] at this
  refine ⟨hframable, ?_⟩
  rw [frame_of_framable hframable, hmsg, hhead, List.append_assoc, ← List.drop_drop,
    List.take_append_drop, List.take_append_drop]

theorem PrefixesFit.here (h : PrefixesFit (buffer ++ later)) (h4 : 4 ≤ buffer.length) :
    leNat (buffer.take 4) < 2 ^ 32 - 4 := by
  have := h [] (buffer ++ later) (by simp) rfl (by rw [List.length_append]; omega)
  rwa [List.take_append_of_le_length h4] at this

theorem PrefixesFit.next (h : PrefixesFit (frame msg ++ rest)) (hmsg : Framable msg) :
    PrefixesFit rest := by
  intro payloads tail hpay htail
  refine h (msg :: payloads) tail ?_ ?_
  · intro p hp
    rcases List.mem_cons.mp hp with rfl | hp
    · exact hmsg
    · exact hpay p hp
  · rw [List.flatMap_cons, List.append_assoc, ← htail]

end Round

/-! ### The loop -/

section Loop

variable {isPing : List UInt8 → Bool}

/-- The loop on a fitting stream: it stays inside the buffer, and what it leaves fits as well. -/
theorem unpackLoop_inBounds {rounds : ℕ} {buffer later : List UInt8} {throws : List Bool}
    (h : PrefixesFit (buffer ++ later)) :
    (unpackLoop isPing rounds buffer throws).2.2 ≠ .overrun ∧
      ∀ left, (unpackLoop isPing rounds buffer throws).2.2 = .waiting left →
        PrefixesFit (left ++ later) := by
  induction rounds generalizing buffer throws with
  | zero =>
    refine ⟨by simp [unpackLoop], ?_⟩
    rintro left ⟨⟩
    exact h
  | succ rounds ih =>
    rw [unpackLoop]
    rcases hfront : front buffer with _ | ⟨msg, rest⟩ | _
    · refine ⟨by simp, ?_⟩
      rintro left ⟨⟩
      exact h
    · simp only
      obtain ⟨hle, -, -⟩ := front_frame hfront
      obtain ⟨hmsg, rfl⟩ := front_splits hfront (h.here (by omega))
      rw [List.append_assoc] at h
      split_ifs
      · exact ⟨by simp, by simp⟩
      · exact ih (h.next hmsg)
    · obtain ⟨h4, hbig⟩ := front_overrun hfront
      have := h.here h4
      omega

/-- Reads of a fitting stream. -/
theorem receive_inBounds {chunks : List (List UInt8)} {buffer : List UInt8} {throws : List Bool}
    (h : PrefixesFit (buffer ++ chunks.flatten)) :
    (receive isPing chunks buffer throws).2.2 ≠ .overrun := by
  induction chunks generalizing buffer throws with
  | nil => simp [receive]
  | cons chunk chunks ih =>
    rw [List.flatten_cons, ← List.append_assoc] at h
    obtain ⟨hin, hleft⟩ := @unpackLoop_inBounds isPing (buffer ++ chunk).length _ _ throws h
    rw [receive, onRead]
    generalize unpackLoop isPing (buffer ++ chunk).length (buffer ++ chunk) throws = r at hin hleft
    obtain ⟨ds, throws', left | left | _⟩ := r
    · exact ih (hleft left rfl)
    · simp
    · exact absurd rfl hin

/-- The loop takes whole frames off until it meets the hostile prefix. -/
theorem unpackLoop_hostile {payloads : List (List UInt8)} {tail : List UInt8} {rounds : ℕ}
    (hpay : ∀ p ∈ payloads, Framable p) (htail : front tail = .overrun)
    (hrounds : payloads.length < rounds) :
    (unpackLoop isPing rounds (payloads.flatMap frame ++ tail) []).2.2 = .overrun := by
  induction payloads generalizing rounds with
  | nil =>
    obtain ⟨rounds, rfl⟩ := Nat.exists_eq_add_of_lt hrounds
    simp [unpackLoop, htail]
  | cons p payloads ih =>
    obtain ⟨rounds, rfl⟩ := Nat.exists_eq_add_of_lt (Nat.zero_lt_of_lt hrounds)
    simp only [List.length_cons, Nat.zero_add] at hrounds ⊢
    have hrest := @ih rounds (fun q hq => hpay q (by simp [hq])) (by omega)
    rw [List.flatMap_cons, List.append_assoc, unpackLoop, front_complete (hpay p (by simp))]
    simp only [dispatch_quiet, Bool.false_eq_true, if_false]
    exact hrest

end Loop

/-- **Bounds of the unpack loop**: it stays inside the buffer exactly when no length prefix at a frame
boundary of the stream is one of the last four. -/
theorem staysInBounds_iff (stream : List UInt8) : StaysInBounds stream ↔ PrefixesFit stream := by
  constructor
  · intro h payloads rest hpay hstream h4
    by_contra hbig
    have hhead : (rest.take 4).length = 4 := by
      rw [List.length_take]
      omega
    have htail : front (rest.take 4) = .overrun := by
      refine front_hostile hhead ?_
      rw [List.take_take, Nat.min_self]
      omega
    -- the first read ends right behind the hostile prefix
    refine h (fun _ => false) [] [payloads.flatMap frame ++ rest.take 4, rest.drop 4] ?_ ?_
    · rw [hstream, List.flatten_cons, List.flatten_cons, List.flatten_nil, List.append_nil,
        List.append_assoc, List.take_append_drop]
    · have hloop := @unpackLoop_hostile (fun _ => false) payloads _
        (payloads.flatMap frame ++ rest.take 4).length hpay htail (by
          have := length_le_flatMap_frame payloads
          rw [List.length_append]
          omega)
      rw [receive, onRead, List.nil_append]
      generalize unpackLoop _ _ _ _ = r at hloop
      obtain ⟨ds, throws, left | left | _⟩ := r
      · exact absurd hloop (by simp)
      · exact absurd hloop (by simp)
      · rfl
  · intro h isPing throws chunks hchunks
    refine receive_inBounds ?_
    rw [List.nil_append, hchunks]
    exact h

/-- Four bytes `0xFF`: the sum wraps to 3, and the round takes `2 ^ 32 - 1` bytes of an empty payload. -/
theorem hostile_prefix_overruns :
    (receive (fun _ => false) [[255, 255, 255, 255]] [] []).2.2 = .overrun ∧
      ¬ StaysInBounds [255, 255, 255, 255] := by
  have hrun : (receive (fun _ => false) [[255, 255, 255, 255]] [] []).2.2 = .overrun := by
    decide +kernel
  refine ⟨hrun, ?_⟩
  intro h
  exact h _ _ [[255, 255, 255, 255]] rfl hrun

end LuspUpload.Ipc
