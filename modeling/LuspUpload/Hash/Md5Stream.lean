import LuspUpload.Hash.Md5

/-!
# Hash.Md5Stream — `MD5` computes the digest of RFC 1321

The mix functions are the auxiliary functions of the RFC, and four lines of `processBlock`, which each
keep the registers in their places, are four operations, which move them on (`processBlock_eq`).  The
object holds the bytes that were added since `reset` (`Holds`): `add` keeps this for every cut of the
bytes into calls, and so does `getHash`, which writes the padding behind the bytes in the buffer and puts
the registers back.
-/

namespace LuspUpload.Hash

open Lib Rfc1321

/-! ### One block -/

theorem rotate_eq (a : BitVec 32) {c : ℕ} (hc : c < 32) : rotate a c = a.rotateLeft c := by
  rw [rotate, BitVec.rotateLeft_def, Nat.mod_eq_of_lt hc]

theorem f1_eq : f1 = aux 0 := by
  funext x y z
  show z ^^^ (x &&& (y ^^^ z)) = x &&& y ||| ~~~ x &&& z
  ext i hi
  simp only [BitVec.getElem_xor, BitVec.getElem_and, BitVec.getElem_or, BitVec.getElem_not]
  cases x[i] <;> cases y[i] <;> cases z[i] <;> rfl

theorem f2_eq : f2 = aux 16 := by
  funext x y z
  show y ^^^ (z &&& (x ^^^ y)) = x &&& z ||| y &&& ~~~ z
  ext i hi
  simp only [BitVec.getElem_xor, BitVec.getElem_and, BitVec.getElem_or, BitVec.getElem_not]
  cases x[i] <;> cases y[i] <;> cases z[i] <;> rfl

theorem f3_eq : f3 = aux 32 := rfl

theorem f4_eq : f4 = aux 48 := rfl

/-- Four lines, after which each register is in its place again. -/
theorem lines_eq (f : BitVec 32 → BitVec 32 → BitVec 32 → BitVec 32) (w₀ w₁ w₂ w₃ k₀ k₁ k₂ k₃ : BitVec 32)
    {s₀ s₁ s₂ s₃ : ℕ} (h₀ : s₀ < 32) (h₁ : s₁ < 32) (h₂ : s₂ < 32) (h₃ : s₃ < 32) (r : Regs) :
    lineB f w₃ k₃ s₃ (lineC f w₂ k₂ s₂ (lineD f w₁ k₁ s₁ (lineA f w₀ k₀ s₀ r))) =
      turn f w₃ k₃ s₃ (turn f w₂ k₂ s₂ (turn f w₁ k₁ s₁ (turn f w₀ k₀ s₀ r))) := by
  have hturn : ∀ (w k : BitVec 32) {s : ℕ} (_ : s < 32) (r : Regs),
      turn f w k s r = ⟨r.d, rotate (r.a + f r.b r.c r.d + w + k) s + r.b, r.b, r.c⟩ := by
    intro w k s hs r
    rw [turn, rotate_eq _ hs, BitVec.add_comm r.b]
  rw [hturn w₃ k₃ h₃, hturn w₂ k₂ h₂, hturn w₁ k₁ h₁, hturn w₀ k₀ h₀]
  rfl

/-- The operations from `lo` on. -/
def turns (word : ℕ → BitVec 32) (lo n : ℕ) (r : Regs) : Regs :=
  (List.range' lo n).foldl (fun r i => turn (aux i) (word (wordIndex i)) (SINES.getD i 0) (shift i) r) r

theorem firstRound_eq (word : ℕ → BitVec 32) (r : Regs) : firstRound word r = turns word 0 16 r := by
  simp only [firstRound, lines_eq, Nat.reduceLT, f1_eq]
  rfl

theorem secondRound_eq (word : ℕ → BitVec 32) (r : Regs) : secondRound word r = turns word 16 16 r := by
  simp only [secondRound, lines_eq, Nat.reduceLT, f2_eq]
  rfl

theorem thirdRound_eq (word : ℕ → BitVec 32) (r : Regs) : thirdRound word r = turns word 32 16 r := by
  simp only [thirdRound, lines_eq, Nat.reduceLT, f3_eq]
  rfl

theorem fourthRound_eq (word : ℕ → BitVec 32) (r : Regs) : fourthRound word r = turns word 48 16 r := by
  simp only [fourthRound, lines_eq, Nat.reduceLT, f4_eq]
  rfl

theorem turns_add (word : ℕ → BitVec 32) (lo m n : ℕ) (r : Regs) :
    turns word (lo + m) n (turns word lo m r) = turns word lo (m + n) r := by
  rw [turns, turns, turns, ← List.foldl_append, List.range'_append_1]

/-- The 64 lines are the 64 operations. -/
theorem processBlock_eq : processBlock = compress := by
  funext hash data
  have hrounds : ∀ word : ℕ → BitVec 32,
      fourthRound word (thirdRound word (secondRound word (firstRound word hash))) =
        turns word 0 64 hash := by
    intro word
    rw [firstRound_eq, secondRound_eq, thirdRound_eq, fourthRound_eq]
    rw [turns_add word 0 16 16, turns_add word 0 32 16, turns_add word 0 48 16]
  rw [processBlock, hrounds, turns, ← List.range_eq_range']
  rfl

/-! ### The object -/

/-- The registers and the bytes left over after some data. -/
def taken (data : List UInt8) : Regs × List UInt8 := Blocks.feeds compress 64 (INIT, []) data

/-- The digest is that of the data and its padding. -/
theorem md5_eq (data : List UInt8) : md5 data = digest (taken (data ++ padding data.length)).1 := by
  have hdvd : 64 ∣ (data ++ padding data.length).length := by
    rw [List.length_append]
    exact length_padding data.length
  have hfeeds : taken (Blocks.blocks 64 (data ++ padding data.length)).flatten =
      ((Blocks.blocks 64 (data ++ padding data.length)).foldl compress INIT, []) :=
    Blocks.feeds_blocks (by omega) fun b hb => Blocks.length_of_mem_blocks hb
  rw [Blocks.flatten_blocks hdvd] at hfeeds
  rw [md5, hfeeds]

namespace MD5

/-- The bytes in the buffer. -/
def pending (m : MD5) : List UInt8 := m.buffer.1.take m.bufferSize

/-- The object holds the data added since `reset`. -/
structure Holds (m : MD5) (data : List UInt8) : Prop where
  room : m.bufferSize < 64
  taken : taken data = (m.hash, m.pending)
  count : m.numBytes + .ofNat m.bufferSize = .ofNat data.length

theorem holds_reset (m : MD5) : Holds m.reset [] where
  room := by
    show 0 < 64
    omega
  taken := rfl
  count := rfl

section Steps

variable {m : MD5} {data chunk : List UInt8}

theorem Holds.length_pending (h : Holds m data) : m.pending.length = m.bufferSize := by
  have := m.buffer.2
  have := h.room
  exact List.length_take_of_le (by omega)

/-- Bytes behind those in the buffer. -/
def pushed (m : MD5) (chunk : List UInt8) : MD5 :=
  { m with buffer := m.buffer.write m.bufferSize chunk, bufferSize := m.bufferSize + chunk.length }

theorem push_pushed (m : MD5) (b : UInt8) (chunk : List UInt8) :
    (m.push b).pushed chunk = m.pushed (b :: chunk) := by
  simp only [pushed, push, Block.write, Blocks.store, List.length_cons, Nat.add_assoc, Nat.add_comm 1]

theorem pending_pushed (h : m.bufferSize + chunk.length ≤ 64) :
    (m.pushed chunk).pending = m.pending ++ chunk := by
  have hlen := m.buffer.2
  have hfront : (m.buffer.1.take m.bufferSize).length = m.bufferSize := List.length_take_of_le (by omega)
  show (Blocks.store m.buffer.1 m.bufferSize chunk).take (m.bufferSize + chunk.length) = _
  rw [Blocks.store_eq (by omega), List.take_left' (by rw [List.length_append, hfront])]
  rfl

theorem keep_eq (m : MD5) (data : List UInt8) : m.keep data = m.pushed data := by
  induction data generalizing m with
  | nil => rfl
  | cons b data ih =>
    rw [← push_pushed, ← ih]
    rfl

/-- The first loop of `add` stops at the end of the data or of the buffer. -/
theorem fill_eq (m : MD5) (data : List UInt8) :
    m.fill data = (m.pushed (data.take (64 - m.bufferSize)), data.drop (64 - m.bufferSize)) := by
  induction data generalizing m with
  | nil => rw [List.take_nil, List.drop_nil]; rfl
  | cons b data ih =>
    rw [fill]
    by_cases hroom : m.bufferSize < BlockSize
    · have hrest : 64 - m.bufferSize = 64 - (m.push b).bufferSize + 1 := by
        have : m.bufferSize < 64 := hroom
        show _ = 64 - (m.bufferSize + 1) + 1
        omega
      rw [if_pos hroom, ih, push_pushed, hrest, List.take_succ_cons, List.drop_succ_cons]
    · have hfull : 64 - m.bufferSize = 0 := by
        have : ¬ m.bufferSize < 64 := hroom
        omega
      rw [if_neg hroom, hfull]
      rfl

/-- The loop over full blocks. -/
theorem blockLoop_eq {rounds : ℕ} (hrounds : data.length ≤ rounds) (m : MD5) :
    blockLoop rounds m data =
      ({ m with
          hash := (Blocks.feeds compress 64 (m.hash, []) data).1
          numBytes := m.numBytes + .ofNat (data.length - data.length % 64) },
        (Blocks.feeds compress 64 (m.hash, []) data).2) := by
  induction rounds generalizing m data with
  | zero =>
    obtain rfl := List.length_eq_zero_iff.mp (Nat.le_zero.mp hrounds)
    rw [blockLoop, Blocks.feeds_nil]
    exact congrArg (fun n => ({ m with numBytes := n }, ([] : List UInt8))) (UInt64.add_zero _).symm
  | succ rounds ih =>
    rw [blockLoop]
    by_cases hfull : BlockSize ≤ data.length
    · have hlong : 64 ≤ data.length := hfull
      have hblock : (data.take 64).length = 64 := List.length_take_of_le hlong
      have hfeeds : Blocks.feeds compress 64 (m.hash, []) data =
          Blocks.feeds compress 64 (compress m.hash (data.take 64), []) (data.drop 64) := by
        conv_lhs => rw [← List.take_append_drop 64 data]
        exact Blocks.feeds_block (by omega) hblock
      have hcount : m.numBytes + .ofNat 64 + .ofNat ((data.drop 64).length - (data.drop 64).length % 64) =
          m.numBytes + .ofNat (data.length - data.length % 64) := by
        rw [UInt64.add_assoc, ← UInt64.ofNat_add, List.length_drop]
        congr 2
        omega
      rw [if_pos hfull, ih (by rw [List.length_drop]; show _ - 64 ≤ _; omega), hfeeds, ← hcount,
        processBlock_eq]
      rfl
    · have hshort : data.length < 64 := Nat.lt_of_not_le hfull
      have hfeeds : Blocks.feeds compress 64 (m.hash, []) data = (m.hash, data) :=
        Blocks.feeds_of_lt (by rw [List.length_nil]; omega)
      rw [if_neg hfull, hfeeds, Nat.mod_eq_of_lt hshort, Nat.sub_self]
      exact congrArg (fun n => ({ m with numBytes := n }, data)) (UInt64.add_zero _).symm

/-- The bytes behind an empty buffer. -/
theorem Holds.addRest (h : Holds m data) (hempty : m.bufferSize = 0) :
    Holds ((blockLoop chunk.length m chunk).1.keep (blockLoop chunk.length m chunk).2) (data ++ chunk) := by
  have hpending : m.pending = [] := by rw [pending, hempty, List.take_zero]
  have htaken := h.taken
  rw [hpending] at htaken
  have hrest : (Blocks.feeds compress 64 (m.hash, []) chunk).2.length = chunk.length % 64 :=
    Blocks.length_feeds (by omega)
  have hcount := h.count
  rw [blockLoop_eq le_rfl, keep_eq]
  set rest := (Blocks.feeds compress 64 (m.hash, []) chunk).2 with hdef
  set m' : MD5 := { m with
    hash := (Blocks.feeds compress 64 (m.hash, []) chunk).1
    numBytes := m.numBytes + .ofNat (chunk.length - chunk.length % 64) } with hm'
  have hroom : m'.bufferSize + rest.length < 64 := by
    show m.bufferSize + rest.length < 64
    omega
  have hleft : (m'.pushed rest).pending = rest := by
    rw [pending_pushed (Nat.le_of_lt hroom)]
    show m.pending ++ rest = rest
    rw [hpending, List.nil_append]
  refine ⟨hroom, ?_, ?_⟩
  · show Hash.taken (data ++ chunk) = (m'.hash, (m'.pushed rest).pending)
    rw [hleft, Hash.taken, Blocks.feeds_append,
      show Blocks.feeds compress 64 (INIT, []) data = _ from htaken]
  · show m.numBytes + .ofNat (chunk.length - chunk.length % 64) + .ofNat (m.bufferSize + rest.length) = _
    rw [hempty] at hcount ⊢
    rw [UInt64.add_assoc, ← UInt64.ofNat_add, hrest, List.length_append, UInt64.ofNat_add data.length,
      ← hcount,
      UInt64.add_assoc, ← UInt64.ofNat_add]
    congr 2
    omega

/-- Bytes that leave room in the buffer. -/
theorem Holds.pushed (h : Holds m data) (hroom : m.bufferSize + chunk.length < 64) :
    Holds (m.pushed chunk) (data ++ chunk) := by
  have hlen := h.length_pending
  refine ⟨hroom, ?_, ?_⟩
  · have htaken : Blocks.feeds compress 64 (INIT, []) data = (m.hash, m.pending) := h.taken
    rw [pending_pushed (Nat.le_of_lt hroom), Hash.taken, Blocks.feeds_append, htaken,
      Blocks.feeds_of_lt (by rw [hlen]; exact hroom)]
    rfl
  · show m.numBytes + .ofNat (m.bufferSize + chunk.length) = _
    rw [UInt64.ofNat_add, ← UInt64.add_assoc, h.count, List.length_append, UInt64.ofNat_add]

/-- Bytes that fill the buffer. -/
theorem Holds.fullBuffer (h : Holds m data) (hfull : m.bufferSize + chunk.length = 64) :
    Holds (m.pushed chunk).fullBuffer (data ++ chunk) ∧ (m.pushed chunk).fullBuffer.bufferSize = 0 := by
  have hlen := h.length_pending
  have hbuffer : (m.pushed chunk).buffer.1 = m.pending ++ chunk := by
    have hpushed := pending_pushed (Nat.le_of_eq hfull)
    rw [pending] at hpushed
    rw [← hpushed]
    show _ = List.take (m.bufferSize + chunk.length) _
    rw [hfull, List.take_of_length_le (Nat.le_of_eq (m.pushed chunk).buffer.2)]
  have hmove : (m.pushed chunk).fullBuffer = { m.pushed chunk with
      hash := compress m.hash (m.pending ++ chunk)
      numBytes := m.numBytes + .ofNat BlockSize
      bufferSize := 0 } := by
    have hsize : (m.pushed chunk).bufferSize = BlockSize := hfull
    rw [MD5.fullBuffer, if_pos hsize, hbuffer, processBlock_eq]
    rfl
  rw [hmove]
  refine ⟨⟨show 0 < 64 by omega, ?_, ?_⟩, rfl⟩
  · have htaken : Blocks.feeds compress 64 (INIT, []) data = (m.hash, m.pending) := h.taken
    show Hash.taken _ = (_, List.take 0 _)
    rw [Hash.taken, Blocks.feeds_append, htaken, Blocks.feeds_of_eq (by rw [hlen]; exact h.room)
      (by rw [hlen]; exact hfull), List.take_zero]
  · show m.numBytes + .ofNat 64 + .ofNat 0 = _
    rw [UInt64.add_assoc, ← UInt64.ofNat_add, List.length_append, UInt64.ofNat_add data.length, ← h.count,
      UInt64.add_assoc, ← UInt64.ofNat_add, hfull]

/-- **One call of `add`**. -/
theorem Holds.add (h : Holds m data) (chunk : List UInt8) : Holds (m.add chunk) (data ++ chunk) := by
  have hroom := h.room
  -- the buffer is empty, stays below 64 bytes, or is filled
  by_cases hempty : m.bufferSize = 0
  · have hsame : m.fullBuffer = m := if_neg (by rw [hempty]; decide)
    simp only [MD5.add, hempty, Nat.lt_irrefl, if_false, hsame]
    by_cases hnone : chunk.length = 0
    · obtain rfl := List.length_eq_zero_iff.mp hnone
      rw [if_pos hnone, List.append_nil]
      exact h
    · rw [if_neg hnone]
      exact h.addRest hempty
  · simp only [MD5.add, Nat.pos_of_ne_zero hempty, if_true, fill_eq]
    by_cases hfits : m.bufferSize + chunk.length < 64
    · have hall : chunk.take (64 - m.bufferSize) = chunk := List.take_of_length_le (by omega)
      have hnone : (chunk.drop (64 - m.bufferSize)).length = 0 := by
        rw [List.length_drop]
        omega
      have hsame : (m.pushed chunk).fullBuffer = m.pushed chunk :=
        if_neg (show m.bufferSize + chunk.length ≠ 64 by omega)
      rw [if_pos hnone, hall, hsame]
      exact h.pushed hfits
    · have hfill : m.bufferSize + (chunk.take (64 - m.bufferSize)).length = 64 := by
        rw [List.length_take]
        omega
      obtain ⟨hfull, hzero⟩ := h.fullBuffer hfill
      have hcut : data ++ chunk = data ++ chunk.take (64 - m.bufferSize) ++ chunk.drop
          (64 - m.bufferSize) := by
        rw [List.append_assoc, List.take_append_drop]
      rw [hcut]
      by_cases hnone : (chunk.drop (64 - m.bufferSize)).length = 0
      · rw [if_pos hnone, List.length_eq_zero_iff.mp hnone, List.append_nil]
        exact hfull
      · rw [if_neg hnone]
        exact hfull.addRest hzero

/-! ### The padding -/

/-- The length that `processBuffer` finds, in bytes: up to the length field in this block or in the next. -/
theorem paddedLength_eq {k : ℕ} (hk : k < 64) :
    (if (k * 8 + 1) &&& 511 ≤ 448 then k * 8 + 1 + (448 - ((k * 8 + 1) &&& 511))
      else k * 8 + 1 + (512 + 448 - ((k * 8 + 1) &&& 511))) / 8 = if k < 56 then 56 else 120 := by
  have hlow : (k * 8 + 1) &&& 511 = k * 8 + 1 := by
    rw [Nat.and_two_pow_sub_one_eq_mod (k * 8 + 1) 9]
    omega
  rw [hlow]
  split_ifs <;> omega

theorem Holds.mod_length (h : Holds m data) : data.length % 64 = m.bufferSize := by
  have hlen : (Hash.taken data).2.length = data.length % 64 := Blocks.length_feeds (by omega)
  rw [← hlen, h.taken]
  exact h.length_pending

theorem Holds.msgBits (h : Holds m data) :
    leBytes 8 (8 * (m.numBytes + .ofNat m.bufferSize)).toNat = leBytes 8 (8 * data.length) := by
  rw [h.count, ← leBytes_mod 8 (8 * data.length)]
  congr 1
  rw [UInt64.toNat_mul, UInt64.toNat_ofNat']
  show 8 * (data.length % 2 ^ 64) % 2 ^ 64 = 8 * data.length % 256 ^ 8
  omega

/-- The bytes of a write behind some bytes of an array. -/
theorem write_eq {block : Block} {pre bytes : List UInt8} {k : ℕ} (hpre : block.1.take k = pre)
    (hle : k + bytes.length ≤ 64) :
      (block.write k bytes).1 = pre ++ bytes ++ block.1.drop (k + bytes.length) := by
  have hlen := block.2
  show Blocks.store block.1 k bytes = _
  rw [Blocks.store_eq (by omega), hpre]

/-- A write up to the end of an array. -/
theorem write_to_end {block : Block} {pre bytes : List UInt8} {k : ℕ} (hpre : block.1.take k = pre)
    (hend : k + bytes.length = 64) : (block.write k bytes).1 = pre ++ bytes := by
  rw [write_eq hpre (Nat.le_of_eq hend), hend, List.drop_eq_nil_of_le (Nat.le_of_eq block.2),
    List.append_nil]

/-- The one behind the pending bytes, and zeros up to the end of the buffer. -/
def zeroed (m : MD5) : Block :=
  (m.buffer.write m.bufferSize [128]).write (m.bufferSize + 1) (List.replicate (64 - (m.bufferSize + 1)) 0)

theorem Holds.zeroed (h : Holds m data) :
    m.zeroed.1 = m.pending ++ 128 :: List.replicate (63 - m.bufferSize) 0 := by
  have hroom := h.room
  have hone : (m.buffer.write m.bufferSize [128]).1.take (m.bufferSize + 1) = m.pending ++ [128] := by
    rw [@write_eq m.buffer m.pending [128] m.bufferSize rfl (show m.bufferSize + 1 ≤ 64 by omega)]
    exact List.take_left' (by rw [List.length_append, h.length_pending]; rfl)
  rw [MD5.zeroed, write_to_end hone (by rw [List.length_replicate]; omega), List.append_assoc,
    show 64 - (m.bufferSize + 1) = 63 - m.bufferSize by omega]
  rfl

/-- The length field fits behind the bytes. -/
theorem Holds.processBuffer_one (h : Holds m data) (hone : m.bufferSize < 56) (extra : Block) :
    m.processBuffer extra = { m with
      buffer := m.zeroed.write 56 (leBytes 8 (8 * data.length))
      hash := compress m.hash (m.zeroed.write 56 (leBytes 8 (8 * data.length))).1 } := by
  have hroom : m.bufferSize < BlockSize := h.room
  have hlong : 56 < BlockSize := by decide
  have hshort : ¬ BlockSize < 56 := by decide
  simp only [MD5.processBuffer, paddedLength_eq h.room, hone, hroom, hlong, hshort, if_true, if_false,
    h.msgBits,
    processBlock_eq]
  rfl

/-- The length field goes into a block of its own. -/
theorem Holds.processBuffer_two (h : Holds m data) (htwo : ¬ m.bufferSize < 56) (extra : Block) :
    m.processBuffer extra = { m with
      buffer := m.zeroed
      hash := compress (compress m.hash m.zeroed.1)
        ((extra.write 0 (List.replicate 56 0)).write 56 (leBytes 8 (8 * data.length))).1 } := by
  have hroom : m.bufferSize < BlockSize := h.room
  have hmax : max (m.bufferSize + 1) BlockSize = BlockSize := max_eq_right hroom
  have hlong : ¬ 120 < BlockSize := by decide
  have hshort : BlockSize < 120 := by decide
  simp only [MD5.processBuffer, paddedLength_eq h.room, htwo, hroom, hmax, hlong, hshort, if_true, if_false,
    h.msgBits, processBlock_eq]
  rfl

/-- `processBuffer` takes in the padding, and leaves the pending bytes where they are. -/
theorem Holds.processBuffer (h : Holds m data) (extra : Block) :
    (m.processBuffer extra).hash = (Hash.taken (data ++ padding data.length)).1 ∧
      (m.processBuffer extra).pending = m.pending := by
  have hroom := h.room
  have hfront : m.zeroed.1.take m.bufferSize = m.pending := by
    rw [h.zeroed, List.take_left' h.length_pending]
  have hpad : padding data.length =
      128 :: List.replicate ((119 - m.bufferSize) % 64) 0 ++ leBytes 8 (8 * data.length) := by
    rw [padding, h.mod_length]
  have htaken : Blocks.feeds compress 64 (INIT, []) data = (m.hash, m.pending) := h.taken
  rw [Hash.taken, Blocks.feeds_append, htaken, hpad]
  by_cases hone : m.bufferSize < 56
  · have hzeros : List.replicate (63 - m.bufferSize) (0 : UInt8) =
        List.replicate (55 - m.bufferSize) 0 ++ List.replicate 8 0 := by
      rw [List.replicate_append_replicate]
      congr 1
      omega
    have hcut : m.zeroed.1.take 56 = m.pending ++ 128 :: List.replicate (55 - m.bufferSize) 0 := by
      rw [h.zeroed, hzeros, ← List.cons_append, ← List.append_assoc]
      refine List.take_left' ?_
      rw [List.length_append, h.length_pending, List.length_cons, List.length_replicate]
      omega
    have hblock : (m.zeroed.write 56 (leBytes 8 (8 * data.length))).1 =
        m.pending ++ 128 :: List.replicate (55 - m.bufferSize) 0 ++ leBytes 8 (8 * data.length) :=
      write_to_end hcut (by rw [leBytes_length])
    rw [h.processBuffer_one hone, show (119 - m.bufferSize) % 64 = 55 - m.bufferSize by omega]
    constructor
    · rw [Blocks.feeds_of_eq (by rw [h.length_pending]; exact hroom)]
      · show compress m.hash (m.zeroed.write 56 (leBytes 8 (8 * data.length))).1 = _
        rw [hblock, List.append_assoc]
      · rw [h.length_pending, List.length_append, List.length_cons, List.length_replicate, leBytes_length]
        omega
    · show (m.zeroed.write 56 (leBytes 8 (8 * data.length))).1.take m.bufferSize = m.pending
      rw [hblock, List.append_assoc, List.take_left' h.length_pending]
  · have hzeros : List.replicate (119 - m.bufferSize) (0 : UInt8) =
        List.replicate (63 - m.bufferSize) 0 ++ List.replicate 56 0 := by
      rw [List.replicate_append_replicate]
      congr 1
      omega
    have hnull : (extra.write 0 (List.replicate 56 0)).1.take 56 = List.replicate 56 0 := by
      rw [@write_eq extra [] (List.replicate 56 0) 0 rfl (by rw [List.length_replicate]; omega),
        List.nil_append]
      exact List.take_left' List.length_replicate
    have hsecond : ((extra.write 0 (List.replicate 56 0)).write 56 (leBytes 8 (8 * data.length))).1 =
        List.replicate 56 0 ++ leBytes 8 (8 * data.length) := write_to_end hnull (by rw [leBytes_length])
    have hsplit : 128 :: List.replicate (119 - m.bufferSize) 0 ++ leBytes 8 (8 * data.length) =
        (128 :: List.replicate (63 - m.bufferSize) 0) ++
          (List.replicate 56 0 ++ leBytes 8 (8 * data.length)) := by
      rw [hzeros]
      simp only [List.cons_append, List.append_assoc]
    rw [h.processBuffer_two hone, show (119 - m.bufferSize) % 64 = 119 - m.bufferSize by omega, hsplit]
    have hfill : m.pending.length + (128 :: List.replicate (63 - m.bufferSize) (0 : UInt8)).length =
        64 := by
      rw [h.length_pending, List.length_cons, List.length_replicate]
      omega
    have hfirst : Blocks.feeds compress 64 (m.hash, m.pending)
        (128 :: List.replicate (63 - m.bufferSize) 0) =
        (compress m.hash m.zeroed.1, []) := by
      rw [h.zeroed]
      exact Blocks.feeds_of_eq (by rw [h.length_pending]; exact hroom) hfill
    have hwhole : (List.replicate 56 0 ++ leBytes 8 (8 * data.length)).length = 64 := by
      rw [List.length_append, List.length_replicate, leBytes_length]
    refine ⟨?_, hfront⟩
    rw [Blocks.feeds_append, hfirst, ← List.append_nil (List.replicate 56 0 ++ _),
      Blocks.feeds_block (by omega) hwhole, ← hsecond]
    rfl

/-- **One call of `getHash`**: the digest of the data, which the object holds on. -/
theorem Holds.getHash (h : Holds m data) (extra : Block) :
    (m.getHash extra).1 = hexText (md5 data) ∧ Holds (m.getHash extra).2 data := by
  obtain ⟨hhash, hpending⟩ := h.processBuffer extra
  refine ⟨?_, h.room, ?_, h.count⟩
  · show hexText (digest (m.processBuffer extra).hash) = _
    rw [hhash, ← md5_eq]
  · show Hash.taken data = (m.hash, (m.processBuffer extra).pending)
    rw [hpending, h.taken]

end Steps

/-! ### Any calls -/

/-- A call of the object; `getHash` finds some bytes in its second array. -/
inductive Call where
  | add (data : List UInt8)
  | getHash (extra : Block)

/-- What the calls of `getHash` return. -/
def outputs : MD5 → List Call → List (List UInt8)
  | _, [] => []
  | m, .add data :: calls => outputs (m.add data) calls
  | m, .getHash extra :: calls => (m.getHash extra).1 :: outputs (m.getHash extra).2 calls

/-- What they are to return: the digests of what was added so far. -/
def answers : List UInt8 → List Call → List (List UInt8)
  | _, [] => []
  | added, .add data :: calls => answers (added ++ data) calls
  | added, .getHash _ :: calls => hexText (md5 added) :: answers added calls

theorem Holds.outputs {m : MD5} {data : List UInt8} (h : Holds m data) (calls : List Call) :
    m.outputs calls = answers data calls := by
  induction calls generalizing m data with
  | nil => rfl
  | cons call calls ih =>
    cases call with
    | add chunk => exact ih (h.add chunk)
    | getHash extra =>
      obtain ⟨hhash, hholds⟩ := h.getHash extra
      rw [MD5.outputs, answers, hhash, ih hholds]

/-- **Any calls**: whatever the object held before `reset`, whatever its second array holds, and in
whatever order bytes are added and hashes are asked for, each `getHash` returns the digest of RFC 1321 of
all bytes added so far. -/
theorem outputs_reset (m : MD5) (calls : List Call) : m.reset.outputs calls = answers [] calls :=
  (holds_reset m).outputs calls

end MD5

end LuspUpload.Hash
