import LuspUpload.Hash.Crc32
import Mathlib.Data.Nat.Bitwise

/-!
# Hash.Window — what a checksum behind its bytes tells

Some bytes with their `CRC32` behind them, as `getHash` hands it out.  A change of up to four bytes in a
row gives no such sequence again, with one exception: `getHash` puts the most significant byte first,
while a byte goes into the register least significant bit first, and so a change of the last two bytes can
be made up for by a change of the first two bytes of the checksum (`sealed_window`).
-/

namespace LuspUpload.Hash.CRC32

open Lib

/-- Some bytes and their hash. -/
def sealed (data : List UInt8) : List UInt8 := data ++ getHashBytes (add reset data)

/-- The change around the end of the bytes that no reader sees. -/
def unseen (file : List UInt8) : List UInt8 := Crc.xorAt (file.length - 6) [0x61, 0xD8, 0xF4, 0xEE] file

theorem hash_add (data : List UInt8) : (add reset data).hash = plain data := by
  have := (add_plain [data]).1
  rwa [List.flatten_singleton] at this

theorem sealed_eq (data : List UInt8) : sealed data = data ++ (leBytes 4 (plain data).toNat).reverse := by
  rw [sealed, getHashBytes_eq, hash_add]

/-! ### Differences of one to three bytes whose remainder has as many zero bytes

With one and three bytes there is none but zero.  With two bytes it is met in the middle: the low half of
the remainder is that of the first byte and that of the second one, and the halves of all second bytes fit
into one number, bit by bit. -/

theorem spill_one : ∀ d < 256, (Crc.bitSteps POLYNOMIAL 8 (.ofNat 32 d)).toNat % 2 ^ 8 = 0 → d = 0 := by
  decide +kernel

theorem spill_three_back : ∀ t < 256, (Crc.bitBacks POLYNOMIAL 24 (.ofNat 32 (t * 2 ^ 24))).toNat < 2 ^ 24 →
    t = 0 := by
  decide +kernel

theorem spill_three {d : BitVec 32} (hd : d.toNat < 2 ^ 24)
    (h : (Crc.bitSteps POLYNOMIAL 24 d).toNat % 2 ^ 24 = 0) : d = 0#32 := by
  have hback := Crc.bitBacks_bitSteps top_POLYNOMIAL 24 d
  set c := Crc.bitSteps POLYNOMIAL 24 d with hc
  have hlt := c.isLt
  have htop : c = .ofNat 32 (c.toNat / 2 ^ 24 * 2 ^ 24) := by
    rw [Nat.div_mul_cancel (Nat.dvd_of_mod_eq_zero h), BitVec.ofNat_toNat, BitVec.setWidth_eq]
  have hzero := spill_three_back (c.toNat / 2 ^ 24) (by omega) (by rw [← htop, hback]; exact hd)
  rw [hzero] at htop
  rw [← hback, htop]
  decide +kernel

/-- The low half of the register after `n` bits of a byte. -/
def half (n i : ℕ) : ℕ := (Crc.bitSteps POLYNOMIAL n (.ofNat 32 i)).toNat % 2 ^ 16

/-- The numbers of a list, as the bits of one number. -/
def bitSet (l : List ℕ) : ℕ := l.foldr (fun x m => 1 <<< x ||| m) 0

theorem testBit_bitSet {l : List ℕ} {x : ℕ} (h : x ∈ l) : (bitSet l).testBit x = true := by
  induction l with
  | nil => cases h
  | cons y l ih =>
    rw [bitSet, List.foldr_cons, Nat.testBit_or, Nat.one_shiftLeft]
    rcases List.mem_cons.mp h with rfl | h
    · rw [Nat.testBit_two_pow_self, Bool.true_or]
    · rw [show (List.foldr (fun x m => 1 <<< x ||| m) 0 l).testBit x = true from ih h, Bool.or_true]

theorem half_meet : ∀ i < 256, (bitSet ((List.range 256).map (half 8))).testBit (half 16 i) = true →
    i = 0 ∨ i = 0x61 := by
  decide +kernel

theorem half_zero : ∀ i < 256, half 8 i = half 16 0 → i = 0 := by
  decide +kernel

theorem half_other : ∀ i < 256, half 8 i = half 16 0x61 → i = 0xD8 := by
  decide +kernel

theorem spill_two {d : ℕ} (hd : d < 2 ^ 16)
    (h : (Crc.bitSteps POLYNOMIAL 16 (.ofNat 32 d)).toNat % 2 ^ 16 = 0) : d = 0 ∨ d = 0xD861 := by
  have hlow : BitVec.ofNat 32 d &&& BitVec.ofNat 32 255 = .ofNat 32 (d % 256) := by
    rw [← BitVec.ofNat_and]
    exact congrArg _ (Nat.and_two_pow_sub_one_eq_mod d 8)
  have hhigh : BitVec.ofNat 32 d >>> 8 = .ofNat 32 (d / 256) := by
    apply BitVec.eq_of_toNat_eq
    rw [BitVec.toNat_ushiftRight, Nat.shiftRight_eq_div_pow, BitVec.toNat_ofNat, BitVec.toNat_ofNat]
    omega
  have hsplit := Crc.bitSteps_low_byte POLYNOMIAL 8 (.ofNat 32 d)
  rw [hlow, hhigh] at hsplit
  have hmeet : half 8 (d / 256) = half 16 (d % 256) := by
    rw [show (8 + 8 : ℕ) = 16 from rfl] at hsplit
    rw [hsplit, BitVec.toNat_xor, Nat.xor_mod_two_pow, Nat.xor_eq_zero_iff] at h
    exact h.symm
  have hmem : half 16 (d % 256) ∈ (List.range 256).map (half 8) :=
    List.mem_map.mpr ⟨d / 256, List.mem_range.mpr (by omega), hmeet⟩
  rcases half_meet (d % 256) (by omega) (testBit_bitSet hmem) with hd0 | hd1
  · rw [hd0] at hmeet
    have := half_zero (d / 256) (by omega) hmeet
    omega
  · rw [hd1] at hmeet
    have := half_other (d / 256) (by omega) hmeet
    omega

/-! ### One window -/

theorem not_xor_not (c d : BitVec 32) : ~~~ c ^^^ ~~~ d = c ^^^ d := by
  ext i hi
  simp

/-- Where two sequences end differently, so do their hashes by the remainder of the difference. -/
theorem plain_xor (pre : List UInt8) {x y : List UInt8} (hlen : x.length = y.length) (hle : x.length ≤ 4) :
    plain (pre ++ x) ^^^ plain (pre ++ y) =
      Crc.bitSteps POLYNOMIAL (8 * x.length) (Crc.word 32 x ^^^ Crc.word 32 y) := by
  rw [plain, plain, not_xor_not, Crc.bytes_append, Crc.bytes_append,
    Crc.bytes_xor_bytes POLYNOMIAL _ hlen (by omega)]

/-- The last bytes of `getHash` are the low bits of the hash. -/
theorem hash_mod_of_drop {c d : BitVec 32} {j : ℕ} (hj : j ≤ 4)
    (h : (leBytes 4 c.toNat).reverse.drop (4 - j) = (leBytes 4 d.toNat).reverse.drop (4 - j)) :
    (c ^^^ d).toNat % 2 ^ (8 * j) = 0 := by
  have hlow : ∀ n, (leBytes 4 n).reverse.drop (4 - j) = (leBytes j n).reverse := by
    intro n
    rw [List.drop_reverse, leBytes_length, show 4 - (4 - j) = j by omega, take_leBytes hj]
  rw [hlow, hlow, List.reverse_inj] at h
  have hnat := congrArg leNat h
  rw [leNat_leBytes, leNat_leBytes, show (256 : ℕ) = 2 ^ 8 from rfl, ← pow_mul] at hnat
  rw [BitVec.toNat_xor, Nat.xor_mod_two_pow, hnat, Nat.xor_self]

theorem plain_inj_of_digest {as bs : List UInt8}
    (h : (leBytes 4 (plain as).toNat).reverse = (leBytes 4 (plain bs).toNat).reverse) :
      plain as = plain bs := by
  have hzero := @hash_mod_of_drop (plain as) (plain bs) 4 le_rfl (by rw [h])
  have hlt := (plain as ^^^ plain bs).isLt
  rw [Nat.mod_eq_of_lt hlt] at hzero
  exact BitVec.xor_eq_zero_iff.mp (BitVec.eq_of_toNat_eq hzero)

/-- The hash after the change that is not seen. -/
theorem plain_unseen (pre : List UInt8) (x₀ x₁ : UInt8) :
    plain (pre ++ [x₀ ^^^ 0x61, x₁ ^^^ 0xD8]) = plain (pre ++ [x₀, x₁]) ^^^ 0xF4EE0000 := by
  have hword : Crc.word 32 [x₀ ^^^ 0x61, x₁ ^^^ 0xD8] = Crc.word 32 [x₀, x₁] ^^^ 0xD861 :=
    @Crc.word_zipWith 32 [x₀, x₁] [0x61, 0xD8] rfl
  have hsum := @plain_xor pre [x₀, x₁] [x₀ ^^^ 0x61, x₁ ^^^ 0xD8] rfl (show 2 ≤ 4 by omega)
  rw [hword, ← BitVec.xor_assoc, BitVec.xor_self, BitVec.zero_xor] at hsum
  have hremainder : Crc.bitSteps POLYNOMIAL (8 * [x₀, x₁].length) 0xD861 = 0xF4EE0000 := by
    show Crc.bitSteps POLYNOMIAL 16 0xD861 = 0xF4EE0000
    decide +kernel
  rw [← hremainder, ← hsum, ← BitVec.xor_assoc, BitVec.xor_self, BitVec.zero_xor]

/-- The change that is not seen gives bytes with their checksum again. -/
theorem sealed_unseen (pre : List UInt8) (x₀ x₁ : UInt8) :
    sealed (pre ++ [x₀ ^^^ 0x61, x₁ ^^^ 0xD8]) = unseen (sealed (pre ++ [x₀, x₁])) := by
  have hfour : ∀ n : ℕ, ∃ e₀ e₁ e₂ e₃,
      (leBytes 4 n).reverse = [e₀, e₁, e₂, e₃] := fun n => ⟨_, _, _, _, rfl⟩
  obtain ⟨e₀, e₁, e₂, e₃, hdigest⟩ := hfour (plain (pre ++ [x₀, x₁])).toNat
  have hchanged : (leBytes 4 (plain (pre ++ [x₀ ^^^ 0x61, x₁ ^^^ 0xD8])).toNat).reverse =
      [e₀ ^^^ 0xF4, e₁ ^^^ 0xEE, e₂, e₃] := by
    have hzip := Crc.leBytes_xor 4 (plain (pre ++ [x₀, x₁])).toNat 0xF4EE0000
    rw [plain_unseen, BitVec.toNat_xor]
    rw [show (0xF4EE0000 : BitVec 32).toNat = 0xF4EE0000 from rfl, hzip,
      List.reverse_zipWith (by rw [leBytes_length, leBytes_length]), hdigest]
    simp [leBytes]
  rw [sealed_eq, sealed_eq, hdigest, hchanged]
  have hplace : (pre ++ [x₀, x₁] ++ [e₀, e₁, e₂, e₃]).length - 6 = pre.length := by simp
  rw [unseen, Crc.xorAt, hplace]
  simp

theorem exists_sealed_unseen {as : List UInt8} (h : 2 ≤ as.length) :
    ∃ bs, bs.length = as.length ∧ bs.take (as.length - 2) = as.take (as.length - 2) ∧
      sealed bs = unseen (sealed as) := by
  obtain ⟨x₀, x₁, hlast⟩ := List.length_eq_two.mp (show (as.drop (as.length - 2)).length = 2 by
    rw [List.length_drop]; omega)
  obtain ⟨pre, rfl⟩ : ∃ pre, as = pre ++ [x₀, x₁] :=
    ⟨as.take (as.length - 2), by rw [← hlast, List.take_append_drop]⟩
  exact ⟨pre ++ [x₀ ^^^ 0x61, x₁ ^^^ 0xD8], by simp, by simp, sealed_unseen pre x₀ x₁⟩

/-- The change is at the end of a file. -/
theorem take_unseen {file : List UInt8} {n : ℕ} (h : n + 6 ≤ file.length) :
    (unseen file).take n = file.take n := by
  have hfront : n ≤ (file.take (file.length - 6)).length := by
    rw [List.length_take]
    omega
  rw [unseen, Crc.xorAt, List.append_assoc, List.take_append_of_le_length hfront, List.take_take,
    min_eq_left (by omega)]

section Sealed

variable {as bs : List UInt8} {k : ℕ}

/-- A window inside the bytes. -/
theorem eq_of_window_inside (hlen : as.length = bs.length)
    (htake : as.take k = bs.take k) (hdrop : as.drop (k + 4) = bs.drop (k + 4))
      (hplain : plain as = plain bs) :
    as = bs := by
  have hsplit : ∀ cs : List UInt8, cs = cs.take k ++ ((cs.drop k).take 4 ++ cs.drop (k + 4)) := by
    intro cs
    rw [← List.drop_drop, List.take_append_drop, List.take_append_drop]
  rw [hsplit as, hsplit bs, htake, hdrop, plain, plain, Crc.bytes_append _ _ (bs.take k),
    Crc.bytes_append _ _ (bs.take k), BitVec.not_inj] at hplain
  have hcut : ((as.drop k).take 4).length = ((bs.drop k).take 4).length := by
    simp only [List.length_take, List.length_drop, hlen]
  have hfit : 8 * ((as.drop k).take 4).length ≤ 32 := by
    rw [List.length_take]
    omega
  have hwindow := Crc.bytes_window top_POLYNOMIAL hcut hfit hplain
  rw [hsplit as, hsplit bs, htake, hdrop, hwindow]

/-- The bytes that a remainder with low bytes of zero comes from. -/
theorem word_xor_of_spill {x y : List UInt8} (hlen : x.length = y.length) (hpos : 0 < x.length)
    (hle : x.length ≤ 3)
    (h : (Crc.bitSteps POLYNOMIAL (8 * x.length) (Crc.word 32 x ^^^ Crc.word 32 y)).toNat %
      2 ^ (8 * x.length) = 0) :
    Crc.word 32 x = Crc.word 32 y ∨ x.length = 2 ∧ Crc.word 32 y = Crc.word 32 x ^^^ 0xD861 := by
  set d := Crc.word 32 x ^^^ Crc.word 32 y with hd
  have hword : ∀ z : List UInt8, z.length = x.length → (Crc.word 32 z).toNat < 2 ^ (8 * x.length) := by
    intro z hz
    have hlt := leNat_lt z
    rw [hz, show (256 : ℕ) = 2 ^ 8 from rfl, ← pow_mul] at hlt
    rw [Crc.word, BitVec.toNat_ofNat]
    exact (Nat.mod_le _ _).trans_lt hlt
  have hlt : d.toNat < 2 ^ (8 * x.length) := by
    rw [hd, BitVec.toNat_xor]
    exact Nat.xor_lt_two_pow (hword x rfl) (hword y hlen.symm)
  have hnat : BitVec.ofNat 32 d.toNat = d := by rw [BitVec.ofNat_toNat, BitVec.setWidth_eq]
  have heq : d = 0#32 → Crc.word 32 x = Crc.word 32 y := BitVec.xor_eq_zero_iff.mp
  have hthree : x.length = 1 ∨ x.length = 2 ∨ x.length = 3 := by omega
  rcases hthree with h1 | h2 | h3
  · rw [h1] at h hlt
    have hzero := spill_one d.toNat hlt (by rw [hnat]; exact h)
    exact Or.inl (heq (BitVec.eq_of_toNat_eq hzero))
  · rw [h2] at h hlt
    rcases spill_two hlt (by rw [hnat]; exact h) with hzero | hother
    · exact Or.inl (heq (BitVec.eq_of_toNat_eq hzero))
    · refine Or.inr ⟨h2, ?_⟩
      have hvalue : d = 0xD861 := BitVec.eq_of_toNat_eq hother
      rw [← hvalue, hd, ← BitVec.xor_assoc, BitVec.xor_self, BitVec.zero_xor]
  · rw [h3] at h hlt
    exact Or.inl (heq (spill_three hlt h))

/-- A window across the end of the bytes. -/
theorem eq_or_unseen_of_window_across {pre x y : List UInt8} (hlen : x.length = y.length)
    (hpos : 0 < x.length)
    (hle : x.length ≤ 3)
    (hdrop : (leBytes 4 (plain (pre ++ x)).toNat).reverse.drop (4 - x.length) =
      (leBytes 4 (plain (pre ++ y)).toNat).reverse.drop (4 - x.length)) :
    x = y ∨ ∃ x₀ x₁, x = [x₀, x₁] ∧ y = [x₀ ^^^ 0x61, x₁ ^^^ 0xD8] := by
  have hmod := hash_mod_of_drop (by omega) hdrop
  rw [plain_xor pre hlen (by omega)] at hmod
  have hfit : 8 * x.length ≤ 32 := by omega
  rcases word_xor_of_spill hlen hpos hle hmod with heq | ⟨htwo, hother⟩
  · exact Or.inl (Crc.word_inj hlen hfit heq)
  · obtain ⟨x₀, x₁, rfl⟩ := List.length_eq_two.mp htwo
    have hzip : Crc.word 32 [x₀ ^^^ 0x61, x₁ ^^^ 0xD8] = Crc.word 32 [x₀, x₁] ^^^ 0xD861 :=
      @Crc.word_zipWith 32 [x₀, x₁] [0x61, 0xD8] rfl
    exact Or.inr ⟨x₀, x₁, rfl, Crc.word_inj hlen.symm (hlen ▸ hfit) (hother.trans hzip.symm)⟩

/-- **One window**: of two sequences with their checksums that differ in at most four bytes in a row, one
is the other with the change that is not seen. -/
theorem sealed_window (hlen : as.length = bs.length) (htake : (sealed as).take k = (sealed bs).take k)
    (hdrop : (sealed as).drop (k + 4) = (sealed bs).drop (k + 4)) :
    as = bs ∨ 2 ≤ as.length ∧ sealed bs = unseen (sealed as) := by
  rw [sealed_eq, sealed_eq] at htake hdrop
  by_cases hall : as.length ≤ k
  · -- the bytes themselves are in front of the window
    refine Or.inl ?_
    have := congrArg (List.take as.length) htake
    rw [List.take_take, List.take_take, min_eq_left hall, List.take_left' rfl,
      List.take_left' hlen.symm] at this
    exact this
  · have hfront : as.take k = bs.take k := by
      rwa [List.take_append_of_le_length (by omega), List.take_append_of_le_length (by omega)] at htake
    by_cases hin : k + 4 ≤ as.length
    · rw [List.drop_append_of_le_length hin, List.drop_append_of_le_length (hlen ▸ hin)] at hdrop
      obtain ⟨hbehind, hdigest⟩ := List.append_inj' hdrop (by simp)
      exact Or.inl (eq_of_window_inside hlen hfront hbehind (plain_inj_of_digest hdigest))
    · have hx : (as.drop k).length = as.length - k := List.length_drop
      have hy : (bs.drop k).length = as.length - k := by rw [List.length_drop, hlen]
      have hpast : ∀ cs digest : List UInt8, cs.length = as.length →
          (cs ++ digest).drop (k + 4) = digest.drop (4 - (as.drop k).length) := by
        intro cs digest hcs
        rw [List.drop_append, List.drop_eq_nil_of_le (by omega), List.nil_append, hcs, hx,
          show k + 4 - as.length = 4 - (as.length - k) by omega]
      rw [hpast as _ rfl, hpast bs _ hlen.symm] at hdrop
      have hacross : as.drop k = bs.drop k ∨
          ∃ x₀ x₁, as.drop k = [x₀, x₁] ∧ bs.drop k = [x₀ ^^^ 0x61, x₁ ^^^ 0xD8] := by
        refine @eq_or_unseen_of_window_across (as.take k) _ _ (by rw [hx, hy]) (by omega) (by omega) ?_
        nth_rewrite 2 [hfront]
        rwa [List.take_append_drop, List.take_append_drop]
      rcases hacross with heq | ⟨x₀, x₁, hxs, hys⟩
      · left
        rw [← List.take_append_drop k as, hfront, heq, List.take_append_drop]
      · right
        refine ⟨by rw [hxs] at hx; simp at hx; omega, ?_⟩
        rw [← List.take_append_drop k as, ← List.take_append_drop k bs, hxs, hys, ← hfront]
        exact sealed_unseen (as.take k) x₀ x₁

end Sealed

end LuspUpload.Hash.CRC32
