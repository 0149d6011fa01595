import LuspUpload.Lib.LeBytes
import Mathlib.Tactic.Common
import Mathlib.Algebra.Order.Ring.Nat

/-!
# Lib.Crc — reflected cyclic redundancy checks

The register of a reflected CRC over a polynomial `p` of width `w`, a bit at a time and a byte at a time.
Both steps are linear over exclusive or, which is what a table of the register after each byte rests on
(`bitSteps_low_byte`); they lose nothing when the top bit of `p` is set, so that two runs which differ in as
many bits as the register has end differently (`bytes_window`).
-/

namespace LuspUpload.Lib.Crc

variable {w : ℕ} (p : BitVec w)

/-- One bit: the register moves down, and the polynomial comes in when a one falls out. -/
def bitStep (c : BitVec w) : BitVec w := if c.getLsbD 0 then c >>> 1 ^^^ p else c >>> 1

/-- `n` bits. -/
def bitSteps : ℕ → BitVec w → BitVec w
  | 0, c => c
  | n + 1, c => bitSteps n (bitStep p c)

/-- One byte. -/
def byteStep (c : BitVec w) (b : UInt8) : BitVec w := bitSteps p 8 (c ^^^ BitVec.ofNat w b.toNat)

/-- A run of bytes. -/
def bytes (c : BitVec w) (bs : List UInt8) : BitVec w := bs.foldl (byteStep p) c

/-- The bytes as they come into the register, the first one lowest. -/
def word (w : ℕ) (bs : List UInt8) : BitVec w := BitVec.ofNat w (leNat bs)

@[simp] theorem bitSteps_zero (c : BitVec w) : bitSteps p 0 c = c := rfl

@[simp] theorem bytes_nil (c : BitVec w) : bytes p c [] = c := rfl

@[simp] theorem bytes_cons (c : BitVec w) (b : UInt8) (bs : List UInt8) :
    bytes p c (b :: bs) = bytes p (byteStep p c b) bs := rfl

theorem bytes_append (c : BitVec w) (as bs : List UInt8) :
    bytes p c (as ++ bs) = bytes p (bytes p c as) bs := List.foldl_append

theorem bitSteps_add (m n : ℕ) (c : BitVec w) : bitSteps p (m + n) c = bitSteps p n (bitSteps p m c) := by
  induction m generalizing c with
  | zero => rw [Nat.zero_add, bitSteps_zero]
  | succ m ih => rw [Nat.add_right_comm, bitSteps, bitSteps, ih]

/-! ### Linearity -/

theorem bitStep_xor (c d : BitVec w) : bitStep p (c ^^^ d) = bitStep p c ^^^ bitStep p d := by
  unfold bitStep
  rw [BitVec.getLsbD_xor, BitVec.ushiftRight_xor_distrib]
  cases c.getLsbD 0 <;> cases d.getLsbD 0 <;>
    simp only [Bool.false_xor, Bool.true_xor, Bool.xor_self, Bool.not_false, Bool.false_eq_true, if_true,
      if_false]
  · ac_rfl
  · ac_rfl
  · -- the polynomial comes in twice
    have hcancel : c >>> 1 ^^^ p ^^^ (d >>> 1 ^^^ p) = c >>> 1 ^^^ d >>> 1 ^^^ (p ^^^ p) := by ac_rfl
    rw [hcancel, BitVec.xor_self, BitVec.xor_zero]

theorem bitSteps_xor (n : ℕ) (c d : BitVec w) :
    bitSteps p n (c ^^^ d) = bitSteps p n c ^^^ bitSteps p n d := by
  induction n generalizing c d with
  | zero => rfl
  | succ n ih => rw [bitSteps, bitSteps, bitSteps, bitStep_xor, ih]

/-- A register whose low bits are clear only moves down. -/
theorem bitSteps_of_low (n : ℕ) {c : BitVec w} (h : ∀ i < n, c.getLsbD i = false) :
    bitSteps p n c = c >>> n := by
  induction n generalizing c with
  | zero => rw [bitSteps_zero, BitVec.ushiftRight_zero]
  | succ n ih =>
    have hstep : bitStep p c = c >>> 1 := by
      rw [bitStep, if_neg]
      rw [h 0 (by omega)]
      exact Bool.false_ne_true
    have hlow : ∀ i < n, (c >>> 1).getLsbD i = false := by
      intro i hi
      rw [BitVec.getLsbD_ushiftRight]
      exact h (1 + i) (by omega)
    rw [bitSteps, hstep, ih hlow, ← BitVec.shiftRight_add, Nat.add_comm]

theorem getLsbD_255 (w i : ℕ) : (BitVec.ofNat w 255).getLsbD i = decide (i < w ∧ i < 8) := by
  rw [BitVec.getLsbD_ofNat, show (255 : ℕ) = 2 ^ 8 - 1 from rfl, Nat.testBit_two_pow_sub_one,
    ← Bool.decide_and]

/-- The lowest byte goes its own way: this is what a table for each place of a byte rests on. -/
theorem bitSteps_low_byte (n : ℕ) (c : BitVec w) :
    bitSteps p (8 + n) c = bitSteps p (8 + n) (c &&& BitVec.ofNat w 255) ^^^ bitSteps p n (c >>> 8) := by
  set high := c &&& ~~~ BitVec.ofNat w 255 with hhigh
  have hsplit : c = c &&& BitVec.ofNat w 255 ^^^ high := by
    ext i hi
    rw [hhigh, BitVec.getElem_xor, BitVec.getElem_and, BitVec.getElem_and, BitVec.getElem_not]
    cases (c)[i] <;> cases (BitVec.ofNat w 255)[i] <;> rfl
  have hlow : ∀ i < 8, high.getLsbD i = false := by
    intro i hi
    rw [hhigh, BitVec.getLsbD_and, BitVec.getLsbD_not, getLsbD_255]
    by_cases hw : i < w <;> simp [hw, hi]
  have hshift : high >>> 8 = c >>> 8 := by
    apply BitVec.eq_of_getLsbD_eq
    intro i _
    rw [hhigh, BitVec.getLsbD_ushiftRight, BitVec.getLsbD_ushiftRight, BitVec.getLsbD_and,
      BitVec.getLsbD_not,
      getLsbD_255]
    by_cases hw : 8 + i < w
    · simp [hw]
    · simp [BitVec.getLsbD_of_ge c (8 + i) (by omega)]
  conv_lhs => rw [hsplit]
  rw [bitSteps_xor, bitSteps_add p 8 n high, bitSteps_of_low p 8 hlow, hshift]

/-! ### Words of bytes -/

@[simp] theorem word_nil : word w [] = 0#w := rfl

/-- The first byte stands lowest. -/
theorem word_cons (b : UInt8) (bs : List UInt8) :
    word w (b :: bs) = BitVec.ofNat w b.toNat ^^^ word w bs <<< 8 := by
  apply BitVec.eq_of_getLsbD_eq
  intro i hi
  have hb := b.toNat_lt
  rw [word, leNat, Nat.add_comm, BitVec.getLsbD_ofNat, Nat.testBit_two_pow_mul_add (i := 8) _ hb,
    BitVec.getLsbD_xor, BitVec.getLsbD_shiftLeft, BitVec.getLsbD_ofNat, word, BitVec.getLsbD_ofNat]
  by_cases hlow : i < 8
  · simp [hi, hlow]
  · have hclear : b.toNat.testBit i = false :=
      Nat.testBit_lt_two_pow (hb.trans_le (Nat.pow_le_pow_right (by omega) (by omega)))
    simp [hi, hlow, hclear, show i - 8 < w by omega]

/-- A word with room for one more byte comes back down. -/
theorem word_shiftLeft_shiftRight {bs : List UInt8} (h : 8 * bs.length + 8 ≤ w) :
    word w bs <<< 8 >>> 8 = word w bs := by
  apply BitVec.eq_of_getLsbD_eq
  intro i hi
  have hlt : leNat bs < 2 ^ (8 * bs.length) := by
    rw [pow_mul]
    exact leNat_lt bs
  rw [BitVec.getLsbD_ushiftRight, BitVec.getLsbD_shiftLeft, word, BitVec.getLsbD_ofNat,
    BitVec.getLsbD_ofNat]
  by_cases htop : 8 + i < w
  · simp [htop, hi]
  · have hclear : (leNat bs).testBit i = false :=
      Nat.testBit_lt_two_pow (hlt.trans_le (Nat.pow_le_pow_right (by omega) (by omega)))
    simp [hclear]

/-- Bytes that fit into the register can come in all at once. -/
theorem bytes_eq_bitSteps (c : BitVec w) {bs : List UInt8} (h : 8 * bs.length ≤ w) :
    bytes p c bs = bitSteps p (8 * bs.length) (c ^^^ word w bs) := by
  induction bs generalizing c with
  | nil => rw [bytes_nil, word_nil, BitVec.xor_zero, List.length_nil, Nat.mul_zero, bitSteps_zero]
  | cons b bs ih =>
    rw [List.length_cons, Nat.mul_add, Nat.mul_one] at h ⊢
    have hlow : ∀ i < 8, (word w bs <<< 8).getLsbD i = false := by
      intro i hi
      rw [BitVec.getLsbD_shiftLeft]
      simp [hi]
    have hdown : bitSteps p 8 (word w bs <<< 8) = word w bs := by
      rw [bitSteps_of_low p 8 hlow, word_shiftLeft_shiftRight h]
    rw [bytes_cons, ih _ (by omega), byteStep, word_cons, ← BitVec.xor_assoc, Nat.add_comm, bitSteps_add,
      bitSteps_xor p 8 _ (word w bs <<< 8), hdown]

theorem word_inj {as bs : List UInt8} (hlen : as.length = bs.length) (hw : 8 * as.length ≤ w)
    (h : word w as = word w bs) : as = bs := by
  have hlt : ∀ cs : List UInt8, 8 * cs.length ≤ w → leNat cs < 2 ^ w := by
    intro cs hcs
    refine (leNat_lt cs).trans_le ?_
    rw [show (256 : ℕ) = 2 ^ 8 from rfl, ← pow_mul]
    exact Nat.pow_le_pow_right (by omega) hcs
  have hnat := congrArg BitVec.toNat h
  rw [word, word, BitVec.toNat_ofNat, BitVec.toNat_ofNat, Nat.mod_eq_of_lt (hlt as hw),
    Nat.mod_eq_of_lt (hlt bs (hlen ▸ hw))] at hnat
  rw [← leBytes_leNat as, ← leBytes_leNat bs, hnat, hlen]

/-! ### Differences -/

/-- The bytes `bs` with the bits of `ds` turned over from the place `k` on. -/
def xorAt (k : ℕ) (ds bs : List UInt8) : List UInt8 :=
  bs.take k ++ List.zipWith (· ^^^ ·) ((bs.drop k).take ds.length) ds ++ bs.drop (k + ds.length)

theorem leBytes_xor (n a b : ℕ) :
    leBytes n (a ^^^ b) = List.zipWith (· ^^^ ·) (leBytes n a) (leBytes n b) := by
  induction n generalizing a b with
  | zero => rfl
  | succ n ih =>
    have hbyte : UInt8.ofNat (a ^^^ b) = UInt8.ofNat a ^^^ UInt8.ofNat b := by
      apply UInt8.toNat_inj.mp
      rw [UInt8.toNat_xor, UInt8.toNat_ofNat', UInt8.toNat_ofNat', UInt8.toNat_ofNat']
      exact Nat.xor_mod_two_pow
    have hrest : (a ^^^ b) / 256 = a / 256 ^^^ b / 256 := Nat.xor_div_two_pow (n := 8)
    rw [leBytes, leBytes, leBytes, List.zipWith_cons_cons, hbyte, hrest, ih]

theorem word_zipWith {as ds : List UInt8} (h : as.length = ds.length) :
    word w (List.zipWith (· ^^^ ·) as ds) = word w as ^^^ word w ds := by
  induction as generalizing ds with
  | nil =>
    obtain rfl := List.length_eq_zero_iff.mp h.symm
    rw [List.zipWith_nil_left, word_nil, BitVec.xor_zero]
  | cons a as ih =>
    obtain ⟨d, ds, rfl⟩ := List.exists_cons_of_length_eq_add_one h.symm
    have hbyte : BitVec.ofNat w (a ^^^ d).toNat = BitVec.ofNat w a.toNat ^^^ BitVec.ofNat w d.toNat := by
      rw [UInt8.toNat_xor, BitVec.ofNat_xor]
    rw [List.zipWith_cons_cons, word_cons, word_cons, word_cons, hbyte, ih (Nat.succ.inj h),
      BitVec.shiftLeft_xor_distrib]
    ac_rfl

/-- The difference that two runs of bytes make. -/
theorem bytes_xor_bytes (c : BitVec w) {as bs : List UInt8} (hlen : as.length = bs.length)
    (hw : 8 * as.length ≤ w) :
    bytes p c as ^^^ bytes p c bs = bitSteps p (8 * as.length) (word w as ^^^ word w bs) := by
  have hcancel : c ^^^ word w as ^^^ (c ^^^ word w bs) = word w as ^^^ word w bs := by
    have hcomm : c ^^^ word w as ^^^ (c ^^^ word w bs) = c ^^^ c ^^^ (word w as ^^^ word w bs) := by ac_rfl
    rw [hcomm, BitVec.xor_self, BitVec.zero_xor]
  rw [bytes_eq_bitSteps p c hw, bytes_eq_bitSteps p c (hlen ▸ hw), ← hlen, ← bitSteps_xor, hcancel]

/-! ### Nothing is lost -/

/-- One bit back, when the top bit of the polynomial is set: it tells whether the polynomial came in. -/
def bitBack (c : BitVec w) : BitVec w := if c.getLsbD (w - 1) then (c ^^^ p) <<< 1 ||| 1#w else c <<< 1

/-- `n` bits back. -/
def bitBacks : ℕ → BitVec w → BitVec w
  | 0, c => c
  | n + 1, c => bitBack p (bitBacks n c)

section Back

variable {p} (hp : p.getLsbD (w - 1) = true)

include hp

theorem bitBack_bitStep (c : BitVec w) : bitBack p (bitStep p c) = c := by
  have hw : 0 < w := by
    have := BitVec.lt_of_getLsbD hp
    omega
  have htop : (c >>> 1).getLsbD (w - 1) = false := by
    rw [BitVec.getLsbD_ushiftRight]
    exact BitVec.getLsbD_of_ge c _ (by omega)
  -- what comes back is all but the lowest bit
  have hback : ∀ i < w, (c >>> 1 <<< 1).getLsbD i = (decide (i ≠ 0) && c.getLsbD i) := by
    intro i hi
    rw [BitVec.getLsbD_shiftLeft, BitVec.getLsbD_ushiftRight]
    rcases i with _ | i
    · simp
    · simp [hi, Nat.add_comm 1 i]
  apply BitVec.eq_of_getLsbD_eq
  intro i hi
  by_cases hbit : c.getLsbD 0
  · have hcancel : c >>> 1 ^^^ p ^^^ p = c >>> 1 := by
      rw [BitVec.xor_assoc, BitVec.xor_self, BitVec.xor_zero]
    rw [bitStep, if_pos hbit, bitBack, if_pos (by rw [BitVec.getLsbD_xor, htop, hp]; rfl), hcancel,
      BitVec.getLsbD_or, hback i hi, BitVec.getLsbD_one]
    rcases i with _ | i
    · simp [hw, hbit]
    · simp
  · rw [bitStep, if_neg hbit, bitBack, if_neg (by rw [htop]; exact Bool.false_ne_true), hback i hi]
    rcases i with _ | i
    · simpa using hbit
    · simp

theorem bitBacks_bitSteps (n : ℕ) (c : BitVec w) : bitBacks p n (bitSteps p n c) = c := by
  induction n generalizing c with
  | zero => rfl
  | succ n ih => rw [bitSteps, bitBacks, ih, bitBack_bitStep hp]

theorem bitSteps_inj {n : ℕ} {c d : BitVec w} (h : bitSteps p n c = bitSteps p n d) : c = d := by
  rw [← bitBacks_bitSteps hp n c, h, bitBacks_bitSteps hp n d]

theorem bytes_inj {c d : BitVec w} {bs : List UInt8} (h : bytes p c bs = bytes p d bs) : c = d := by
  induction bs generalizing c d with
  | nil => exact h
  | cons b bs ih => exact (BitVec.xor_left_inj _).mp (bitSteps_inj hp (ih h))

/-- **No window is lost**: runs of equal bytes but for as many as fit into the register end differently. -/
theorem bytes_window {c : BitVec w} {as bs behind : List UInt8} (hlen : as.length = bs.length)
    (hw : 8 * as.length ≤ w) (h : bytes p c (as ++ behind) = bytes p c (bs ++ behind)) : as = bs := by
  rw [bytes_append, bytes_append] at h
  have hhere := bytes_inj hp h
  rw [bytes_eq_bitSteps p c hw, bytes_eq_bitSteps p c (hlen ▸ hw), hlen] at hhere
  exact word_inj hlen hw ((BitVec.xor_right_inj c).mp (bitSteps_inj hp hhere))

end Back

end LuspUpload.Lib.Crc
