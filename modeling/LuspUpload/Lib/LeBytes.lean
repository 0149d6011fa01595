import Mathlib.Data.List.Basic
import Mathlib.Algebra.Ring.Nat

/-!
# Lib.LeBytes — fixed-width little-endian integers

`leBytes w n` is the `w`-byte little-endian image of `n` (taken modulo `256 ^ w`), `leNat` reads
bytes back: an image gives the number modulo the width.
-/

namespace LuspUpload.Lib

/-- The `w` low bytes of `n`, least significant first. -/
def leBytes : ℕ → ℕ → List UInt8
  | 0, _ => []
  | w + 1, n => UInt8.ofNat n :: leBytes w (n / 256)

/-- The number whose little-endian bytes are given. -/
def leNat : List UInt8 → ℕ
  | [] => 0
  | b :: bs => b.toNat + 256 * leNat bs

@[simp] theorem leBytes_zero (n : ℕ) : leBytes 0 n = [] := rfl

@[simp] theorem leNat_nil : leNat [] = 0 := rfl

@[simp] theorem leBytes_length (w n : ℕ) : (leBytes w n).length = w := by
  induction w generalizing n with
  | zero => rfl
  | succ w ih => simp [leBytes, ih]

/-- Reading back an image gives the number modulo the width. -/
theorem leNat_leBytes (w n : ℕ) : leNat (leBytes w n) = n % 256 ^ w := by
  induction w generalizing n with
  | zero => simp [Nat.mod_one]
  | succ w ih =>
    have h8 : (UInt8.ofNat n).toNat = n % 256 := by simp
    rw [leBytes, leNat, ih, h8, pow_succ, Nat.mul_comm (256 ^ w) 256, Nat.mod_mul]

theorem leNat_leBytes_of_lt {w n : ℕ} (h : n < 256 ^ w) : leNat (leBytes w n) = n := by
  rw [leNat_leBytes, Nat.mod_eq_of_lt h]

theorem leNat_lt (bs : List UInt8) : leNat bs < 256 ^ bs.length := by
  induction bs with
  | nil => simp
  | cons b bs ih =>
    have hb := b.toNat_lt
    rw [leNat, List.length_cons, pow_succ]
    omega

/-- Bytes are the image of their number. -/
theorem leBytes_leNat (bs : List UInt8) : leBytes bs.length (leNat bs) = bs := by
  induction bs with
  | nil => rfl
  | cons b bs ih =>
    have hb := b.toNat_lt
    have hlow : UInt8.ofNat (b.toNat + 256 * leNat bs) = b := by
      apply UInt8.toNat_inj.mp
      rw [UInt8.toNat_ofNat']
      omega
    have hhigh : (b.toNat + 256 * leNat bs) / 256 = leNat bs := by omega
    rw [leNat, List.length_cons, leBytes, hlow, hhigh, ih]

theorem leBytes_mod (w n : ℕ) : leBytes w (n % 256 ^ w) = leBytes w n := by
  have hback := leBytes_leNat (leBytes w n)
  rwa [leBytes_length, leNat_leBytes] at hback

/-- The first bytes of an image are the image at their own width. -/
theorem take_leBytes {v w n : ℕ} (h : v ≤ w) : (leBytes w n).take v = leBytes v n := by
  induction v generalizing w n with
  | zero => rfl
  | succ v ih =>
    obtain ⟨w, rfl⟩ := Nat.exists_eq_add_of_le' (Nat.zero_lt_of_lt h)
    rw [leBytes, leBytes, List.take_succ_cons, ih (by omega)]

end LuspUpload.Lib
