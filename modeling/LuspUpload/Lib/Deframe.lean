import Mathlib.Data.List.Basic
import Mathlib.Data.List.Infix

/-!
# Lib.Deframe — incremental parsers of byte streams

A `Framer` takes one item off the front of a buffer, or reports that the buffer holds none yet; more
input never changes an item already there.  So a cut in the stream does not show: what stands before it is
read first, and the rest goes on with what that left (`all_append`).  With an encoder whose
images the framer takes off, and no proper prefix of them, a cut stream of encodings gives the
items that are whole and the bytes of the last one (`all_take`).
-/

namespace LuspUpload.Lib

universe u v

/-- One step of an incremental parser: an item and the rest of the buffer. -/
structure Framer (β : Type u) (γ : Type v) where
  next : List β → Option (γ × List β)
  shorter : ∀ {b x r}, next b = some (x, r) → r.length < b.length
  stable : ∀ {b x r}, next b = some (x, r) → ∀ c, next (b ++ c) = some (x, r ++ c)

namespace Framer

variable {β : Type u} {γ : Type v} (F : Framer β γ)

/-- At most `n` items off the front. -/
def take : ℕ → List β → List γ × List β
  | 0, b => ([], b)
  | n + 1, b =>
    match F.next b with
    | none => ([], b)
    | some (x, r) => (x :: (take n r).1, (take n r).2)

/-- All items of a buffer and the bytes left. -/
def all (b : List β) : List γ × List β := F.take b.length b

variable {F}

theorem take_of_none {b : List β} (h : F.next b = none) (n : ℕ) : F.take n b = ([], b) := by
  cases n with
  | zero => rfl
  | succ n => simp [take, h]

theorem next_nil : F.next [] = none := by
  rcases h : F.next [] with _ | ⟨x, r⟩
  · rfl
  · exact absurd (F.shorter h) (by simp)

/-- Fuel beyond the length of the buffer changes nothing. -/
theorem take_eq_all {n : ℕ} {b : List β} (h : b.length ≤ n) : F.take n b = F.all b := by
  have key : ∀ m b, b.length ≤ m → ∀ n, b.length ≤ n → F.take m b = F.take n b := by
    intro m
    induction m with
    | zero =>
      intro b hb n _
      have : b = [] := List.length_eq_zero_iff.mp (Nat.le_zero.mp hb)
      subst this
      rw [take_of_none next_nil, take_of_none next_nil]
    | succ m ih =>
      intro b hb n hn
      rcases hnext : F.next b with _ | ⟨x, r⟩
      · rw [take_of_none hnext, take_of_none hnext]
      · have hlt := F.shorter hnext
        obtain ⟨k, rfl⟩ := Nat.exists_eq_add_of_le' (show 1 ≤ n by omega)
        simp only [take, hnext]
        rw [ih r (by omega) k (by omega)]
  exact key n b h b.length le_rfl

theorem all_of_none {b : List β} (h : F.next b = none) : F.all b = ([], b) := take_of_none h _

theorem all_of_some {b r : List β} {x : γ} (h : F.next b = some (x, r)) :
    F.all b = (x :: (F.all r).1, (F.all r).2) := by
  have hlt := F.shorter h
  obtain ⟨k, hk⟩ := Nat.exists_eq_add_of_le' (show 1 ≤ b.length by omega)
  rw [all, hk]
  simp only [take, h]
  rw [take_eq_all (by omega)]

/-- What is left holds no item. -/
theorem next_rest (b : List β) : F.next (F.all b).2 = none := by
  induction h : b.length using Nat.strong_induction_on generalizing b with
  | _ n ih =>
    rcases hnext : F.next b with _ | ⟨x, r⟩
    · rw [all_of_none hnext]
      exact hnext
    · rw [all_of_some hnext]
      exact ih r.length (h ▸ F.shorter hnext) r rfl

/-- The items of `b ++ c` are those of `b`, then those of what `b` left and `c`. -/
theorem all_append (b c : List β) : F.all (b ++ c) =
    ((F.all b).1 ++ (F.all ((F.all b).2 ++ c)).1, (F.all ((F.all b).2 ++ c)).2) := by
  induction h : b.length using Nat.strong_induction_on generalizing b with
  | _ n ih =>
    rcases hnext : F.next b with _ | ⟨x, r⟩
    · rw [all_of_none hnext]
      simp
    · rw [all_of_some hnext, all_of_some (F.stable hnext c),
        ih r.length (h ▸ F.shorter hnext) r rfl]
      simp

theorem all_append_append (b c d : List β) : F.all (b ++ (c ++ d)) =
    ((F.all (b ++ c)).1 ++ (F.all ((F.all (b ++ c)).2 ++ d)).1,
      (F.all ((F.all (b ++ c)).2 ++ d)).2) := by
  rw [← List.append_assoc]
  exact all_append _ _

/-! ### Streams of encodings -/

/-- The items whose encodings lie wholly inside the first `t` bytes of the stream. -/
def whole (enc : γ → List β) : List γ → ℕ → List γ
  | [], _ => []
  | x :: xs, t =>
    if (enc x).length ≤ t then x :: whole enc xs (t - (enc x).length) else []

theorem whole_prefix (enc : γ → List β) (xs : List γ) (t : ℕ) : whole enc xs t <+: xs := by
  induction xs generalizing t with
  | nil => exact List.nil_prefix
  | cons x xs ih =>
    rw [whole]
    split_ifs
    · exact (List.prefix_cons_inj x).mpr (ih _)
    · exact List.nil_prefix

/-- The items whose encodings come first are whole. -/
theorem whole_append (enc : γ → List β) (xs ys : List γ) (t : ℕ) :
    whole enc (xs ++ ys) ((xs.flatMap enc).length + t) = xs ++ whole enc ys t := by
  induction xs with
  | nil => rw [List.flatMap_nil, List.length_nil, Nat.zero_add]; rfl
  | cons x xs ih =>
    have hrest : ((x :: xs).flatMap enc).length + t - (enc x).length = (xs.flatMap enc).length + t := by
      rw [List.flatMap_cons, List.length_append]
      omega
    rw [List.cons_append, whole, hrest, ih, List.cons_append, if_pos]
    rw [List.flatMap_cons, List.length_append]
    omega

/-- Behind the whole items of a cut stream there is a part of the next encoding, if anything. -/
theorem drop_whole (enc : γ → List β) (xs : List γ) (t : ℕ) :
    ((xs.flatMap enc).take t).drop ((whole enc xs t).flatMap enc).length = [] ∨
      ∃ x ∈ xs, ∃ k < (enc x).length,
        ((xs.flatMap enc).take t).drop ((whole enc xs t).flatMap enc).length = (enc x).take k := by
  induction xs generalizing t with
  | nil => simp
  | cons x xs ih =>
    rw [List.flatMap_cons, whole]
    split_ifs with hle
    · have hdrop : ((enc x ++ xs.flatMap enc).take t).drop
          ((x :: whole enc xs (t - (enc x).length)).flatMap enc).length =
          ((xs.flatMap enc).take (t - (enc x).length)).drop
            ((whole enc xs (t - (enc x).length)).flatMap enc).length := by
        rw [List.take_append, List.take_of_length_le hle, List.flatMap_cons, List.length_append,
          List.drop_length_add_append]
      rw [hdrop]
      refine (ih (t - (enc x).length)).imp_right ?_
      rintro ⟨y, hy, k, hk, heq⟩
      exact ⟨y, List.mem_cons_of_mem x hy, k, hk, heq⟩
    · refine Or.inr ⟨x, List.mem_cons_self .., t, by omega, ?_⟩
      exact List.take_append_of_le_length (by omega)

/-- The framer takes encodings off, and finds nothing in a proper prefix of one. -/
structure Undoes (F : Framer β γ) (enc : γ → List β) (P : γ → Prop) : Prop where
  complete : ∀ x, P x → ∀ c, F.next (enc x ++ c) = some (x, c)
  partly : ∀ x, P x → ∀ t < (enc x).length, F.next ((enc x).take t) = none

/-- **A cut stream of encodings** gives the whole items and leaves the bytes of the last one. -/
theorem Undoes.all_take {enc : γ → List β} {P : γ → Prop} (h : F.Undoes enc P) {xs : List γ}
    (hxs : ∀ x ∈ xs, P x) (t : ℕ) :
    F.all ((xs.flatMap enc).take t) =
      (whole enc xs t,
        ((xs.flatMap enc).take t).drop ((whole enc xs t).flatMap enc).length) := by
  induction xs generalizing t with
  | nil => simpa [whole] using all_of_none next_nil
  | cons x xs ih =>
    have hx : P x := hxs x (by simp)
    rw [List.flatMap_cons, whole]
    split_ifs with hle
    · have htake : (enc x ++ xs.flatMap enc).take t =
          enc x ++ (xs.flatMap enc).take (t - (enc x).length) := by
        rw [List.take_append, List.take_of_length_le hle]
      rw [htake, all_of_some (h.complete x hx _), ih (fun y hy => hxs y (by simp [hy]))]
      simp [List.drop_append]
    · have htake : (enc x ++ xs.flatMap enc).take t = (enc x).take t :=
        List.take_append_of_le_length (by omega)
      rw [htake, all_of_none (h.partly x hx t (by omega))]
      rfl

end Framer

end LuspUpload.Lib
