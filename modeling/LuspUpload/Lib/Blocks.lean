import Mathlib.Data.List.Basic
import Mathlib.Tactic.Common
import Mathlib.Algebra.Order.Ring.Nat

/-!
# Lib.Blocks — a sequence taken in by blocks

A state that takes in blocks of `n` elements, and a buffer for what is left over.  One element after
another is the plain way (`feeds`); whole blocks past the buffer are the same (`feeds_block`), and so are
any cuts (`feeds_append`).  `store` is an array that is written one place after another.
-/

namespace LuspUpload.Lib.Blocks

variable {α σ : Type}

section Feeds

variable (compress : σ → List α → σ) (n : ℕ)

/-- One element: into the buffer, and on with the block when it is full. -/
def feed (s : σ × List α) (x : α) : σ × List α :=
  if s.2.length + 1 = n then (compress s.1 (s.2 ++ [x]), []) else (s.1, s.2 ++ [x])

/-- One element after another. -/
def feeds (s : σ × List α) (xs : List α) : σ × List α := xs.foldl (feed compress n) s

variable {compress n} {s : σ × List α} {xs ys : List α}

@[simp] theorem feeds_nil : feeds compress n s [] = s := rfl

theorem feeds_cons (x : α) : feeds compress n s (x :: xs) = feeds compress n (feed compress n s x) xs := rfl

theorem feeds_append : feeds compress n s (xs ++ ys) = feeds compress n (feeds compress n s xs) ys :=
  List.foldl_append

/-- Elements that do not fill the buffer. -/
theorem feeds_of_lt (h : s.2.length + xs.length < n) : feeds compress n s xs = (s.1, s.2 ++ xs) := by
  induction xs generalizing s with
  | nil => rw [feeds_nil, List.append_nil]
  | cons x xs ih =>
    rw [List.length_cons] at h
    have hbuffer : (s.2 ++ [x]).length = s.2.length + 1 := by rw [List.length_append, List.length_singleton]
    rw [feeds_cons, feed, if_neg (by omega), ih (by rw [hbuffer]; omega), List.append_assoc]
    rfl

/-- Elements that fill it. -/
theorem feeds_of_eq (hroom : s.2.length < n) (h : s.2.length + xs.length = n) :
    feeds compress n s xs = (compress s.1 (s.2 ++ xs), []) := by
  obtain ⟨ys, y, rfl⟩ : ∃ ys y, xs = ys ++ [y] := by
    have hne : xs ≠ [] := by
      rintro rfl
      rw [List.length_nil] at h
      omega
    exact ⟨xs.dropLast, xs.getLast hne, (List.dropLast_append_getLast hne).symm⟩
  rw [List.length_append, List.length_singleton] at h
  have hfull : (s.2 ++ ys).length + 1 = n := by
    rw [List.length_append]
    omega
  have hfirst : feeds compress n s ys = (s.1, s.2 ++ ys) := feeds_of_lt (by omega)
  rw [feeds_append, hfirst, feeds_cons, feeds_nil, feed, if_pos hfull, List.append_assoc]

/-- A whole block past the empty buffer. -/
theorem feeds_block (hn : 0 < n) {a : σ} {block : List α} (h : block.length = n) :
    feeds compress n (a, []) (block ++ xs) = feeds compress n (compress a block, []) xs := by
  have hfull : feeds compress n (a, []) block = (compress a block, []) := feeds_of_eq hn
      ((Nat.zero_add _).trans h)
  rw [feeds_append, hfull]

/-- What is left in the buffer. -/
theorem length_feeds (hn : 0 < n) {a : σ} : (feeds compress n (a, []) xs).2.length = xs.length % n := by
  have hstep : ∀ (ys : List α) (s : σ × List α), s.2.length < n →
      (feeds compress n s ys).2.length = (s.2.length + ys.length) % n := by
    intro ys
    induction ys with
    | nil =>
      intro s hs
      rw [feeds_nil, List.length_nil, Nat.add_zero, Nat.mod_eq_of_lt hs]
    | cons y ys ih =>
      intro s hs
      rw [feeds_cons, List.length_cons]
      by_cases hfull : s.2.length + 1 = n
      · rw [feed, if_pos hfull, ih (compress s.1 (s.2 ++ [y]), []) hn,
          show s.2.length + (ys.length + 1) = ys.length + n by omega, Nat.add_mod_right]
        exact congrArg (· % n) (Nat.zero_add ys.length)
      · have hbuffer : (s.2 ++ [y]).length = s.2.length + 1 := by
          rw [List.length_append, List.length_singleton]
        rw [feed, if_neg hfull, ih _ (by rw [hbuffer]; omega), hbuffer]
        congr 1
        omega
  rw [hstep xs (a, []) hn, List.length_nil, Nat.zero_add]

theorem feeds_blocks (hn : 0 < n) {a : σ} {bs : List (List α)} (h : ∀ b ∈ bs, b.length = n) :
    feeds compress n (a, []) bs.flatten = (bs.foldl compress a, []) := by
  induction bs generalizing a with
  | nil => rfl
  | cons b bs ih =>
    rw [List.flatten_cons, feeds_block hn (h b List.mem_cons_self), List.foldl_cons,
      ih fun c hc => h c (List.mem_cons_of_mem _ hc)]

end Feeds

/-- The whole blocks of a sequence. -/
def blocks (n : ℕ) (xs : List α) : List (List α) :=
  (List.range (xs.length / n)).map fun i => (xs.drop (n * i)).take n

theorem length_of_mem_blocks {n : ℕ} {xs b : List α} (h : b ∈ blocks n xs) : b.length = n := by
  obtain ⟨i, hi, rfl⟩ := List.mem_map.mp h
  have hlt := List.mem_range.mp hi
  have hle : n * (i + 1) ≤ xs.length := (Nat.mul_le_mul_left n hlt).trans (Nat.mul_div_le xs.length n)
  rw [Nat.mul_add, Nat.mul_one] at hle
  rw [List.length_take, List.length_drop]
  omega

theorem flatten_blocks {n : ℕ} {xs : List α} (h : n ∣ xs.length) : (blocks n xs).flatten = xs := by
  have hfirst : ∀ k, ((List.range k).map fun i => (xs.drop (n * i)).take n).flatten = xs.take (n * k) := by
    intro k
    induction k with
    | zero => rw [Nat.mul_zero, List.take_zero]; rfl
    | succ k ih =>
      rw [List.range_succ, List.map_append, List.flatten_append, ih, Nat.mul_add, Nat.mul_one,
        List.take_add]
      simp
  rw [blocks, hfirst, Nat.mul_div_cancel' h, List.take_length]

/-! ### Arrays -/

/-- Elements written one after another from the place `k` on. -/
def store : List α → ℕ → List α → List α
  | l, _, [] => l
  | l, k, x :: xs => store (l.set k x) (k + 1) xs

theorem store_eq {l xs : List α} {k : ℕ} (h : k + xs.length ≤ l.length) :
    store l k xs = l.take k ++ xs ++ l.drop (k + xs.length) := by
  induction xs generalizing l k with
  | nil => rw [store, List.append_nil, List.length_nil, Nat.add_zero, List.take_append_drop]
  | cons x xs ih =>
    rw [List.length_cons] at h
    have hset : l.set k x = l.take k ++ x :: l.drop (k + 1) := List.set_eq_take_append_cons_drop.trans
        (if_pos (by omega))
    have hfront : (l.take k).length = k := List.length_take_of_le (by omega)
    have htake : (l.set k x).take (k + 1) = l.take k ++ [x] := by
      rw [hset, List.take_append, hfront, List.take_take, min_eq_right (by omega), Nat.add_sub_cancel_left]
      rfl
    have hdrop : (l.set k x).drop (k + 1 + xs.length) = l.drop (k + (xs.length + 1)) := by
      rw [hset, List.drop_append, hfront, List.drop_eq_nil_of_le (by omega), List.nil_append,
        show k + 1 + xs.length - k = xs.length + 1 by omega, List.drop_succ_cons, List.drop_drop]
      congr 1
      omega
    rw [store, ih (by rw [List.length_set]; omega), htake, hdrop, List.append_assoc (l.take k)]
    rfl

@[simp] theorem length_store {l xs : List α} {k : ℕ} : (store l k xs).length = l.length := by
  induction xs generalizing l k with
  | nil => rfl
  | cons x xs ih => rw [store, ih, List.length_set]

end LuspUpload.Lib.Blocks
