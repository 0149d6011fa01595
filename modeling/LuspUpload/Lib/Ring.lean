import Mathlib.Data.List.Iterate
import Mathlib.Data.List.Nodup
import Mathlib.Logic.Function.Basic

/-!
# Lib.Ring — circular buffers with one free slot

`N` slots, a read and a write position.  The window runs from the read position up to the write
position, wrapping; a ring whose next write position is the read position is full, so at most
`N - 1` slots are in the window.  Positions are `Fin N`: an out-of-range position cannot be built.
-/

namespace LuspUpload.Lib

/-- `N` slots with a read and a write position. -/
structure Ring (N : ℕ) (α : Type*) where
  slots : Fin N → α
  readPos : Fin N
  writePos : Fin N

namespace Ring

variable {N : ℕ} {α : Type*}

/-- The position after `i`, wrapping at the capacity. -/
def next (i : Fin N) : Fin N := ⟨(i.val + 1) % N, Nat.mod_lt _ i.pos⟩

/-- The number of slots in the window. -/
def len (r : Ring N α) : ℕ :=
  if r.readPos.val ≤ r.writePos.val then r.writePos.val - r.readPos.val
  else N - r.readPos.val + r.writePos.val

/-- Nothing in the window. -/
def Empty (r : Ring N α) : Prop := r.readPos = r.writePos

/-- One more write would make the positions meet. -/
def Full (r : Ring N α) : Prop := next r.writePos = r.readPos

instance (r : Ring N α) : Decidable r.Empty := inferInstanceAs (Decidable (_ = _))
instance (r : Ring N α) : Decidable r.Full := inferInstanceAs (Decidable (_ = _))

/-- The positions from the read position up to the write position. -/
def window (r : Ring N α) : List (Fin N) := List.iterate next r.readPos r.len

/-- The contents of the window, oldest first. -/
def contents (r : Ring N α) : List α := r.window.map r.slots

/-- The content of the slot at the read position. -/
def head (r : Ring N α) : α := r.slots r.readPos

/-- Assign the slot at the write position and advance it. -/
def put (r : Ring N α) (x : α) : Ring N α :=
  { r with slots := Function.update r.slots r.writePos x, writePos := next r.writePos }

/-- Assign the slot at the read position. -/
def setHead (r : Ring N α) (x : α) : Ring N α :=
  { r with slots := Function.update r.slots r.readPos x }

/-- Advance the read position. -/
def advance (r : Ring N α) : Ring N α := { r with readPos := next r.readPos }

/-- Change one slot. -/
def modify (r : Ring N α) (i : Fin N) (f : α → α) : Ring N α :=
  { r with slots := Function.update r.slots i (f (r.slots i)) }

/-- Advance the write position over a slot that is assigned already. -/
def publish (r : Ring N α) : Ring N α := { r with writePos := next r.writePos }

/-! ### Positions -/

theorem iterate_next (k : ℕ) (i : Fin N) : (next^[k] i).val = (i.val + k) % N := by
  induction k generalizing i with
  | zero => simp [Nat.mod_eq_of_lt i.isLt]
  | succ k ih =>
    rw [Function.iterate_succ_apply, ih]
    simp only [next, Nat.mod_add_mod]
    congr 1
    omega

theorem len_lt (r : Ring N α) : r.len < N := by
  have := r.readPos.isLt
  have := r.writePos.isLt
  unfold len
  split_ifs <;> omega

/-- `len` steps lead from the read position to the write position. -/
theorem iterate_len (r : Ring N α) : next^[r.len] r.readPos = r.writePos := by
  have hr := r.readPos.isLt
  have hw := r.writePos.isLt
  apply Fin.ext
  rw [iterate_next]
  unfold len
  split_ifs with h
  · rw [Nat.add_sub_cancel' h, Nat.mod_eq_of_lt hw]
  · rw [show r.readPos.val + (N - r.readPos.val + r.writePos.val) = N + r.writePos.val by omega,
      Nat.add_mod_left, Nat.mod_eq_of_lt hw]

/-- The length is the only count below `N` that leads to the write position. -/
theorem len_unique {r : Ring N α} {k : ℕ} (hk : k < N) (h : next^[k] r.readPos = r.writePos) :
    r.len = k := by
  have hr := r.readPos.isLt
  have hv := congrArg Fin.val h
  rw [iterate_next] at hv
  unfold len
  rcases Nat.lt_or_ge (r.readPos.val + k) N with hlt | hge
  · rw [Nat.mod_eq_of_lt hlt] at hv
    rw [if_pos (by omega)]
    omega
  · have hm : (r.readPos.val + k) % N = r.readPos.val + k - N := by
      rw [Nat.mod_eq_sub_mod hge, Nat.mod_eq_of_lt (by omega)]
    rw [hm] at hv
    split_ifs <;> omega

theorem empty_iff_len {r : Ring N α} : r.Empty ↔ r.len = 0 := by
  constructor
  · intro h
    exact len_unique r.readPos.pos h
  · intro h
    have := r.iterate_len
    rw [h] at this
    exact this

theorem full_iff_len {r : Ring N α} : r.Full ↔ r.len + 1 = N := by
  have hlt := r.len_lt
  have hstep : next^[r.len + 1] r.readPos = next r.writePos := by
    rw [Function.iterate_succ_apply', r.iterate_len]
  constructor
  · intro h
    by_contra hne
    have hk : r.len + 1 < N := by omega
    have hv := congrArg Fin.val (hstep.trans h)
    rw [iterate_next] at hv
    have hr := r.readPos.isLt
    rcases Nat.lt_or_ge (r.readPos.val + (r.len + 1)) N with h1 | h1
    · rw [Nat.mod_eq_of_lt h1] at hv
      omega
    · rw [Nat.mod_eq_sub_mod h1, Nat.mod_eq_of_lt (by omega)] at hv
      omega
  · intro h
    refine hstep.symm.trans (Fin.ext ?_)
    rw [iterate_next, h, Nat.add_mod_right, Nat.mod_eq_of_lt r.readPos.isLt]

/-- Only a ring without a usable slot is empty and full. -/
theorem full_iff_of_empty {r : Ring N α} (h : r.Empty) : r.Full ↔ N = 1 := by
  rw [full_iff_len, empty_iff_len.mp h]
  omega

theorem len_put {r : Ring N α} (h : ¬ r.Full) (x : α) : (r.put x).len = r.len + 1 := by
  have hlt := r.len_lt
  refine len_unique ?_ ?_
  · rw [full_iff_len] at h
    omega
  · show next^[r.len + 1] r.readPos = next r.writePos
    rw [Function.iterate_succ_apply', r.iterate_len]

theorem len_advance {r : Ring N α} (h : ¬ r.Empty) : r.advance.len + 1 = r.len := by
  have hlt := r.len_lt
  have hpos : 0 < r.len := Nat.pos_of_ne_zero fun h0 => h (empty_iff_len.mpr h0)
  have : r.advance.len = r.len - 1 := by
    refine len_unique (by omega) ?_
    show next^[r.len - 1] (next r.readPos) = r.writePos
    rw [← Function.iterate_succ_apply, Nat.succ_eq_add_one, Nat.sub_add_cancel hpos, r.iterate_len]
  omega

/-! ### The window -/

@[simp] theorem length_window (r : Ring N α) : r.window.length = r.len := by
  simp [window]

@[simp] theorem length_contents (r : Ring N α) : r.contents.length = r.len := by
  simp [contents]

theorem window_of_empty {r : Ring N α} (h : r.Empty) : r.window = [] := by
  simp [window, empty_iff_len.mp h]

/-- A non-empty window starts at the read position. -/
theorem window_cons {r : Ring N α} (h : ¬ r.Empty) :
    r.window = r.readPos :: r.advance.window := by
  unfold window
  rw [← len_advance h]
  rfl

theorem iterate_snoc (f : α → α) (a : α) (n : ℕ) :
    List.iterate f a (n + 1) = List.iterate f a n ++ [f^[n] a] := by
  induction n generalizing a with
  | zero => rfl
  | succ n ih =>
    rw [List.iterate, ih]
    rfl

theorem window_put {r : Ring N α} (h : ¬ r.Full) (x : α) :
    (r.put x).window = r.window ++ [r.writePos] := by
  unfold window
  rw [len_put h, ← r.iterate_len, ← iterate_snoc]
  rfl

theorem mem_window {r : Ring N α} {i : Fin N} (h : i ∈ r.window) :
    ∃ k < r.len, i = next^[k] r.readPos := by
  obtain ⟨k, hk, rfl⟩ := List.mem_iterate.mp h
  exact ⟨k, hk, rfl⟩

theorem iterate_next_inj {i : Fin N} {j k : ℕ} (hj : j < N) (hk : k < N)
    (h : next^[j] i = next^[k] i) : j = k := by
  have hv := congrArg Fin.val h
  rw [iterate_next, iterate_next] at hv
  have hi := i.isLt
  have hmod : ∀ n < N, (i.val + n) % N = if i.val + n < N then i.val + n else i.val + n - N := by
    intro n hn
    split_ifs with hlt
    · exact Nat.mod_eq_of_lt hlt
    · rw [Nat.mod_eq_sub_mod (by omega), Nat.mod_eq_of_lt (by omega)]
  rw [hmod j hj, hmod k hk] at hv
  split_ifs at hv <;> omega

/-- The write position is outside the window. -/
theorem writePos_notMem_window (r : Ring N α) : r.writePos ∉ r.window := by
  intro h
  obtain ⟨k, hk, he⟩ := mem_window h
  rw [← r.iterate_len] at he
  have := iterate_next_inj r.len_lt (lt_trans hk r.len_lt) he
  omega

theorem nodup_window (r : Ring N α) : r.window.Nodup := by
  have key : ∀ n ≤ r.len, (List.iterate next r.readPos n).Nodup := by
    intro n
    induction n with
    | zero => simp
    | succ n ih =>
      intro hn
      rw [iterate_snoc, List.nodup_append]
      refine ⟨ih (by omega), by simp, ?_⟩
      intro a ha b hb
      obtain ⟨k, hk, rfl⟩ := List.mem_iterate.mp ha
      rw [List.mem_singleton] at hb
      subst hb
      intro he
      have := iterate_next_inj (by have := r.len_lt; omega) (by have := r.len_lt; omega) he
      omega
  exact key r.len le_rfl

/-- The read position has left the window of the advanced ring. -/
theorem readPos_notMem_advance {r : Ring N α} (h : ¬ r.Empty) : r.readPos ∉ r.advance.window := by
  have := r.nodup_window
  rw [window_cons h] at this
  exact (List.nodup_cons.mp this).1

/-! ### The contents -/

theorem contents_of_empty {r : Ring N α} (h : r.Empty) : r.contents = [] := by
  simp [contents, window_of_empty h]

theorem contents_put {r : Ring N α} (h : ¬ r.Full) (x : α) :
    (r.put x).contents = r.contents ++ [x] := by
  have hold : r.window.map (Function.update r.slots r.writePos x) = r.window.map r.slots := by
    apply List.map_congr_left
    intro i hi
    have hne : i ≠ r.writePos := by
      rintro rfl
      exact r.writePos_notMem_window hi
    exact Function.update_of_ne hne _ _
  unfold contents
  rw [window_put h]
  simp [put, hold]

theorem contents_cons {r : Ring N α} (h : ¬ r.Empty) :
    r.contents = r.head :: r.advance.contents := by
  unfold contents
  rw [window_cons h]
  rfl

/-- Assigning the head slot does not show once the read position has passed it. -/
theorem contents_setHead_advance {r : Ring N α} (h : ¬ r.Empty) (x : α) :
    (r.setHead x).advance.contents = r.advance.contents := by
  have hw : (r.setHead x).advance.window = r.advance.window := rfl
  unfold contents
  rw [hw]
  apply List.map_congr_left
  intro i hi
  have hne : i ≠ r.readPos := by
    rintro rfl
    exact readPos_notMem_advance h hi
  exact Function.update_of_ne hne _ _

/-- Nothing that was published is gone before it is read. -/
theorem not_empty_publish {r : Ring N α} (h : ¬ r.Full) : ¬ r.publish.Empty :=
  fun hempty => h hempty.symm

/-- A read makes room. -/
theorem not_full_advance {r : Ring N α} (h : ¬ r.Empty) : ¬ r.advance.Full := by
  rw [full_iff_len]
  have hlen := len_advance h
  have hlt := r.len_lt
  omega

@[simp] theorem slots_modify_self (r : Ring N α) (i : Fin N) (f : α → α) :
    (r.modify i f).slots i = f (r.slots i) := Function.update_self ..

theorem slots_modify_of_ne {r : Ring N α} {i j : Fin N} (h : j ≠ i) (f : α → α) :
    (r.modify i f).slots j = r.slots j := Function.update_of_ne h _ _

/-- A change outside the window does not show. -/
theorem contents_modify {r : Ring N α} {i : Fin N} (h : i ∉ r.window) (f : α → α) :
    (r.modify i f).contents = r.contents := by
  have hw : (r.modify i f).window = r.window := rfl
  unfold contents
  rw [hw]
  apply List.map_congr_left
  intro j hj
  have hne : j ≠ i := by
    rintro rfl
    exact h hj
  exact slots_modify_of_ne hne f

/-- A change at the read position shows at the head only. -/
theorem contents_modify_head {r : Ring N α} (h : ¬ r.Empty) (f : α → α) :
    (r.modify r.readPos f).contents = f r.head :: r.advance.contents := by
  have hempty : ¬ (r.modify r.readPos f).Empty := h
  have hrest : (r.modify r.readPos f).advance.contents = r.advance.contents :=
    contents_setHead_advance h (f r.head)
  rw [contents_cons hempty, hrest]
  exact congrArg (· :: _) (r.slots_modify_self r.readPos f)

/-- The slot at the write position joins the window as it is. -/
theorem contents_publish {r : Ring N α} (h : ¬ r.Full) :
    r.publish.contents = r.contents ++ [r.slots r.writePos] := by
  have hput : r.put (r.slots r.writePos) = r.publish := by
    simp only [put, publish, Function.update_eq_self]
  rw [← hput, contents_put h]

end Ring

end LuspUpload.Lib
