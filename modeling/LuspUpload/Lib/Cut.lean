import Mathlib.Data.List.Basic

/-!
# Lib.Cut — what is lost when lists are cut short

A list is read up to the first element that fails `p` (`takeWhile p`); the elements that count are those
with `q`.  Nothing that counts is lost exactly when none of it lies behind the cut, in one list
(`filter_takeWhile_eq_iff`) and in a list of lists that are cut one by one
(`filter_cutEach_eq_iff`).
-/

namespace LuspUpload.Lib

universe u

variable {α : Type u} {p q : α → Bool}

theorem filter_takeWhile_eq_iff {l : List α} :
    (l.takeWhile p).filter q = l.filter q ↔ ∀ x ∈ l.dropWhile p, q x = false := by
  have hsplit : l.filter q = (l.takeWhile p).filter q ++ (l.dropWhile p).filter q := by
    rw [← List.filter_append, List.takeWhile_append_dropWhile]
  rw [hsplit, List.self_eq_append_right, List.filter_eq_nil_iff]
  simp only [Bool.not_eq_true]

/-- What is left of lists that are cut one by one. -/
def cutEach (p : α → Bool) (ls : List (List α)) : List α := ls.flatMap (List.takeWhile p)

theorem cutEach_cons (l : List α) (ls : List (List α)) :
    cutEach p (l :: ls) = l.takeWhile p ++ cutEach p ls := List.flatMap_cons

theorem cutEach_sublist (ls : List (List α)) : (cutEach p ls).Sublist ls.flatten := by
  induction ls with
  | nil => exact List.Sublist.refl _
  | cons l ls ih =>
    rw [cutEach_cons, List.flatten_cons]
    exact (List.takeWhile_sublist p).append ih

theorem filter_cutEach_eq_iff {ls : List (List α)} :
    (cutEach p ls).filter q = ls.flatten.filter q ↔
      ∀ l ∈ ls, ∀ x ∈ l.dropWhile p, q x = false := by
  induction ls with
  | nil => simp [cutEach]
  | cons l ls ih =>
    rw [cutEach_cons, List.flatten_cons, List.filter_append, List.filter_append,
      List.forall_mem_cons, ← ih, ← filter_takeWhile_eq_iff]
    constructor
    · intro h
      -- both parts are sublists, so equal lengths in sum are equal lengths in each
      have hl := ((List.takeWhile_sublist (l := l) p).filter q).length_le
      have hls := ((cutEach_sublist (p := p) ls).filter q).length_le
      have hlen := congrArg List.length h
      simp only [List.length_append] at hlen
      exact List.append_inj h (by omega)
    · rintro ⟨hl, hls⟩
      rw [hl, hls]

/-- Cut one by one, then cut as a whole. -/
theorem filter_takeWhile_cutEach_eq_iff {r : α → Bool} {ls : List (List α)} :
    ((cutEach p ls).takeWhile r).filter q = ls.flatten.filter q ↔
      (∀ l ∈ ls, ∀ x ∈ l.dropWhile p, q x = false) ∧
        ∀ x ∈ (cutEach p ls).dropWhile r, q x = false := by
  rw [← filter_cutEach_eq_iff, ← filter_takeWhile_eq_iff]
  have houter := (List.takeWhile_sublist (l := cutEach p ls) r).filter q
  have hinner := (cutEach_sublist (p := p) ls).filter q
  constructor
  · intro h
    have hmid : (cutEach p ls).filter q = ls.flatten.filter q :=
      hinner.antisymm (h ▸ houter)
    exact ⟨hmid, h.trans hmid.symm⟩
  · rintro ⟨hmid, h⟩
    exact h.trans hmid

end LuspUpload.Lib
