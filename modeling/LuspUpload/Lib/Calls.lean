import Mathlib.Data.List.Basic

/-!
# Lib.Calls — calls in progress

The calls of one function that several threads have in progress are a list of program counters.  A step
moves one of them on, or ends it.
-/

namespace LuspUpload.Lib

variable {β : Type*}

/-- The call at `i` goes on from `next`, or returns. -/
def moveAt (calls : List β) (i : ℕ) : Option β → List β
  | some next => calls.set i next
  | none => calls.eraseIdx i

/-- A step changes the calls at one place. -/
theorem moveAt_split {calls : List β} {i : ℕ} {call : β} (h : calls[i]? = some call) :
    ∃ before after, calls = before ++ call :: after ∧
      ∀ next, moveAt calls i next = before ++ next.toList ++ after := by
  obtain ⟨hlt, rfl⟩ := List.getElem?_eq_some_iff.mp h
  refine ⟨calls.take i, calls.drop (i + 1), ?_, ?_⟩
  · rw [List.getElem_cons_drop, List.take_append_drop]
  · intro next
    cases next with
    | none => simp [moveAt, List.eraseIdx_eq_take_drop_succ]
    | some next => simp [moveAt, List.set_eq_take_append_cons_drop, hlt]

/-- What a step changes in a count of the calls. -/
theorem countP_move (p : β → Bool) (before after : List β) (call : β) (next : Option β) :
    (before ++ next.toList ++ after).countP p + (p call).toNat =
      (before ++ call :: after).countP p + (next.any p).toNat := by
  have hone : ∀ b : β, (if p b = true then 1 else 0) = (p b).toNat := by
    intro b
    cases p b <;> rfl
  cases next with
  | none =>
    simp only [Option.toList_none, List.append_nil, List.countP_append, List.countP_cons, hone,
      Option.any_none, Bool.toNat_false]
    omega
  | some next =>
    simp only [Option.toList_some, List.countP_append, List.countP_cons, List.countP_nil, hone,
      Option.any_some]
    omega

end LuspUpload.Lib
