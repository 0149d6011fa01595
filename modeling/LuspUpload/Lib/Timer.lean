import Mathlib.Data.List.Basic

/-!
# Lib.Timer — waits on a deadline timer

The waits of one timer whose handlers have yet to run.  Setting a new deadline or cancelling aborts the
waits that are armed; a wait whose deadline has passed can no longer be aborted, its handler is queued.
-/

namespace LuspUpload.Lib

/-- A wait: for the deadline, past it, or aborted. -/
inductive Wait where
  | armed
  | due
  | aborted
  deriving DecidableEq, Repr

namespace Wait

/-- The timer is cancelled. -/
def cancel : Wait → Wait
  | armed => aborted
  | w => w

/-- The deadline passes. -/
def expire : Wait → Wait
  | armed => due
  | w => w

/-- The handler may yet be called without an error. -/
def isLive : Wait → Bool
  | aborted => false
  | _ => true

end Wait

/-- The waits of a timer, the oldest first. -/
abbrev Timer := List Wait

namespace Timer

/-- Abort the waits that are armed. -/
def cancel (t : Timer) : Timer := t.map Wait.cancel

/-- Set a new deadline and wait for it. -/
def rearm (t : Timer) : Timer := t.cancel ++ [.armed]

/-- The deadline passes. -/
def expire (t : Timer) : Timer := t.map Wait.expire

/-- Some handler will be called without an error. -/
def Live (t : Timer) : Prop := ∃ w ∈ t, w ≠ .aborted

instance (t : Timer) : Decidable t.Live := inferInstanceAs (Decidable (∃ w ∈ t, w ≠ .aborted))

/-- How many handlers may yet be called without an error. -/
def liveCount (t : Timer) : ℕ := t.countP Wait.isLive

section Lemmas

variable {t : Timer} {i : ℕ}

theorem armed_mem_rearm : .armed ∈ t.rearm := List.mem_append_right _ List.mem_cons_self

theorem live_expire : t.expire.Live ↔ t.Live := by
  constructor
  · rintro ⟨w, hw, hne⟩
    obtain ⟨v, hv, rfl⟩ := List.mem_map.mp hw
    refine ⟨v, hv, ?_⟩
    rintro rfl
    exact hne rfl
  · rintro ⟨w, hw, hne⟩
    refine ⟨w.expire, List.mem_map_of_mem hw, ?_⟩
    cases w with
    | aborted => exact absurd rfl hne
    | _ => exact nofun

theorem live_of_eraseIdx (h : Timer.Live (t.eraseIdx i)) : t.Live := by
  obtain ⟨w, hw, hne⟩ := h
  exact ⟨w, List.mem_of_mem_eraseIdx hw, hne⟩

/-- A live wait is due once the deadline has passed. -/
theorem exists_due_expire (h : t.Live) : ∃ i : ℕ, t.expire[i]? = some Wait.due := by
  obtain ⟨w, hw, hne⟩ := h
  obtain ⟨i, hi, rfl⟩ := List.getElem_of_mem hw
  refine ⟨i, ?_⟩
  rw [expire, List.getElem?_map, List.getElem?_eq_getElem hi, Option.map_some]
  cases hwait : t[i] with
  | aborted => exact absurd hwait hne
  | _ => rfl

theorem liveCount_cancel_le : t.cancel.liveCount ≤ t.liveCount := by
  induction t with
  | nil => exact Nat.le_refl 0
  | cons w t ih =>
    have hcancel : cancel (w :: t) = w.cancel :: cancel t := rfl
    rw [hcancel]
    unfold liveCount at ih ⊢
    rw [List.countP_cons, List.countP_cons]
    cases w <;> simp [Wait.cancel, Wait.isLive] <;> omega

theorem liveCount_rearm_le : t.rearm.liveCount ≤ t.liveCount + 1 := by
  have hcancel := @liveCount_cancel_le t
  unfold liveCount at hcancel ⊢
  rw [rearm, List.countP_append, List.countP_singleton]
  simp only [Wait.isLive, if_true]
  omega

theorem liveCount_expire : t.expire.liveCount = t.liveCount := by
  induction t with
  | nil => rfl
  | cons w t ih =>
    have hexpire : expire (w :: t) = w.expire :: expire t := rfl
    rw [hexpire]
    unfold liveCount at ih ⊢
    rw [List.countP_cons, List.countP_cons, ih]
    cases w <;> rfl

theorem liveCount_eraseIdx {w : Wait} (h : t[i]? = some w) :
    Timer.liveCount (t.eraseIdx i) + (if w = .aborted then 0 else 1) = t.liveCount := by
  induction t generalizing i with
  | nil => simp at h
  | cons v t ih =>
    unfold liveCount at ih ⊢
    cases i with
    | zero =>
      obtain rfl : v = w := by simpa using h
      rw [List.eraseIdx_cons_zero, List.countP_cons]
      cases v <;> rfl
    | succ i =>
      have htail : t[i]? = some w := by simpa using h
      have hrest := ih htail
      rw [List.eraseIdx_cons_succ, List.countP_cons, List.countP_cons, ← hrest]
      omega

end Lemmas

end Timer

end LuspUpload.Lib
