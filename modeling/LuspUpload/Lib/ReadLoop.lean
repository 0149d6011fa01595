import Mathlib.Data.List.Basic
import Mathlib.Algebra.Order.Ring.Nat
import Mathlib.Tactic.Common

/-!
# Lib.ReadLoop — reading a stream through a buffer

A read asks for as many bytes as the buffer has.  When the stream has fewer left it delivers these and fails;
when it has failed before it delivers none.  `readLoop` goes on while a read succeeds or delivers something,
and hands on what was delivered.  It hands on the pieces of the stream (`Pieces`): full ones and at most one
shorter one at the end.
-/

namespace LuspUpload.Lib

variable {α σ : Type}

/-- What is left of a stream, whether a read has failed, and how much the last read delivered. -/
structure InStream (α : Type) where
  rest : List α
  failed : Bool
  gcount : ℕ

namespace InStream

/-- A stream that nothing was read from. -/
def opened (content : List α) : InStream α := ⟨content, false, 0⟩

/-- `read(buffer, n)`: what is delivered, and the stream behind. -/
def read (n : ℕ) (s : InStream α) : List α × InStream α :=
  if s.failed then ([], { s with gcount := 0 })
  else (s.rest.take n, ⟨s.rest.drop n, decide (s.rest.length < n), min n s.rest.length⟩)

theorem read_failed (n : ℕ) {s : InStream α} (h : s.failed = true) : s.read n = ([], { s with gcount := 0 }) :=
  if_pos h

theorem read_full {n g : ℕ} {c rest : List α} (h : c.length = n) :
    read n ⟨c ++ rest, false, g⟩ = (c, ⟨rest, false, n⟩) := by
  have hle : ¬ (c ++ rest).length < n := by
    rw [List.length_append]
    omega
  have hmin : min n (c ++ rest).length = n := by omega
  simp only [read, Bool.false_eq_true, if_false, List.take_left' h, List.drop_left' h, hle, decide_false, hmin]

theorem read_short {n g : ℕ} {c : List α} (h : c.length < n) :
    read n ⟨c, false, g⟩ = (c, ⟨[], true, c.length⟩) := by
  have hmin : min n c.length = c.length := by omega
  simp only [read, Bool.false_eq_true, if_false, List.take_of_length_le h.le, List.drop_eq_nil_of_le h.le, h,
    decide_true, hmin]

end InStream

/-- The buffer behind a read that delivered `got`. -/
def overwrite (got buffer : List α) : List α := got ++ buffer.drop got.length

theorem length_overwrite {got buffer : List α} (h : got.length ≤ buffer.length) :
    (overwrite got buffer).length = buffer.length := by
  rw [overwrite, List.length_append, List.length_drop]
  omega

@[simp] theorem take_overwrite (got buffer : List α) : (overwrite got buffer).take got.length = got :=
  List.take_left

/-- `while (stream.read(buffer) || stream.gcount() > 0)`, with `step` on the first `gcount()` bytes of the
buffer; `none` when the fuel runs out. -/
def readLoop (step : σ → List α → σ) : ℕ → List α → InStream α → σ → Option σ
  | 0, _, _, _ => none
  | fuel + 1, buffer, stream, acc =>
    let r := stream.read buffer.length
    let filled := overwrite r.1 buffer
    if r.2.failed = false ∨ 0 < r.2.gcount then readLoop step fuel filled r.2 (step acc (filled.take r.2.gcount))
    else some acc

/-! ### Pieces -/

/-- A list cut into pieces of `n` elements and, where some are left, a shorter one. -/
inductive Pieces (n : ℕ) : List α → List (List α) → Prop
  | empty : Pieces n [] []
  | last {c : List α} (hne : c ≠ []) (hlt : c.length < n) : Pieces n c [c]
  | full {c rest : List α} {cs : List (List α)} (hlen : c.length = n) (h : Pieces n rest cs) :
      Pieces n (c ++ rest) (c :: cs)

variable {n : ℕ} {l : List α} {cs : List (List α)}

theorem exists_pieces (hn : 0 < n) (l : List α) : ∃ cs, Pieces n l cs := by
  by_cases hlt : l.length < n
  · by_cases hne : l = []
    · subst hne
      exact ⟨[], .empty⟩
    · exact ⟨[l], .last hne hlt⟩
  · obtain ⟨cs, hcs⟩ := exists_pieces hn (l.drop n)
    refine ⟨l.take n :: cs, ?_⟩
    have hfull := Pieces.full (List.length_take_of_le (Nat.le_of_not_lt hlt)) hcs
    rwa [List.take_append_drop] at hfull
termination_by l.length
decreasing_by
  rw [List.length_drop]
  omega

theorem Pieces.flatten (h : Pieces n l cs) : cs.flatten = l := by
  induction h with
  | empty => rfl
  | last hne hlt => simp
  | full hlen h ih => rw [List.flatten_cons, ih]

theorem Pieces.length_le (hn : 0 < n) (h : Pieces n l cs) : cs.length ≤ l.length / n + 1 := by
  induction h with
  | empty => simp
  | last hne hlt => simp
  | @full c rest cs hlen h ih =>
    have hdiv : (c ++ rest).length / n = rest.length / n + 1 := by
      rw [List.length_append, hlen, Nat.add_comm, Nat.add_div_right _ hn]
    rw [hdiv, List.length_cons]
    omega

theorem Pieces.length_mem (hn : 0 < n) (h : Pieces n l cs) : ∀ c ∈ cs, 0 < c.length ∧ c.length ≤ n := by
  induction h with
  | empty => simp
  | last hne hlt =>
    intro c hc
    rw [List.mem_singleton.mp hc]
    exact ⟨List.length_pos_iff.mpr hne, hlt.le⟩
  | full hlen h ih =>
    intro c hc
    rcases List.mem_cons.mp hc with rfl | hc
    · omega
    · exact ih c hc

/-! ### The loop -/

variable {step : σ → List α → σ}

/-- A round whose read fills the buffer. -/
theorem readLoop_full {fuel g : ℕ} {buffer c rest : List α} {acc : σ} (h : c.length = buffer.length) :
    readLoop step (fuel + 1) buffer ⟨c ++ rest, false, g⟩ acc =
      readLoop step fuel (overwrite c buffer) ⟨rest, false, buffer.length⟩ (step acc c) := by
  have htake : (overwrite c buffer).take buffer.length = c := by
    rw [← h, take_overwrite]
  simp only [readLoop, InStream.read_full h, htake, true_or, if_true]

/-- A round whose read finds fewer bytes, but some. -/
theorem readLoop_last {fuel g : ℕ} {buffer c : List α} {acc : σ} (hne : c ≠ []) (h : c.length < buffer.length) :
    readLoop step (fuel + 1) buffer ⟨c, false, g⟩ acc =
      readLoop step fuel (overwrite c buffer) ⟨[], true, c.length⟩ (step acc c) := by
  have hpos := List.length_pos_iff.mpr hne
  simp only [readLoop, InStream.read_short h, take_overwrite, hpos, or_true, if_true]

theorem readLoop_failed {fuel g : ℕ} {buffer rest : List α} {acc : σ} :
    readLoop step (fuel + 1) buffer ⟨rest, true, g⟩ acc = some acc := by
  rw [readLoop, InStream.read_failed _ rfl]
  simp

theorem readLoop_empty {fuel g : ℕ} {buffer : List α} {acc : σ} (h : 0 < buffer.length) :
    readLoop step (fuel + 1) buffer ⟨[], false, g⟩ acc = some acc := by
  rw [readLoop, InStream.read_short (c := []) h]
  simp

/-- The loop ends and hands on the pieces of what is left, one after the other. -/
theorem readLoop_pieces (hn : 0 < n) (h : Pieces n l cs) {buffer : List α} (hbuffer : buffer.length = n)
    {fuel : ℕ} (hfuel : cs.length < fuel) (g : ℕ) (acc : σ) :
    readLoop step fuel buffer ⟨l, false, g⟩ acc = some (cs.foldl step acc) := by
  obtain ⟨fuel, rfl⟩ := Nat.exists_eq_add_of_le' (Nat.zero_lt_of_lt hfuel)
  induction h generalizing buffer fuel g acc with
  | empty => exact readLoop_empty (hbuffer ▸ hn)
  | last hne hlt =>
    obtain ⟨fuel, rfl⟩ := Nat.exists_eq_add_of_le' (Nat.le_of_lt_succ hfuel)
    rw [readLoop_last hne (hbuffer ▸ hlt)]
    exact readLoop_failed
  | full hlen h ih =>
    rw [List.length_cons] at hfuel
    obtain ⟨fuel, rfl⟩ := Nat.exists_eq_add_of_le' (Nat.zero_lt_of_lt (Nat.lt_of_succ_lt_succ hfuel))
    rw [readLoop_full (hlen.trans hbuffer.symm), List.foldl_cons]
    refine ih ?_ _ _ _ (by omega)
    rw [length_overwrite (by omega), hbuffer]

end LuspUpload.Lib
