import Mathlib.Algebra.Order.Ring.Nat
import Mathlib.Data.List.Basic
import Mathlib.Tactic.Common

/-!
# Lib.Converter — a conversion by characters into a buffer

A `Codec` reads one character after another, each with its size and what it becomes.  A converter is
called with an input and room for its output: it converts whole characters until the input ends, a
character is bad, or the next one does not fit (`Codec.Answers`).  Whatever converter answers so: with
enough room it gives the whole conversion (`Answers.whole`), with too little room a part of it, and stops
in front of the rest (`Answers.part`).
-/

namespace LuspUpload.Lib

universe u v w

/-- A conversion by characters: `next` reads the first one of an input. -/
structure Codec (α : Type u) (β : Type v) (ε : Type w) where
  next : List α → Except ε (ℕ × List β)
  next_size : ∀ input k out, next input = .ok (k, out) → 0 < k ∧ k ≤ input.length

/-- How a call of a converter ends. -/
inductive ConvertStatus (ε : Type w) where
  | done
  | full
  | bad (e : ε)
  deriving DecidableEq, Repr

/-- What a call of a converter gives: the output, the input that is left, and how it ended. -/
structure ConvertAnswer (α : Type u) (β : Type v) (ε : Type w) where
  out : List β
  rest : List α
  status : ConvertStatus ε
  deriving DecidableEq, Repr

namespace Codec

variable {α : Type u} {β : Type v} {ε : Type w} (C : Codec α β ε)

/-- The characters of `input` before `rest` become `outs`. -/
inductive Reads : List α → List (List β) → List α → Prop where
  | stop (input : List α) : Reads input [] input
  | char {input : List α} {k : ℕ} {out : List β} {outs : List (List β)} {rest : List α}
      (hnext : C.next input = .ok (k, out)) (htail : Reads (input.drop k) outs rest) :
        Reads input (out :: outs) rest

/-- No character can be read: the end, or a bad one. -/
def Stops (rest : List α) : Prop := rest = [] ∨ ∃ e, C.next rest = .error e

/-- What a call of a converter with room for `room` units gives. -/
structure Answers (input : List α) (room : ℕ) (a : ConvertAnswer α β ε) : Prop where
  reads : ∃ outs, C.Reads input outs a.rest ∧ a.out = outs.flatten
  fits : a.out.length ≤ room
  done : a.status = .done → a.rest = []
  full : a.status = .full → ∃ k out, C.next a.rest = .ok (k, out) ∧ room < a.out.length + out.length
  bad : ∀ e, a.status = .bad e → a.rest ≠ [] ∧ C.next a.rest = .error e

/-- A converter: as many characters as fit; `n` bounds their number. -/
def convert : ℕ → List α → ℕ → ConvertAnswer α β ε
  | _, [], _ => ⟨[], [], .done⟩
  | 0, input, _ => ⟨[], input, .full⟩
  | n + 1, input, room =>
    match C.next input with
    | .error e => ⟨[], input, .bad e⟩
    | .ok (k, out) =>
      if room < out.length then ⟨[], input, .full⟩
      else
        let a := convert n (input.drop k) (room - out.length)
        ⟨out ++ a.out, a.rest, a.status⟩

section Reads

variable {C} {input rest rest' : List α} {outs outs' : List (List β)}

theorem next_nil (k : ℕ) (out : List β) : C.next [] ≠ .ok (k, out) := by
  intro h
  obtain ⟨hpos, hle⟩ := C.next_size [] k out h
  rw [List.length_nil] at hle
  omega

theorem Reads.of_stops (h : C.Reads input outs rest) (hstops : C.Stops input) : outs = [] ∧
    rest = input := by
  cases h with
  | stop => exact ⟨rfl, rfl⟩
  | char hnext htail =>
    rcases hstops with rfl | ⟨e, he⟩
    · exact absurd hnext (next_nil _ _)
    · rw [he] at hnext
      cases hnext

/-- A reading that stopped early goes on to the end of one that could not. -/
theorem Reads.suffix (h : C.Reads input outs rest) (h' : C.Reads input outs' rest')
    (hstops : C.Stops rest') :
    ∃ more, outs' = outs ++ more ∧ C.Reads rest more rest' := by
  induction h generalizing outs' with
  | stop input => exact ⟨outs', rfl, h'⟩
  | @char input k out outs rest hnext htail ih =>
    cases h' with
    | stop =>
      obtain ⟨hnil, -⟩ := (Reads.char hnext htail).of_stops hstops
      exact absurd hnil (List.cons_ne_nil _ _)
    | char hnext' htail' =>
      rw [hnext] at hnext'
      obtain ⟨rfl, rfl⟩ := Prod.mk.inj (Except.ok.inj hnext')
      obtain ⟨more, rfl, hmore⟩ := ih htail'
      exact ⟨more, rfl, hmore⟩

/-- Every input is read up to a place where no character can be read. -/
theorem exists_reads (C : Codec α β ε) (input : List α) : ∃ outs rest, C.Reads input outs rest ∧
    C.Stops rest := by
  induction hn : input.length using Nat.strong_induction_on generalizing input with
  | _ n ih =>
    cases hnext : C.next input with
    | error e => exact ⟨[], input, .stop input, Or.inr ⟨e, hnext⟩⟩
    | ok r =>
      obtain ⟨k, out⟩ := r
      obtain ⟨hpos, hle⟩ := C.next_size input k out hnext
      obtain ⟨outs, rest, hreads, hstops⟩ := ih (input.drop k).length
          (by rw [List.length_drop]; omega) _ rfl
      exact ⟨out :: outs, rest, .char hnext hreads, hstops⟩

/-- A bound on each character is a bound on all. -/
theorem Reads.length_le {r : ℕ} (hratio : ∀ input k out, C.next input = .ok (k, out) → out.length ≤ r * k)
    (h : C.Reads input outs rest) : outs.flatten.length + r * rest.length ≤ r * input.length := by
  induction h with
  | stop => simp
  | @char input k out outs rest hnext htail ih =>
    obtain ⟨-, hle⟩ := C.next_size input k out hnext
    have hone := hratio input k out hnext
    have hsplit : r * input.length = r * k + r * (input.length - k) := by
      rw [← Nat.mul_add, Nat.add_sub_cancel' hle]
    rw [List.length_drop] at ih
    rw [List.flatten_cons, List.length_append]
    omega

end Reads

section Answers

variable {C} {input rest : List α} {outs : List (List β)} {room : ℕ} {a : ConvertAnswer α β ε}

/-- **Enough room** — the whole conversion, up to the end or a bad character. -/
theorem Answers.whole (h : C.Answers input room a) (hreads : C.Reads input outs rest)
    (hstops : C.Stops rest)
    (hroom : outs.flatten.length ≤ room) : a.out = outs.flatten ∧ a.rest = rest ∧ a.status ≠ .full ∧
      (rest = [] ↔ a.status = .done) := by
  obtain ⟨first, hfirst, hout⟩ := h.reads
  obtain ⟨more, rfl, hmore⟩ := hfirst.suffix hreads hstops
  have hstopped : C.Stops a.rest → more = [] ∧ rest = a.rest := fun hs => hmore.of_stops hs
  cases hstatus : a.status with
  | done =>
    obtain ⟨rfl, hrest⟩ := hstopped (Or.inl (h.done hstatus))
    refine ⟨by rw [hout, List.append_nil], hrest.symm, by simp, ?_⟩
    rw [hrest, h.done hstatus]
    simp
  | bad e =>
    obtain ⟨hne, herror⟩ := h.bad e hstatus
    obtain ⟨rfl, hrest⟩ := hstopped (Or.inr ⟨e, herror⟩)
    refine ⟨by rw [hout, List.append_nil], hrest.symm, by simp, ?_⟩
    rw [hrest]
    simp [hne]
  | full =>
    -- the character that did not fit is one of those that are left, and they do fit
    obtain ⟨k, out, hnext, hfull⟩ := h.full hstatus
    cases hmore with
    | stop =>
      rcases hstops with hnil | ⟨e, he⟩
      · rw [hnil] at hnext
        exact absurd hnext (next_nil _ _)
      · rw [he] at hnext
        cases hnext
    | char hnext' htail =>
      rw [hnext] at hnext'
      obtain ⟨rfl, rfl⟩ := Prod.mk.inj (Except.ok.inj hnext')
      rw [List.flatten_append, List.length_append, List.flatten_cons, List.length_append, ← hout] at hroom
      omega

/-- **Too little room** — a part of the conversion, which goes on from what is left. -/
theorem Answers.part (h : C.Answers input room a) (hreads : C.Reads input outs rest) (hstops : C.Stops rest)
    (hroom : room < outs.flatten.length) : a.status = .full ∧ a.rest ≠ [] ∧
      ∃ more, C.Reads a.rest more rest ∧ outs.flatten = a.out ++ more.flatten := by
  obtain ⟨first, hfirst, hout⟩ := h.reads
  obtain ⟨more, rfl, hmore⟩ := hfirst.suffix hreads hstops
  have hpending : more ≠ [] := by
    rintro rfl
    have hfits := h.fits
    rw [hout] at hfits
    rw [List.append_nil] at hroom
    omega
  have hgoes : ¬ C.Stops a.rest := fun hs => hpending (hmore.of_stops hs).1
  refine ⟨?_, fun hnil => hgoes (Or.inl hnil), more, hmore, by rw [List.flatten_append, hout]⟩
  cases hstatus : a.status with
  | done => exact absurd (Or.inl (h.done hstatus)) hgoes
  | bad e => exact absurd (Or.inr ⟨e, (h.bad e hstatus).2⟩) hgoes
  | full => rfl

/-- The converter answers so. -/
theorem answers_convert (C : Codec α β ε) (n : ℕ) (input : List α) (room : ℕ) (hn : input.length ≤ n) :
    C.Answers input room (C.convert n input room) := by
  induction n generalizing input room with
  | zero =>
    obtain rfl := List.eq_nil_of_length_eq_zero (Nat.le_zero.mp hn)
    exact ⟨⟨[], .stop [], rfl⟩, Nat.zero_le _, fun _ => rfl, fun h => (by cases h), fun e h => (by cases h)⟩
  | succ n ih =>
    cases input with
    | nil => exact ⟨⟨[], .stop [], rfl⟩,
      Nat.zero_le _, fun _ => rfl, fun h => (by cases h), fun e h => (by cases h)⟩
    | cons x xs =>
      cases hnext : C.next (x :: xs) with
      | error e =>
        have hconvert : C.convert (n + 1) (x :: xs) room = ⟨[], x :: xs, .bad e⟩ := by simp [convert, hnext]
        rw [hconvert]
        refine ⟨⟨[], .stop _, rfl⟩, Nat.zero_le _, fun h => (by cases h), fun h => (by cases h), ?_⟩
        rintro e' ⟨⟩
        exact ⟨List.cons_ne_nil _ _, hnext⟩
      | ok r =>
        obtain ⟨k, out⟩ := r
        by_cases hroom : room < out.length
        · have hconvert : C.convert (n + 1) (x :: xs) room = ⟨[], x :: xs, .full⟩ := by
            simp [convert, hnext, hroom]
          rw [hconvert]
          refine ⟨⟨[], .stop _, rfl⟩, Nat.zero_le _, fun h => (by cases h), ?_, fun e h => (by cases h)⟩
          exact fun _ => ⟨k, out, hnext, by simpa using hroom⟩
        · obtain ⟨hpos, hle⟩ := C.next_size _ _ _ hnext
          have ha := ih ((x :: xs).drop k) (room - out.length) (by
            rw [List.length_drop, List.length_cons] at *
            omega)
          have hconvert : C.convert (n + 1) (x :: xs) room =
              ⟨out ++ (C.convert n ((x :: xs).drop k) (room - out.length)).out,
                (C.convert n ((x :: xs).drop k) (room - out.length)).rest,
                (C.convert n ((x :: xs).drop k) (room - out.length)).status⟩ := by
            simp [convert, hnext, hroom]
          rw [hconvert]
          obtain ⟨outs, hreads, hout⟩ := ha.reads
          have hfits := ha.fits
          refine ⟨⟨out :: outs, .char hnext hreads, by rw [hout]; rfl⟩, ?_, ha.done, ?_, ha.bad⟩
          · rw [List.length_append]
            omega
          · intro hfull
            obtain ⟨k', out', hnext', hlt⟩ := ha.full hfull
            refine ⟨k', out', hnext', ?_⟩
            rw [List.length_append]
            omega

end Answers

end Codec

end LuspUpload.Lib
