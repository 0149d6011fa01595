import LuspUpload.Lib.TomlValue
import Mathlib.Algebra.Order.Ring.Nat

/-!
# Lib.TomlString — the quoted strings of TOML 1.0

The grammar of basic strings and of their multi-line form, as a relation between the text behind the first
quote and the bytes that are read.  Characters stand for themselves, escapes for fewer bytes.

A program that writes the bytes `s` between two quotes as they are gets `s` back only if `s` is `Plain`:
an escape makes the string shorter, and a string that runs on behind the second quote takes up a mark of
the document (`Guarded`) that is not in `s`.
-/

namespace LuspUpload.Lib.Toml

abbrev quote : UInt8 := 0x22

abbrev backslash : UInt8 := 0x5C

abbrev newline : UInt8 := 0x0A

/-- A byte that may stand for itself: no control character but the tab, no quote, no backslash. -/
def Unescaped (b : UInt8) : Prop := (b = 9 ∨ 0x20 ≤ b) ∧ b ≠ quote ∧ b ≠ backslash ∧ b ≠ 0x7F

instance (b : UInt8) : Decidable (Unescaped b) :=
  inferInstanceAs (Decidable ((b = 9 ∨ 0x20 ≤ b) ∧ b ≠ quote ∧ b ≠ backslash ∧ b ≠ 0x7F))

/-- UTF-8 whose bytes stand for themselves. -/
def Plain (s : Text) : Prop := (∀ b ∈ s, Unescaped b) ∧ s.toByteArray.IsValidUTF8

instance (s : Text) : Decidable (Plain s) :=
  have : Decidable (∀ b ∈ s, Unescaped b) := List.decidableBAll Unescaped s
  inferInstanceAs (Decidable ((∀ b ∈ s, Unescaped b) ∧ s.toByteArray.IsValidUTF8))

/-! ### The grammar -/

/-- A hexadecimal digit. -/
def hexDigit (d : UInt8) : Option ℕ :=
  if 0x30 ≤ d ∧ d ≤ 0x39 then some (d.toNat - 0x30)
  else if 0x41 ≤ d ∧ d ≤ 0x46 then some (d.toNat - 0x37)
  else if 0x61 ≤ d ∧ d ≤ 0x66 then some (d.toNat - 0x57)
  else none

/-- The number that hexadecimal digits stand for. -/
def hexValue : Text → ℕ → Option ℕ
  | [], n => some n
  | d :: digits, n => (hexDigit d).bind fun k => hexValue digits (16 * n + k)

/-- The escapes of one character, and the bytes they stand for. -/
def shortEscapes : List (UInt8 × UInt8) :=
  [(0x62, 8), (0x74, 9), (0x6E, newline), (0x66, 12), (0x72, 13), (quote, quote), (backslash, backslash)]

/-- The escapes and what they stand for; `\u` has four digits, `\U` has eight. -/
inductive Escape : Text → Text → Prop where
  | short {p : UInt8 × UInt8} (hp : p ∈ shortEscapes) : Escape [backslash, p.1] [p.2]
  | unicode {u : UInt8} {digits : Text} {c : Char}
      (hu : u = 0x75 ∧ digits.length = 4 ∨ u = 0x55 ∧ digits.length = 8)
      (hc : hexValue digits 0 = some c.toNat) : Escape (backslash :: u :: digits) (String.utf8EncodeChar c)

/-- The line ends; a reader may exchange them. -/
def lineEnds : List Text := [[newline], [0x0D, newline]]

/-- The text between the quotes and what it stands for.  The line ends, quotes and backslashes before a line
end that only the multi-line form has are taken wherever they stand. -/
inductive Content (multiline : Bool) : Text → Text → Prop where
  | nil : Content multiline [] []
  | char {raw s : Text} (c : Char) (hc : ∀ b ∈ String.utf8EncodeChar c, Unescaped b)
      (h : Content multiline raw s) :
      Content multiline (String.utf8EncodeChar c ++ raw) (String.utf8EncodeChar c ++ s)
  | escape {e m raw s : Text} (he : Escape e m) (h : Content multiline raw s) :
      Content multiline (e ++ raw) (m ++ s)
  | lineEnd {e m raw s : Text} (hml : multiline = true) (he : e ∈ lineEnds) (hm : m ∈ lineEnds)
      (h : Content multiline raw s) : Content multiline (e ++ raw) (m ++ s)
  | quote {raw s : Text} (hml : multiline = true) (h : Content multiline raw s) :
      Content multiline (quote :: raw) (quote :: s)
  | trim {blank raw s : Text} (hml : multiline = true) (hblank : ∀ b ∈ blank, b ∈ [0x20, 9, 0x0D, newline])
      (h : Content multiline raw s) : Content multiline (backslash :: blank ++ raw) s

/-- The text behind the first quote begins with a string that is read as `s`. -/
inductive StringAt : Text → Text → Prop where
  | basic {raw s rest : Text} (h : Content false raw s) : StringAt (raw ++ Toml.quote :: rest) s
  | multiline {skip raw s rest : Text} (hskip : skip ∈ [] :: lineEnds) (h : Content true raw s) :
      StringAt (Toml.quote :: Toml.quote :: (skip ++ (raw ++ Toml.quote :: Toml.quote :: Toml.quote :: rest))) s

/-! ### Sizes and marks -/

/-- The number of bytes, carriage returns not counted. -/
def weight (s : Text) : ℕ := s.countP (· ≠ 0x0D)

/-- The number of marks: `=`, `,` and `]`. -/
def marks (s : Text) : ℕ := s.countP (· ∈ [0x3D, 0x2C, 0x5D])

theorem weight_append (s t : Text) : weight (s ++ t) = weight s + weight t := List.countP_append

theorem marks_append (s t : Text) : marks (s ++ t) = marks s + marks t := List.countP_append

theorem weight_quote (s : Text) : weight (quote :: s) = weight s + 1 :=
  (weight_append [quote] s).trans (Nat.add_comm _ _)

theorem marks_quote (s : Text) : marks (quote :: s) = marks s :=
  (marks_append [quote] s).trans (Nat.zero_add _)

theorem marks_eq_zero {s : Text} (h : ∀ b ∈ s, b ∉ [0x3D, 0x2C, (0x5D : UInt8)]) : marks s = 0 := by
  refine List.countP_eq_zero.mpr ?_
  intro b hb
  simpa using h b hb

theorem hexValue_digits {digits : Text} {n m : ℕ} (h : hexValue digits n = some m) :
    ∀ d ∈ digits, hexDigit d ≠ none := by
  induction digits generalizing n with
  | nil => exact fun d hd => absurd hd List.not_mem_nil
  | cons d digits ih =>
    obtain ⟨k, hd, hdigits⟩ := Option.bind_eq_some_iff.mp h
    refine List.forall_mem_cons.mpr ⟨?_, ih hdigits⟩
    rw [hd]
    exact Option.some_ne_none k

theorem weight_le_length (s : Text) : weight s ≤ s.length := List.countP_le_length

/-- An escape has no mark and is longer than its meaning. -/
theorem Escape.shrinks {e m : Text} (h : Escape e m) : marks e = 0 ∧ weight m < weight e := by
  cases h with
  | short hp =>
    have hall : ∀ p ∈ shortEscapes, marks [backslash, p.1] = 0 ∧ weight [p.2] < weight [backslash, p.1] :=
      forall_mem_of_all rfl
    exact hall _ hp
  | @unicode u digits c hu hc =>
    have hdigits := hexValue_digits hc
    have hmarks : marks digits = 0 := by
      have hmark : ∀ d ∈ [0x3D, 0x2C, (0x5D : UInt8)], hexDigit d = none := forall_mem_of_all rfl
      exact marks_eq_zero fun d hd hd' => hdigits d hd (hmark d hd')
    have hweight : weight digits = digits.length := by
      refine List.countP_eq_length.mpr fun d hd => ?_
      have hne : d ≠ 0x0D := by
        rintro rfl
        exact hdigits _ hd rfl
      simpa using hne
    have hc4 : weight (String.utf8EncodeChar c) ≤ 4 := by
      refine (weight_le_length _).trans ?_
      rw [String.length_utf8EncodeChar]
      exact Char.utf8Size_le_four c
    have hu4 : marks [backslash, u] = 0 ∧ weight [backslash, u] = 2 := by
      obtain ⟨rfl, -⟩ | ⟨rfl, -⟩ := hu
      · decide
      · decide
    have hlength : 4 ≤ digits.length := by omega
    rw [show backslash :: u :: digits = [backslash, u] ++ digits from rfl, marks_append, weight_append]
    omega

theorem lineEnds_marks : ∀ e ∈ lineEnds, marks e = 0 ∧ weight e = 1 := forall_mem_of_all rfl

/-- What is read has all the marks of its text, and is no longer. -/
theorem Content.bounds {multiline : Bool} {raw s : Text} (h : Content multiline raw s) :
    marks raw ≤ marks s ∧ weight s ≤ weight raw := by
  induction h with
  | nil => exact ⟨le_rfl, le_rfl⟩
  | char c hc h ih =>
    simp only [marks_append, weight_append]
    omega
  | escape he h ih =>
    obtain ⟨hmarks, hweight⟩ := he.shrinks
    simp only [marks_append, weight_append]
    omega
  | lineEnd hml he hm h ih =>
    have he := lineEnds_marks _ he
    have hm := lineEnds_marks _ hm
    simp only [marks_append, weight_append]
    omega
  | quote hml h ih =>
    simp only [marks_quote, weight_quote]
    omega
  | @trim blank raw s hml hblank h ih =>
    have hblank : marks (backslash :: blank) = 0 := by
      refine marks_eq_zero fun b hb hb' => ?_
      rcases List.mem_cons.mp hb with rfl | hb
      · exact absurd hb' (by decide)
      · have hapart : ∀ b ∈ [0x20, 9, 0x0D, newline], b ∉ [0x3D, 0x2C, (0x5D : UInt8)] := forall_mem_of_all rfl
        exact hapart b (hblank b hb) hb'
    simp only [marks_append, weight_append]
    omega

/-- A basic string that is read as long as it is written has no escape. -/
theorem Content.plain {raw s : Text} (h : Content false raw s) (hlong : weight raw ≤ weight s) :
    Plain raw := by
  suffices hchars : (∀ b ∈ raw, Unescaped b) ∧ ∃ cs : List Char, raw = cs.flatMap String.utf8EncodeChar by
    obtain ⟨hraw, cs, rfl⟩ := hchars
    exact ⟨hraw, .intro cs rfl⟩
  induction h with
  | nil => exact ⟨fun b hb => absurd hb List.not_mem_nil, [], rfl⟩
  | char c hc h ih =>
    simp only [weight_append, Nat.add_le_add_iff_left] at hlong
    obtain ⟨hraw, cs, rfl⟩ := ih hlong
    refine ⟨fun b hb => ?_, c :: cs, rfl⟩
    rcases List.mem_append.mp hb with hb | hb
    · exact hc b hb
    · exact hraw b hb
  | escape he h ih =>
    have hshrinks := he.shrinks.2
    have hbounds := h.bounds.2
    simp only [weight_append] at hlong
    omega
  | lineEnd hml => cases hml
  | quote hml => cases hml
  | trim hml => cases hml

/-- Before every quote of the text there is a mark. -/
def Guarded (text : Text) : Prop := ∀ y rest, text = y ++ quote :: rest → 0 < marks y

/-- The quotes are those of a basic string. -/
theorem plain_of_quoted {raw s tail rest : Text} (h : Content false raw s)
    (htext : s ++ quote :: tail = raw ++ quote :: rest) (hguard : Guarded tail) : Plain s := by
  rcases List.append_eq_append_iff.mp htext with ⟨c, rfl, htail⟩ | ⟨c, rfl, htail⟩
  · cases c with
    | nil =>
      rw [List.append_nil] at h
      exact h.plain le_rfl
    | cons b y =>
      -- The second quote is escaped: the string runs on to a quote of the tail.
      obtain ⟨rfl, hy⟩ := List.cons_eq_cons.mp htail
      have hmarks := hguard y rest hy
      have hbounds := h.bounds.1
      rw [marks_append, marks_quote] at hbounds
      omega
  · cases c with
    | nil =>
      rw [List.append_nil] at h ⊢
      exact h.plain le_rfl
    | cons b y =>
      -- A quote of `s` ends the string.
      obtain ⟨rfl, -⟩ := List.cons_eq_cons.mp htail
      have hbounds := h.bounds.2
      rw [weight_append, weight_quote] at hbounds
      omega

/-- The multi-line form never gives back what stands between two quotes. -/
theorem multiline_not_quoted {skip raw s tail rest : Text} (h : Content true raw s)
    (hskip : skip ∈ [] :: lineEnds)
    (htext : s ++ quote :: tail = quote :: quote :: (skip ++ (raw ++ quote :: quote :: quote :: rest)))
    (hguard : Guarded tail) : False := by
  obtain ⟨hmarks, hweight⟩ := h.bounds
  have hskips : ∀ e ∈ [] :: lineEnds, marks e = 0 := forall_mem_of_all rfl
  have hskip := hskips skip hskip
  rw [← List.append_assoc] at htext
  rcases s with _ | ⟨b, _ | ⟨b', u⟩⟩
  · simp only [List.nil_append, List.cons.injEq, true_and] at htext
    exact absurd (hguard [] _ htext) (Nat.lt_irrefl 0)
  · -- The quotes around `s` begin the multi-line form.
    simp only [List.cons_append, List.nil_append, List.cons.injEq, true_and] at htext
    obtain ⟨rfl, htail⟩ := htext
    have hguarded := hguard _ _ htail
    rw [marks_append] at hguarded
    rw [marks_quote, show marks [] = 0 from rfl] at hmarks
    omega
  · simp only [List.cons_append, List.cons.injEq] at htext
    obtain ⟨rfl, rfl, htext⟩ := htext
    rw [marks_quote, marks_quote] at hmarks
    rw [weight_quote, weight_quote] at hweight
    rcases List.append_eq_append_iff.mp htext with ⟨c, hc, htail⟩ | ⟨c, rfl, -⟩
    · cases c with
      | nil =>
        have hlong := congrArg weight hc
        rw [List.append_nil, weight_append] at hlong
        omega
      | cons b y =>
        -- The string runs on to the quotes of the tail.
        obtain ⟨rfl, hy⟩ := List.cons_eq_cons.mp htail
        have hguarded := hguard y _ hy
        have hlong := congrArg marks hc
        rw [marks_append, marks_append, marks_quote] at hlong
        omega
    · rw [weight_append, weight_append] at hweight
      omega

/-- **Plain strings**: bytes between quotes that are read back as they are are plain, whatever form the
string takes and wherever it ends. -/
theorem StringAt.plain {s tail : Text} (h : StringAt (s ++ quote :: tail) s) (hguard : Guarded tail) :
    Plain s := by
  generalize htext : s ++ quote :: tail = text at h
  cases h with
  | basic h => exact plain_of_quoted h htext hguard
  | multiline hskip h => exact (multiline_not_quoted h hskip htext hguard).elim

end LuspUpload.Lib.Toml
