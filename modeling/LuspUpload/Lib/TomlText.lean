import LuspUpload.Lib.TomlString
import Mathlib.Data.Nat.Digits.Defs

/-!
# Lib.TomlText — documents that a program prints

A printed document is a list of lines: comments, headers of tables and keys with literal values.  Strings
are printed between quotes as they are and integers with all their digits, whether TOML has such values or
not.  `ReadsToml` is what a reader of TOML 1.0 makes of such documents: it accepts the well-formed ones
with their meaning, and of the others it accepts it reads each value where it stands.
-/

namespace LuspUpload.Lib.Toml

/-- A printed value. -/
inductive Literal where
  | boolean (b : Bool)
  | integer (n : ℤ)
  | string (s : Text)
  | strings (ss : List Text)

/-- The digits of a number. -/
def decimal (n : ℕ) : Text :=
  if n = 0 then [0x30] else (Nat.digits 10 n).reverse.map fun d => 0x30 + UInt8.ofNat d

/-- An integer as an output stream prints it. -/
def number (n : ℤ) : Text := if n < 0 then 0x2D :: decimal n.natAbs else decimal n.natAbs

/-- A string between quotes. -/
def quoted (s : Text) : Text := quote :: (s ++ [quote])

/-- Quoted strings with commas between them. -/
def items : List Text → Text
  | [] => []
  | [s] => quoted s
  | s :: ss => quoted s ++ (utf8 ", " ++ items ss)

namespace Literal

def text : Literal → Text
  | .boolean b => utf8 (if b then "true" else "false")
  | .integer n => number n
  | .string s => quoted s
  | .strings ss => utf8 "[" ++ (items ss ++ utf8 "]")

/-- The literals that TOML has with this text. -/
def Plain : Literal → Prop
  | .boolean _ => True
  | .integer n => Int64.minValue.toInt ≤ n ∧ n ≤ Int64.maxValue.toInt
  | .string s => Toml.Plain s
  | .strings ss => ∀ s ∈ ss, Toml.Plain s

instance : ∀ v : Literal, Decidable v.Plain
  | .boolean _ => isTrue trivial
  | .integer _ => inferInstanceAs (Decidable (_ ∧ _))
  | .string s => inferInstanceAs (Decidable (Toml.Plain s))
  | .strings ss => inferInstanceAs (Decidable (∀ s ∈ ss, Toml.Plain s))

/-- What a plain literal means. -/
def value : Literal → Value
  | .boolean b => .boolean b
  | .integer n => .integer (Int64.ofInt n)
  | .string s => .string s
  | .strings ss => .array (ss.map Value.string)

end Literal

/-- A line of a printed document. -/
inductive Line where
  | comment (text : String)
  | blank
  | header (name : String)
  | entry (key : String) (value : Literal)

/-- A key up to its value. -/
def keyText (key : String) : Text := utf8 key ++ utf8 " = "

def Line.text : Line → Text
  | .comment s => utf8 "#" ++ (utf8 s ++ [newline])
  | .blank => [newline]
  | .header name => utf8 "[" ++ (utf8 name ++ (utf8 "]" ++ [newline]))
  | .entry key value => keyText key ++ (value.text ++ [newline])

/-- The text of a document. -/
def documentText (lines : List Line) : Text := lines.flatMap Line.text

/-! ### Well-formed documents -/

/-- The tables with their entries; the last ones come first. -/
abbrev Sections := List (String × Entries)

/-- A line of the document read. -/
def Sections.extend : Sections → Line → Sections
  | st, .header name => (name, []) :: st
  | (name, entries) :: st, .entry key value => (name, (key, value.value) :: entries) :: st
  | st, _ => st

/-- The document that the tables make up. -/
def Sections.table (st : Sections) : Entries := List.map (fun s => (s.1, .table s.2)) st

theorem lookup_table (st : Sections) (name : String) :
    st.table.lookup name = (st.lookup name).map Value.table :=
  lookup_map Value.table st name

theorem valueAt_table (st : Sections) (name key : String) :
    valueAt st.table name key = (st.lookup name).bind fun entries => entries.lookup key := by
  rw [valueAt, lookup_table]
  cases st.lookup name with
  | none => rfl
  | some entries => rfl

/-- A byte of a bare key. -/
def BareByte (b : UInt8) : Prop :=
  (0x61 ≤ b ∧ b ≤ 0x7A) ∨ (0x41 ≤ b ∧ b ≤ 0x5A) ∨ (0x30 ≤ b ∧ b ≤ 0x39) ∨ b = 0x5F ∨ b = 0x2D

instance (b : UInt8) : Decidable (BareByte b) :=
  inferInstanceAs (Decidable ((0x61 ≤ b ∧ b ≤ 0x7A) ∨ (0x41 ≤ b ∧ b ≤ 0x5A) ∨ (0x30 ≤ b ∧ b ≤ 0x39) ∨
    b = 0x5F ∨ b = 0x2D))

/-- A key that needs no quotes. -/
def Bare (key : String) : Prop := utf8 key ≠ [] ∧ ∀ b ∈ utf8 key, BareByte b

instance (key : String) : Decidable (Bare key) :=
  have : Decidable (∀ b ∈ utf8 key, BareByte b) := List.decidableBAll BareByte (utf8 key)
  inferInstanceAs (Decidable (utf8 key ≠ [] ∧ ∀ b ∈ utf8 key, BareByte b))

/-- The line may stand behind the tables: names and keys are bare and new, values are plain, and comments
have no control character. -/
def Fits : Sections → Line → Prop
  | _, .comment s => ∀ b ∈ utf8 s, (b = 9 ∨ 0x20 ≤ b) ∧ b ≠ 0x7F
  | _, .blank => True
  | st, .header name => Bare name ∧ st.lookup name = none
  | (_, entries) :: _, .entry key value => Bare key ∧ entries.lookup key = none ∧ value.Plain
  | [], .entry _ _ => False

/-- Every line fits behind the tables before it. -/
def WellFormed : Sections → List Line → Prop
  | _, [] => True
  | st, line :: lines => Fits st line ∧ WellFormed (st.extend line) lines

/-- Behind the lines the table `name` is open, and `key` is new in it. -/
def Expects (lines : List Line) (name key : String) : Prop :=
  WellFormed [] lines ∧ Bare key ∧
    ∃ entries st, lines.foldl Sections.extend [] = (name, entries) :: st ∧ entries.lookup key = none

/-- The document has the tables with their entries, in whatever order. -/
def Sections.ReadAs (st : Sections) (doc : Entries) : Prop :=
  ∀ name entries, st.lookup name = some entries →
    ∃ table, doc.lookup name = some (.table table) ∧ ∀ key, table.lookup key = entries.lookup key

/-- A reader of TOML 1.0, as far as printed documents go. -/
structure ReadsToml (parseStr : Text → Option Entries) : Prop where
  plain : ∀ lines, WellFormed [] lines →
    ∃ doc, parseStr (documentText lines) = some doc ∧ (lines.foldl Sections.extend []).ReadAs doc
  integer : ∀ lines name key n rest doc, Expects lines name key →
    parseStr (documentText lines ++ (keyText key ++ (number n ++ newline :: rest))) = some doc →
      ∃ m : Int64, m.toInt = n ∧ valueAt doc name key = some (.integer m)
  string : ∀ lines name key rest doc, Expects lines name key →
    parseStr (documentText lines ++ (keyText key ++ quote :: rest)) = some doc →
      ∃ s, StringAt rest s ∧ valueAt doc name key = some (.string s)
  strings : ∀ lines name key (ss : List Text) rest doc, Expects lines name key → (∀ s ∈ ss, Plain s) →
    parseStr (documentText lines ++ (keyText key ++ (utf8 "[" ++
        (ss.flatMap (fun s => quoted s ++ utf8 ", ") ++ quote :: rest)))) = some doc →
      ∃ s values, StringAt rest s ∧
        valueAt doc name key = some (.array (ss.map Value.string ++ .string s :: values))

/-! ### Values that are not plain -/

theorem Guarded.append {x y : Text} (hx : ∀ b ∈ x, b ≠ quote) (h : 0 < marks x ∨ Guarded y) :
    Guarded (x ++ y) := by
  intro z rest htext
  rcases List.append_eq_append_iff.mp htext with ⟨c, rfl, hc⟩ | ⟨c, rfl, hc⟩
  · rw [marks_append]
    rcases h with hmark | hy
    · omega
    · have hguarded := hy c rest hc
      omega
  · cases c with
    | nil =>
      rw [List.append_nil] at h
      rcases h with hmark | hy
      · exact hmark
      · exact absurd (hy [] rest hc.symm) (Nat.lt_irrefl 0)
    | cons b c =>
      obtain ⟨rfl, -⟩ := List.cons_eq_cons.mp hc
      exact absurd rfl (hx quote (List.mem_append_right z List.mem_cons_self))

theorem guarded_nil : Guarded [] := by
  intro y rest h
  simp at h

theorem BareByte.ne_quote {b : UInt8} (h : BareByte b) : b ≠ quote := by
  rintro rfl
  exact absurd h (by decide)

/-- A comment without quotes, a header or an entry; its value may be anything. -/
def Line.Keyed : Line → Prop
  | .comment s => ∀ b ∈ utf8 s, b ≠ quote
  | .blank => True
  | .header name => Bare name
  | .entry key _ => Bare key

theorem keyText_guards {key : String} (h : Bare key) :
    (∀ b ∈ keyText key, b ≠ quote) ∧ 0 < marks (keyText key) := by
  constructor
  · intro b hb
    rcases List.mem_append.mp hb with hb | hb
    · exact (h.2 b hb).ne_quote
    · have hsep : ∀ b ∈ utf8 " = ", b ≠ quote := forall_mem_of_all rfl
      exact hsep b hb
  · have hsep : marks (utf8 " = ") = 1 := by decide
    rw [keyText, marks_append]
    omega

/-- The lines that follow a value keep a mark before every quote. -/
theorem guarded_documentText {lines : List Line} (h : ∀ l ∈ lines, l.Keyed) :
    Guarded (documentText lines) := by
  induction lines with
  | nil => exact guarded_nil
  | cons l lines ih =>
    obtain ⟨hl, hlines⟩ := List.forall_mem_cons.mp h
    have hrest : Guarded (documentText lines) := ih hlines
    show Guarded (l.text ++ documentText lines)
    cases l with
    | comment s =>
      refine .append ?_ (.inr hrest)
      have hsign : ∀ b ∈ utf8 "#", b ≠ quote := forall_mem_of_all rfl
      have hend : ∀ b ∈ [newline], b ≠ quote := forall_mem_of_all rfl
      intro b hb
      rcases List.mem_append.mp hb with hb | hb
      · exact hsign b hb
      · rcases List.mem_append.mp hb with hb | hb
        · exact hl b hb
        · exact hend b hb
    | blank =>
      have hline : ∀ b ∈ [newline], b ≠ quote := forall_mem_of_all rfl
      exact .append hline (.inr hrest)
    | header name =>
      refine .append ?_ (.inr hrest)
      have hopen : ∀ b ∈ utf8 "[", b ≠ quote := forall_mem_of_all rfl
      have hclose : ∀ b ∈ utf8 "]" ++ [newline], b ≠ quote := forall_mem_of_all rfl
      intro b hb
      rcases List.mem_append.mp hb with hb | hb
      · exact hopen b hb
      · rcases List.mem_append.mp hb with hb | hb
        · exact (hl.2 b hb).ne_quote
        · exact hclose b hb
    | entry key value =>
      obtain ⟨hkey, hmark⟩ := keyText_guards hl
      show Guarded ((keyText key ++ (value.text ++ [newline])) ++ documentText lines)
      rw [List.append_assoc]
      exact .append hkey (.inl hmark)

/-! ### Entries of accepted documents -/

/-- What an accepted document has at a key that was printed with a literal: an integer as it was, and a string
or strings that are as they were only if they are plain. -/
inductive Literal.ReadAs : Literal → Value → Prop where
  | integer (m : Int64) : ReadAs (.integer m.toInt) (.integer m)
  | string {s r : Text} (h : r = s → Toml.Plain s) : ReadAs (.string s) (.string r)
  | strings {ss : List Text} {values : List Value}
      (h : ss.map Value.string <+: values → ∀ s ∈ ss, Toml.Plain s) : ReadAs (.strings ss) (.array values)

/-- The text of strings around one of them. -/
theorem items_append (ps : List Text) (s : Text) (ss : List Text) :
    ∃ tail, items (ps ++ s :: ss) = ps.flatMap (fun p => quoted p ++ utf8 ", ") ++ (quoted s ++ tail) ∧
      (tail = [] ∨ ∃ tail', tail = 0x2C :: tail') := by
  induction ps with
  | nil =>
    cases ss with
    | nil => exact ⟨[], by simp [items], .inl rfl⟩
    | cons s' ss => exact ⟨utf8 ", " ++ items (s' :: ss), rfl, .inr ⟨_, rfl⟩⟩
  | cons p ps ih =>
    obtain ⟨tail, htext, htail⟩ := ih
    refine ⟨tail, ?_, htail⟩
    have hne : ps ++ s :: ss ≠ [] := by simp
    rw [List.cons_append, items, htext]
    · simp
    · exact hne

/-- The first element of a list that is not as it should be. -/
theorem exists_first_not {α : Type} {p : α → Prop} {l : List α} (h : ¬ ∀ a ∈ l, p a) :
    ∃ l₁ a l₂, l = l₁ ++ a :: l₂ ∧ (∀ b ∈ l₁, p b) ∧ ¬ p a := by
  induction l with
  | nil => exact absurd (fun a ha => absurd ha List.not_mem_nil) h
  | cons a l ih =>
    by_cases ha : p a
    · obtain ⟨l₁, b, l₂, rfl, hl₁, hb⟩ := ih fun hl => h (List.forall_mem_cons.mpr ⟨ha, hl⟩)
      exact ⟨a :: l₁, b, l₂, rfl, List.forall_mem_cons.mpr ⟨ha, hl₁⟩, hb⟩
    · exact ⟨[], a, l, rfl, fun b hb => absurd hb List.not_mem_nil, ha⟩

theorem documentText_entry (lines : List Line) (key : String) (v : Literal) (post : List Line) :
    documentText (lines ++ .entry key v :: post) =
      documentText lines ++ (keyText key ++ (v.text ++ newline :: documentText post)) := by
  simp [documentText, Line.text]

/-- An array with a string that is not plain, up to that string. -/
theorem ReadsToml.readAs_strings {parseStr : Text → Option Entries} (h : ReadsToml parseStr)
    {lines : List Line} {name key : String} {ss : List Text} {rest : Text} {doc : Entries}
    (hexpects : Expects lines name key) (hss : ¬ ∀ s ∈ ss, Toml.Plain s)
    (hparse : parseStr (documentText lines ++
      (keyText key ++ ((Literal.strings ss).text ++ newline :: rest))) = some doc) :
    ∃ value, valueAt doc name key = some value ∧ (Literal.strings ss).ReadAs value := by
  obtain ⟨ps, s, ss, rfl, hps, hs⟩ := exists_first_not hss
  obtain ⟨tail, htext, htail⟩ := items_append ps s ss
  have hvalue : (Literal.strings (ps ++ s :: ss)).text ++ newline :: rest =
      utf8 "[" ++ (ps.flatMap (fun p => quoted p ++ utf8 ", ") ++
        quote :: (s ++ quote :: (tail ++ (utf8 "]" ++ newline :: rest)))) := by
    rw [Literal.text, htext]
    simp [quoted]
  rw [hvalue] at hparse
  obtain ⟨r, values, hr, hvalue⟩ := h.strings lines name key ps _ doc hexpects hps hparse
  refine ⟨_, hvalue, .strings ?_⟩
  intro hprefix
  rw [List.map_append, List.prefix_append_right_inj, List.map_cons, List.cons_prefix_cons] at hprefix
  obtain ⟨rfl⟩ := Value.string.inj hprefix.1
  refine absurd (hr.plain ?_) hs
  -- Behind the string stands a comma or the closing bracket.
  have hguarded : ∀ (b : UInt8) (rest : Text), b ∈ [0x2C, (0x5D : UInt8)] → Guarded (b :: rest) := by
    intro b rest hb
    have hmark : ∀ b ∈ [0x2C, (0x5D : UInt8)], b ≠ quote ∧ 0 < marks [b] := forall_mem_of_all rfl
    exact Guarded.append (List.forall_mem_singleton.mpr (hmark b hb).1) (.inl (hmark b hb).2)
  rcases htail with rfl | ⟨tail, rfl⟩
  · exact hguarded 0x5D _ (by decide)
  · exact hguarded 0x2C _ (by decide)

/-- **Values that are not plain**: where a document is accepted in spite of one, it is not read as it was. -/
theorem ReadsToml.readAs {parseStr : Text → Option Entries} (h : ReadsToml parseStr) {lines post : List Line}
    {name key : String} {v : Literal} {doc : Entries} (hexpects : Expects lines name key)
    (hpost : ∀ l ∈ post, l.Keyed) (hv : ¬ v.Plain)
    (hparse : parseStr (documentText (lines ++ .entry key v :: post)) = some doc) :
    ∃ value, valueAt doc name key = some value ∧ v.ReadAs value := by
  rw [documentText_entry] at hparse
  have hguard := guarded_documentText hpost
  cases v with
  | boolean b => exact absurd trivial hv
  | integer n =>
    obtain ⟨m, rfl, hvalue⟩ := h.integer lines name key n _ doc hexpects hparse
    exact ⟨_, hvalue, .integer m⟩
  | string s =>
    simp only [Literal.text, quoted, List.cons_append, List.append_assoc, List.nil_append] at hparse
    obtain ⟨r, hr, hvalue⟩ := h.string lines name key _ doc hexpects hparse
    refine ⟨_, hvalue, .string ?_⟩
    rintro rfl
    have hend : ∀ b ∈ [newline], b ≠ quote := forall_mem_of_all rfl
    exact hr.plain (.append hend (.inr hguard))
  | strings ss => exact h.readAs_strings hexpects hv hparse

end LuspUpload.Lib.Toml
