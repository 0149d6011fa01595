import LuspUpload.Lib.TomlText
import Mathlib.Data.Nat.Digits.Lemmas

/-!
# Lib.TomlReader — a reader for printed documents

A reader of the lines that `TomlText` prints, and no others of TOML: strings without escapes, integers,
booleans and arrays of strings.  It is a `ReadsToml`.
-/

namespace LuspUpload.Lib.Toml

/-! ### The reader -/

/-- The text behind a prefix. -/
def expect : Text → Text → Option Text
  | [], text => some text
  | b :: p, c :: text => if b = c then expect p text else none
  | _ :: _, [] => none

/-- The string behind its first quote, and what follows it. -/
def readString (text : Text) : Option (Text × Text) :=
  let s := text.takeWhile (· ≠ quote)
  if Plain s then (expect [quote] (text.dropWhile (· ≠ quote))).map fun rest => (s, rest) else none

/-- The strings of an array. -/
def readItems : ℕ → Text → Option (List Value × Text)
  | 0, _ => none
  | fuel + 1, text =>
    (expect [quote] text).bind fun text => (readString text).bind fun r =>
      match expect (utf8 ", ") r.2 with
      | some rest => (readItems fuel rest).map fun q => (.string r.1 :: q.1, q.2)
      | none => (expect (utf8 "]") r.2).map fun rest => ([.string r.1], rest)

/-- A digit. -/
def Digit (b : UInt8) : Prop := 0x30 ≤ b ∧ b ≤ 0x39

instance (b : UInt8) : Decidable (Digit b) := inferInstanceAs (Decidable (0x30 ≤ b ∧ b ≤ 0x39))

/-- The number that digits stand for. -/
def ofDecimal (digits : Text) : ℕ := Nat.ofDigits 10 (digits.map fun b => (b - 0x30).toNat).reverse

/-- An integer in the range of the type. -/
def readNumber (text : Text) : Option (Value × Text) :=
  let negative := (expect [0x2D] text).isSome
  let text := (expect [0x2D] text).getD text
  let n : ℤ := ofDecimal (text.takeWhile fun b => Digit b)
  let n := if negative then -n else n
  if (Literal.integer n).Plain then some (.integer (Int64.ofInt n), text.dropWhile fun b => Digit b) else none

/-- A value. -/
def readValue (text : Text) : Option (Value × Text) :=
  match expect [quote] text, expect (utf8 "[]") text, expect (utf8 "[") text, expect (utf8 "true") text,
    expect (utf8 "false") text with
  | some text, _, _, _, _ => (readString text).map fun r => (.string r.1, r.2)
  | none, some rest, _, _, _ => some (.array [], rest)
  | none, none, some rest, _, _ => (readItems text.length rest).map fun r => (.array r.1, r.2)
  | none, none, none, some rest, _ => some (.boolean true, rest)
  | none, none, none, none, some rest => some (.boolean false, rest)
  | none, none, none, none, none => readNumber text

/-- A bare key and what follows it. -/
def readKey (text : Text) : Option (String × Text) :=
  (String.fromUTF8? (text.takeWhile fun b => BareByte b).toByteArray).map fun key =>
    (key, text.dropWhile fun b => BareByte b)

/-! ### Strings -/

theorem expect_append (p rest : Text) : expect p (p ++ rest) = some rest := by
  induction p with
  | nil => cases rest <;> rfl
  | cons b p ih => simpa [expect] using ih

theorem expect_eq_some {p text rest : Text} (h : expect p text = some rest) : text = p ++ rest := by
  induction p generalizing text with
  | nil =>
    simp only [expect, Option.some.injEq] at h
    exact h
  | cons b p ih =>
    cases text with
    | nil => cases h
    | cons c text =>
      simp only [expect] at h
      split_ifs at h with hbc
      rw [hbc, ih h, List.cons_append]

/-- Where a longest prefix ends. -/
theorem takeWhile_stop {p : UInt8 → Bool} {s : Text} {b : UInt8} (hs : ∀ a ∈ s, p a = true) (hb : p b = false)
    (rest : Text) : (s ++ b :: rest).takeWhile p = s ∧ (s ++ b :: rest).dropWhile p = b :: rest := by
  rw [List.takeWhile_append_of_pos hs, List.dropWhile_append_of_pos hs]
  simp [hb]

theorem readString_append {s : Text} (h : Plain s) (rest : Text) :
    readString (s ++ quote :: rest) = some (s, rest) := by
  obtain ⟨htake, hdrop⟩ := @takeWhile_stop (· ≠ quote) s quote
    (fun b hb => by simpa using (h.1 b hb).2.1) (by simp) rest
  simp only [readString, htake, hdrop, if_pos h]
  rw [show quote :: rest = [quote] ++ rest from rfl, expect_append]
  rfl

/-- A plain string is read as it stands. -/
theorem Plain.content {s : Text} (h : Plain s) : Content false s s := by
  obtain ⟨hbytes, ⟨cs, hcs⟩⟩ := h
  obtain rfl := List.toByteArray_inj.mp hcs
  induction cs with
  | nil => exact .nil
  | cons c cs ih =>
    rw [List.flatMap_cons] at hbytes ⊢
    obtain ⟨hc, hrest⟩ := List.forall_mem_append.mp hbytes
    exact .char c hc (ih hrest rfl)

theorem readString_sound {text s rest : Text} (h : readString text = some (s, rest)) : StringAt text s := by
  simp only [readString] at h
  split_ifs at h with hplain
  obtain ⟨rest', hrest, h⟩ := Option.map_eq_some_iff.mp h
  obtain ⟨hs, -⟩ := Prod.mk.inj h
  have htext := List.takeWhile_append_dropWhile (p := fun b => decide (b ≠ quote)) (l := text)
  rw [expect_eq_some hrest, hs] at htext
  rw [hs] at hplain
  rw [← htext]
  exact .basic hplain.content

/-! ### Numbers -/

theorem digit_byte {d : ℕ} (h : d < 10) :
    Digit (0x30 + UInt8.ofNat d) ∧ (0x30 + UInt8.ofNat d - 0x30).toNat = d := by
  have hall : ∀ d < 10, Digit (0x30 + UInt8.ofNat d) ∧ (0x30 + UInt8.ofNat d - 0x30).toNat = d := by decide
  exact hall d h

theorem decimal_digits (n : ℕ) : ∀ b ∈ decimal n, Digit b := by
  unfold decimal
  split_ifs
  · exact forall_mem_of_all rfl
  · intro b hb
    obtain ⟨d, hd, rfl⟩ := List.mem_map.mp hb
    exact (digit_byte (Nat.digits_lt_base (by decide) (List.mem_reverse.mp hd))).1

theorem decimal_ne_nil (n : ℕ) : decimal n ≠ [] := by
  unfold decimal
  split_ifs with hn
  · decide
  · simpa [Nat.digits_eq_nil_iff_eq_zero] using hn

theorem ofDecimal_decimal (n : ℕ) : ofDecimal (decimal n) = n := by
  unfold decimal
  split_ifs with hn
  · rw [hn]
    decide
  · have hdigits : ((Nat.digits 10 n).reverse.map fun d => ((0x30 + UInt8.ofNat d - 0x30).toNat)) =
        (Nat.digits 10 n).reverse := by
      refine (List.map_congr_left fun d hd => ?_).trans (List.map_id _)
      exact (digit_byte (Nat.digits_lt_base (by decide) (List.mem_reverse.mp hd))).2
    rw [ofDecimal, List.map_map]
    show Nat.ofDigits 10 ((Nat.digits 10 n).reverse.map fun d => (0x30 + UInt8.ofNat d - 0x30).toNat).reverse = n
    rw [hdigits, List.reverse_reverse, Nat.ofDigits_digits]

/-- A text that begins with a digit. -/
theorem expect_decimal {c : UInt8} (hc : ¬ Digit c) (p : Text) (n : ℕ) (rest : Text) :
    expect (c :: p) (decimal n ++ rest) = none := by
  obtain ⟨b, digits, hn⟩ := List.exists_cons_of_ne_nil (decimal_ne_nil n)
  have hb : Digit b := decimal_digits n b (by simp [hn])
  have hne : c ≠ b := by
    rintro rfl
    exact hc hb
  rw [hn, List.cons_append, expect, if_neg hne]

theorem readNumber_number (n : ℤ) (rest : Text) :
    readNumber (number n ++ newline :: rest) =
      if (Literal.integer n).Plain then some (.integer (Int64.ofInt n), newline :: rest) else none := by
  obtain ⟨htake, hdrop⟩ := @takeWhile_stop (fun b => Digit b) (decimal n.natAbs) newline
    (fun b hb => by simpa using decimal_digits _ b hb) (by decide) rest
  by_cases hneg : n < 0
  · have habs : -(n.natAbs : ℤ) = n := by omega
    have hexpect : expect [0x2D] (number n ++ newline :: rest) = some (decimal n.natAbs ++ newline :: rest) := by
      rw [number, if_pos hneg]
      exact expect_append [0x2D] _
    simp only [readNumber, hexpect, Option.getD_some, Option.isSome_some, if_true, htake, hdrop,
      ofDecimal_decimal, habs]
  · have habs : (n.natAbs : ℤ) = n := by omega
    have hexpect : expect [0x2D] (decimal n.natAbs ++ newline :: rest) = none :=
      expect_decimal (by decide) [] _ _
    rw [show number n = decimal n.natAbs from if_neg hneg]
    simp only [readNumber, hexpect, Option.getD_none, Option.isSome_none, Bool.false_eq_true, if_false,
      htake, hdrop, ofDecimal_decimal, habs]

/-! ### Values -/

theorem readValue_string (text : Text) :
    readValue (quote :: text) = (readString text).map fun r => (.string r.1, r.2) := by
  rfl

theorem readValue_number (n : ℤ) (rest : Text) :
    readValue (number n ++ newline :: rest) = readNumber (number n ++ newline :: rest) := by
  have hexpect : ∀ c p, ¬ Digit c → c ≠ 0x2D → expect (c :: p) (number n ++ newline :: rest) = none := by
    intro c p hc hminus
    unfold number
    split_ifs
    · rw [List.cons_append, expect, if_neg hminus]
    · exact expect_decimal hc p _ _
  have hquote : expect [quote] (number n ++ newline :: rest) = none :=
    hexpect quote _ (by decide) (by decide)
  have hempty : expect (utf8 "[]") (number n ++ newline :: rest) = none :=
    hexpect 0x5B _ (by decide) (by decide)
  have harray : expect (utf8 "[") (number n ++ newline :: rest) = none :=
    hexpect 0x5B _ (by decide) (by decide)
  have htrue : expect (utf8 "true") (number n ++ newline :: rest) = none :=
    hexpect 0x74 _ (by decide) (by decide)
  have hfalse : expect (utf8 "false") (number n ++ newline :: rest) = none :=
    hexpect 0x66 _ (by decide) (by decide)
  simp only [readValue, hquote, hempty, harray, htrue, hfalse]

/-- One string of an array. -/
theorem readItems_quoted {s : Text} (h : Plain s) (fuel : ℕ) (rest : Text) :
    readItems (fuel + 1) (quoted s ++ rest) =
      match expect (utf8 ", ") rest with
      | some rest => (readItems fuel rest).map fun q => (.string s :: q.1, q.2)
      | none => (expect (utf8 "]") rest).map fun rest => ([.string s], rest) := by
  have hquote : expect [quote] (quoted s ++ rest) = some (s ++ quote :: rest) := by
    rw [show quoted s ++ rest = [quote] ++ (s ++ quote :: rest) by simp [quoted]]
    exact expect_append _ _
  simp only [readItems, hquote, Option.bind_some, readString_append h]

theorem readItems_items {ss : List Text} (hss : ∀ s ∈ ss, Plain s) (hne : ss ≠ []) (rest : Text) {fuel : ℕ}
    (hfuel : ss.length ≤ fuel) :
    readItems fuel (items ss ++ (utf8 "]" ++ rest)) = some (ss.map Value.string, rest) := by
  induction ss generalizing fuel with
  | nil => exact absurd rfl hne
  | cons s ss ih =>
    obtain ⟨hs, hss⟩ := List.forall_mem_cons.mp hss
    obtain ⟨fuel, rfl⟩ : ∃ k, fuel = k + 1 := Nat.exists_eq_add_of_le' (Nat.le_trans (Nat.succ_pos _) hfuel)
    cases ss with
    | nil =>
      have hcomma : expect (utf8 ", ") (utf8 "]" ++ rest) = none := rfl
      rw [items, readItems_quoted hs, hcomma, expect_append]
      rfl
    | cons s' ss =>
      have hrest := ih hss (List.cons_ne_nil _ _) (Nat.le_of_succ_le_succ hfuel)
      rw [items, List.append_assoc, List.append_assoc, readItems_quoted hs, expect_append]
      · simp only [hrest]
        rfl
      · exact List.cons_ne_nil _ _

/-- An array whose first strings are plain. -/
theorem readItems_open {ss : List Text} (hss : ∀ s ∈ ss, Plain s) {rest : Text} {fuel : ℕ}
    {r : List Value × Text}
    (h : readItems fuel (ss.flatMap (fun s => quoted s ++ utf8 ", ") ++ quote :: rest) = some r) :
    ∃ s values, StringAt rest s ∧ r.1 = ss.map Value.string ++ .string s :: values := by
  induction ss generalizing fuel r with
  | nil =>
    cases fuel with
    | zero => cases h
    | succ fuel =>
      simp only [readItems, List.flatMap_nil, List.nil_append] at h
      rw [show quote :: rest = [quote] ++ rest from rfl, expect_append, Option.bind_some] at h
      obtain ⟨⟨s, rest'⟩, hs, h⟩ := Option.bind_eq_some_iff.mp h
      refine ⟨s, ?_⟩
      cases hcomma : expect (utf8 ", ") rest' with
      | some rest'' =>
        simp only [hcomma] at h
        obtain ⟨q, -, rfl⟩ := Option.map_eq_some_iff.mp h
        exact ⟨q.1, readString_sound hs, rfl⟩
      | none =>
        simp only [hcomma] at h
        obtain ⟨rest'', -, rfl⟩ := Option.map_eq_some_iff.mp h
        exact ⟨[], readString_sound hs, rfl⟩
  | cons s ss ih =>
    cases fuel with
    | zero => cases h
    | succ fuel =>
      obtain ⟨hs, hss⟩ := List.forall_mem_cons.mp hss
      rw [List.flatMap_cons, List.append_assoc, List.append_assoc, readItems_quoted hs, expect_append] at h
      obtain ⟨q, hq, rfl⟩ := Option.map_eq_some_iff.mp h
      obtain ⟨s', values, hs', hvalues⟩ := ih hss hq
      exact ⟨s', values, hs', by rw [hvalues]; rfl⟩

theorem items_cons (s : Text) (ss : List Text) : ∃ text, items (s :: ss) = quote :: text := by
  cases ss with
  | nil => exact ⟨_, rfl⟩
  | cons s' ss => exact ⟨_, rfl⟩

theorem length_le_items (ss : List Text) : ss.length ≤ (items ss).length := by
  induction ss with
  | nil => exact Nat.le_refl 0
  | cons s ss ih =>
    cases ss with
    | nil => simp [items, quoted]
    | cons s' ss =>
      simp only [items, List.length_append, List.length_cons] at ih ⊢
      simp only [quoted, List.length_cons]
      omega

theorem readValue_items {text : Text} (h : expect (utf8 "]") text = none) :
    readValue (utf8 "[" ++ text) =
      (readItems (utf8 "[" ++ text).length text).map fun r => (.array r.1, r.2) := by
  have hquote : expect [quote] (utf8 "[" ++ text) = none := rfl
  have hempty : expect (utf8 "[]") (utf8 "[" ++ text) = none := h
  simp only [readValue, hquote, hempty, expect_append]

/-- A plain value is read as it was printed. -/
theorem readValue_text {v : Literal} (h : v.Plain) (rest : Text) :
    readValue (v.text ++ newline :: rest) = some (v.value, newline :: rest) := by
  cases v with
  | boolean b =>
    cases b with
    | false => rfl
    | true => rfl
  | integer n =>
    rw [Literal.text, readValue_number, readNumber_number, if_pos h]
    rfl
  | string s =>
    rw [Literal.text, show quoted s ++ newline :: rest = quote :: (s ++ quote :: newline :: rest) by simp [quoted],
      readValue_string, readString_append h]
    rfl
  | strings ss =>
    cases ss with
    | nil => rfl
    | cons s ss =>
      obtain ⟨text, htext⟩ := items_cons s ss
      have hclosed : expect (utf8 "]") (items (s :: ss) ++ (utf8 "]" ++ newline :: rest)) = none := by
        rw [htext]
        rfl
      have hfuel : (s :: ss).length ≤
          (utf8 "[" ++ (items (s :: ss) ++ (utf8 "]" ++ newline :: rest))).length := by
        refine (length_le_items (s :: ss)).trans ?_
        simp only [List.length_append]
        omega
      rw [Literal.text, List.append_assoc, List.append_assoc, readValue_items hclosed,
        readItems_items h (List.cons_ne_nil _ _) _ hfuel]
      rfl

/-! ### Lines -/

/-- One line of a document behind the tables `st`. -/
def readLine (st : Sections) (text : Text) : Option (Sections × Text) :=
  match expect [newline] text, expect (utf8 "#") text, expect (utf8 "[") text with
  | some rest, _, _ => some (st, rest)
  | none, some text, _ => (expect [newline] (text.dropWhile (· ≠ newline))).map fun rest => (st, rest)
  | none, none, some text =>
    (readKey text).bind fun r => (expect (utf8 "]" ++ [newline]) r.2).bind fun rest =>
      if (st.lookup r.1).isNone then some ((r.1, []) :: st, rest) else none
  | none, none, none =>
    (readKey text).bind fun r => (expect (utf8 " = ") r.2).bind fun text =>
      (readValue text).bind fun q => (expect [newline] q.2).bind fun rest =>
        match st with
        | (name, entries) :: st =>
          if (entries.lookup r.1).isNone then some ((name, (r.1, q.1) :: entries) :: st, rest) else none
        | [] => none

/-- The lines of a document. -/
def readLines : ℕ → Sections → Text → Option Sections
  | _, st, [] => some st
  | 0, _, _ :: _ => none
  | fuel + 1, st, b :: text => (readLine st (b :: text)).bind fun r => readLines fuel r.1 r.2

/-- The reader. -/
def read (text : Text) : Option Entries := (readLines text.length [] text).map Sections.table

theorem fromUTF8?_utf8 (key : String) : String.fromUTF8? (utf8 key).toByteArray = some key := by
  have hkey : (utf8 key).toByteArray = key.toByteArray := String.utf8Encode_toList
  rw [hkey, String.fromUTF8?, dif_pos key.isValidUTF8]
  rfl

theorem readKey_append {key : String} (h : Bare key) {b : UInt8} (hb : ¬ BareByte b) (rest : Text) :
    readKey (utf8 key ++ b :: rest) = some (key, b :: rest) := by
  obtain ⟨htake, hdrop⟩ := @takeWhile_stop (fun b => BareByte b) (utf8 key) b
    (fun b hb => by simpa using h.2 b hb) (by simpa using hb) rest
  rw [readKey, htake, hdrop, fromUTF8?_utf8]
  rfl

/-- A text that begins with a bare key. -/
theorem expect_bare {c : UInt8} (hc : ¬ BareByte c) (p : Text) {key : String} (h : Bare key) (rest : Text) :
    expect (c :: p) (utf8 key ++ rest) = none := by
  obtain ⟨b, bytes, hkey⟩ := List.exists_cons_of_ne_nil h.1
  have hb : BareByte b := h.2 b (by simp [hkey])
  have hne : c ≠ b := by
    rintro rfl
    exact hc hb
  rw [hkey, List.cons_append, expect, if_neg hne]

/-- An entry up to the value. -/
theorem readLine_key {name key : String} {entries : Entries} {st : Sections} (hkey : Bare key)
    (hnew : entries.lookup key = none) (text : Text) :
    readLine ((name, entries) :: st) (keyText key ++ text) =
      (readValue text).bind fun q => (expect [newline] q.2).map fun rest =>
        ((name, (key, q.1) :: entries) :: st, rest) := by
  have hexpect : ∀ c p, ¬ BareByte c → expect (c :: p) (keyText key ++ text) = none := by
    intro c p hc
    rw [keyText, List.append_assoc]
    exact expect_bare hc p hkey _
  have hblank : expect [newline] (keyText key ++ text) = none := hexpect newline _ (by decide)
  have hcomment : expect (utf8 "#") (keyText key ++ text) = none := hexpect 0x23 _ (by decide)
  have hheader : expect (utf8 "[") (keyText key ++ text) = none := hexpect 0x5B _ (by decide)
  have hread : readKey (keyText key ++ text) = some (key, utf8 " = " ++ text) := by
    rw [keyText, List.append_assoc]
    exact readKey_append hkey (by decide) _
  simp only [readLine, hblank, hcomment, hheader, hread, Option.bind_some, expect_append, hnew,
    Option.isNone_none, if_true]
  cases readValue text with
  | none => rfl
  | some q =>
    simp only [Option.bind_some]
    cases expect [newline] q.2 with
    | none => rfl
    | some rest => rfl

/-- A line that fits is read. -/
theorem readLine_text {st : Sections} {l : Line} (h : Fits st l) (rest : Text) :
    readLine st (l.text ++ rest) = some (st.extend l, rest) := by
  cases l with
  | comment s =>
    have hblank : expect [newline] (utf8 "#" ++ (utf8 s ++ newline :: rest)) = none := rfl
    have hstop : ∀ b ∈ utf8 s, decide (b ≠ newline) = true := by
      intro b hb
      have hb := h b hb
      rw [decide_eq_true_iff]
      rintro rfl
      exact absurd hb (by decide)
    have hdrop := (takeWhile_stop hstop (show decide (newline ≠ newline) = false by decide) rest).2
    rw [Line.text, List.append_assoc, List.append_assoc]
    show readLine st (utf8 "#" ++ (utf8 s ++ newline :: rest)) = _
    simp only [readLine, hblank, expect_append, hdrop]
    rw [show newline :: rest = [newline] ++ rest from rfl, expect_append]
    rfl
  | blank => rfl
  | header name =>
    obtain ⟨hname, hnew⟩ : Bare name ∧ st.lookup name = none := by
      cases st <;> exact h
    rw [Line.text, List.append_assoc, List.append_assoc]
    have hblank : expect [newline] (utf8 "[" ++ (utf8 name ++ ((utf8 "]" ++ [newline]) ++ rest))) = none := rfl
    have hcomment : expect (utf8 "#") (utf8 "[" ++ (utf8 name ++ ((utf8 "]" ++ [newline]) ++ rest))) = none :=
      rfl
    have hread : readKey (utf8 name ++ ((utf8 "]" ++ [newline]) ++ rest)) =
        some (name, (utf8 "]" ++ [newline]) ++ rest) := readKey_append hname (by decide) _
    simp only [readLine, hblank, hcomment, hread, expect_append, Option.bind_some, hnew, Option.isNone_none,
      if_true]
    cases st <;> rfl
  | entry key value =>
    cases st with
    | nil => exact h.elim
    | cons section_ st =>
      obtain ⟨hkey, hnew, hplain⟩ := h
      have hvalue : readValue (value.text ++ ([newline] ++ rest)) = some (value.value, [newline] ++ rest) :=
        readValue_text hplain rest
      rw [Line.text, List.append_assoc, List.append_assoc, readLine_key hkey hnew, hvalue, Option.bind_some,
        expect_append]
      rfl

theorem line_ne_nil {st : Sections} {l : Line} (h : Fits st l) : l.text ≠ [] := by
  cases l with
  | comment s => exact List.cons_ne_nil _ _
  | blank => exact List.cons_ne_nil _ _
  | header name => exact List.cons_ne_nil _ _
  | entry key value => simp [Line.text]

/-- The lines of a well-formed document are read, and then the rest. -/
theorem readLines_text {st : Sections} {lines : List Line} (h : WellFormed st lines) (rest : Text) {fuel : ℕ}
    (hfuel : (documentText lines ++ rest).length ≤ fuel) :
    ∃ fuel', rest.length ≤ fuel' ∧
      readLines fuel st (documentText lines ++ rest) = readLines fuel' (lines.foldl Sections.extend st) rest := by
  induction lines generalizing st fuel with
  | nil => exact ⟨fuel, hfuel, rfl⟩
  | cons l lines ih =>
    obtain ⟨hl, hlines⟩ := h
    obtain ⟨b, text, htext⟩ := List.exists_cons_of_ne_nil (line_ne_nil hl)
    have hsplit : documentText (l :: lines) ++ rest = b :: text ++ (documentText lines ++ rest) := by
      rw [← htext]
      exact List.append_assoc _ _ _
    rw [hsplit] at hfuel ⊢
    obtain ⟨fuel, rfl⟩ : ∃ k, fuel = k + 1 := Nat.exists_eq_add_of_le' (Nat.le_trans (Nat.succ_pos _) hfuel)
    have hline := readLine_text hl (documentText lines ++ rest)
    rw [htext] at hline
    have hstep : readLines (fuel + 1) st (b :: text ++ (documentText lines ++ rest)) =
        readLines fuel (st.extend l) (documentText lines ++ rest) := by
      rw [List.cons_append] at hline ⊢
      rw [readLines, hline]
      rfl
    rw [hstep]
    refine ih hlines ?_
    simp only [List.length_append, List.length_cons] at hfuel ⊢
    omega

/-! ### What has been read -/

/-- A line read leaves the values before it. -/
theorem readLine_keeps {st : Sections} {text : Text} {r : Sections × Text} {name key : String} {v : Value}
    (h : valueAt st.table name key = some v) (hread : readLine st text = some r) :
    valueAt r.1.table name key = some v := by
  rw [valueAt_table] at h ⊢
  obtain ⟨entries, hname, hkey⟩ := Option.bind_eq_some_iff.mp h
  unfold readLine at hread
  split at hread
  · obtain rfl := Option.some.inj hread
    exact h
  · obtain ⟨rest, -, rfl⟩ := Option.map_eq_some_iff.mp hread
    exact h
  · obtain ⟨r', -, hread⟩ := Option.bind_eq_some_iff.mp hread
    obtain ⟨rest, -, hread⟩ := Option.bind_eq_some_iff.mp hread
    split_ifs at hread with hnew
    obtain rfl := Option.some.inj hread
    rw [lookup_cons_of_new hname (Option.isNone_iff_eq_none.mp hnew)]
    exact hkey
  · obtain ⟨r', -, hread⟩ := Option.bind_eq_some_iff.mp hread
    obtain ⟨text', -, hread⟩ := Option.bind_eq_some_iff.mp hread
    obtain ⟨q, -, hread⟩ := Option.bind_eq_some_iff.mp hread
    obtain ⟨rest, -, hread⟩ := Option.bind_eq_some_iff.mp hread
    cases st with
    | nil => cases hread
    | cons s st =>
      obtain ⟨name', entries'⟩ := s
      simp only at hread
      split_ifs at hread with hnew
      obtain rfl := Option.some.inj hread
      rw [List.lookup_cons] at hname ⊢
      cases heq : name == name' with
      | true =>
        simp only [heq, Option.some.injEq] at hname
        obtain rfl := hname
        exact lookup_cons_of_new hkey (Option.isNone_iff_eq_none.mp hnew)
      | false =>
        simp only [heq] at hname
        simp only [hname]
        exact hkey

theorem readLines_keeps {fuel : ℕ} {st st' : Sections} {text : Text} {name key : String} {v : Value}
    (h : valueAt st.table name key = some v) (hread : readLines fuel st text = some st') :
    valueAt st'.table name key = some v := by
  induction fuel generalizing st text with
  | zero =>
    cases text with
    | nil =>
      obtain rfl := Option.some.inj hread
      exact h
    | cons b text => cases hread
  | succ fuel ih =>
    cases text with
    | nil =>
      obtain rfl := Option.some.inj hread
      exact h
    | cons b text =>
      obtain ⟨r, hline, hread⟩ := Option.bind_eq_some_iff.mp hread
      exact ih (readLine_keeps h hline) hread

/-- An entry behind a well-formed document has the value that is read where it stands. -/
theorem read_entry {lines : List Line} {name key : String} (h : Expects lines name key) {text : Text}
    {doc : Entries} (hread : read (documentText lines ++ (keyText key ++ text)) = some doc) :
    ∃ q, readValue text = some q ∧ valueAt doc name key = some q.1 := by
  obtain ⟨hlines, hkey, entries, st, hst, hnew⟩ := h
  obtain ⟨st', hlast, rfl⟩ := Option.map_eq_some_iff.mp hread
  obtain ⟨fuel, hfuel, heq⟩ := readLines_text hlines (keyText key ++ text) le_rfl
  rw [heq, hst] at hlast
  obtain ⟨b, key', htext⟩ := List.exists_cons_of_ne_nil (show keyText key ≠ [] by simp [keyText, hkey.1])
  obtain ⟨fuel, rfl⟩ : ∃ k, fuel = k + 1 := by
    refine Nat.exists_eq_add_of_le' (Nat.le_trans ?_ hfuel)
    rw [htext]
    exact Nat.succ_pos _
  have hline := @readLine_key name key entries st hkey hnew text
  rw [htext, List.cons_append] at hline hlast
  obtain ⟨r, hr, hlast⟩ := Option.bind_eq_some_iff.mp hlast
  rw [hline] at hr
  obtain ⟨q, hq, hr⟩ := Option.bind_eq_some_iff.mp hr
  obtain ⟨rest, -, rfl⟩ := Option.map_eq_some_iff.mp hr
  refine ⟨q, hq, readLines_keeps ?_ hlast⟩
  rw [valueAt_table, List.lookup_cons_self, Option.bind_some, List.lookup_cons_self]

/-- A well-formed document is read as its tables. -/
theorem read_documentText {lines : List Line} (h : WellFormed [] lines) :
    read (documentText lines) = some (lines.foldl Sections.extend []).table := by
  obtain ⟨fuel, -, heq⟩ := readLines_text h [] le_rfl
  rw [List.append_nil] at heq
  rw [read, heq]
  cases fuel <;> rfl

/-- **The reader reads TOML.** -/
theorem read_reads : ReadsToml read where
  plain := by
    intro lines h
    refine ⟨_, read_documentText h, ?_⟩
    intro name entries hname
    refine ⟨entries, ?_, fun _ => rfl⟩
    rw [lookup_table, hname]
    rfl
  integer := by
    intro lines name key n rest doc h hread
    obtain ⟨q, hq, hvalue⟩ := read_entry h hread
    rw [readValue_number, readNumber_number] at hq
    split_ifs at hq with hn
    obtain rfl := Option.some.inj hq
    exact ⟨Int64.ofInt n, Int64.toInt_ofInt_of_le hn.1 (Int.lt_of_le_of_lt hn.2 (by decide)), hvalue⟩
  string := by
    intro lines name key rest doc h hread
    obtain ⟨q, hq, hvalue⟩ := read_entry h hread
    rw [readValue_string] at hq
    obtain ⟨r, hr, rfl⟩ := Option.map_eq_some_iff.mp hq
    exact ⟨r.1, readString_sound hr, hvalue⟩
  strings := by
    intro lines name key ss rest doc h hss hread
    obtain ⟨q, hq, hvalue⟩ := read_entry h hread
    have hclosed : expect (utf8 "]") (ss.flatMap (fun s => quoted s ++ utf8 ", ") ++ quote :: rest) = none := by
      cases ss <;> rfl
    rw [readValue_items hclosed] at hq
    obtain ⟨r, hr, rfl⟩ := Option.map_eq_some_iff.mp hq
    obtain ⟨s, values, hs, hvalues⟩ := readItems_open hss hr
    refine ⟨s, values, hs, ?_⟩
    rw [hvalue, hvalues]

end LuspUpload.Lib.Toml
