import Mathlib.Algebra.Order.Ring.Nat
import Mathlib.Data.List.Basic
import Mathlib.Tactic.Common

/-!
# Lib.CodePage — characters in UTF-8, in UTF-16 and in a system code page

A code page is UTF-8, or a table of one or two bytes to a code unit, with ASCII below 0x80.  UTF-8 bytes
read through such a table give the text back exactly when the text is ASCII (`decode_utf8Bytes_iff`): a
table spends at most two bytes on a code unit that is not ASCII, UTF-8 at least two, and where it spends
two the table has another character.
-/

namespace LuspUpload.Lib

/-- The UTF-8 bytes of a text. -/
def utf8Bytes (cs : List Char) : List UInt8 := cs.flatMap String.utf8EncodeChar

/-- The UTF-16 code units of a character. -/
def utf16Char (c : Char) : List UInt16 :=
  if c.toNat < 0x10000 then [.ofNat c.toNat]
  else [.ofNat (0xD800 + (c.toNat - 0x10000) / 0x400), .ofNat (0xDC00 + (c.toNat - 0x10000) % 0x400)]

/-- The UTF-16 code units of a text. -/
def utf16Units (cs : List Char) : List UInt16 := cs.flatMap utf16Char

/-- Half of a pair. -/
def IsSurrogate (u : UInt16) : Prop := 0xD800 ≤ u.toNat ∧ u.toNat < 0xE000

instance (u : UInt16) : Decidable (IsSurrogate u) := inferInstanceAs (Decidable (_ ∧ _))

/-- The code unit is ASCII. -/
def IsAscii (u : UInt16) : Prop := u.toNat < 0x80

instance (u : UInt16) : Decidable (IsAscii u) := inferInstanceAs (Decidable (_ < _))

/-- The characters of a well-formed UTF-16 text. -/
def decodeUtf16 : List UInt16 → Option (List Char)
  | [] => some []
  | u :: us =>
    if ¬ IsSurrogate u then (decodeUtf16 us).map (.ofNat u.toNat :: ·)
    else
      match us with
      | [] => none
      | v :: rest =>
        if u.toNat < 0xDC00 ∧ IsSurrogate v ∧ 0xDC00 ≤ v.toNat then
          (decodeUtf16 rest).map
            (.ofNat (0x10000 + (u.toNat - 0xD800) * 0x400 + (v.toNat - 0xDC00)) :: ·)
        else none

/-- A code page of single bytes and pairs.  A pair is neither ASCII nor a surrogate, and is not the UTF-8
form of its own character. -/
structure CharTable where
  single : UInt8 → Option UInt16
  double : UInt8 → UInt8 → Option UInt16
  double_ascii : ∀ b b' u, double b b' = some u → ¬ IsAscii u
  double_surrogate : ∀ b b' u, double b b' = some u → ¬ IsSurrogate u
  double_utf8 : ∀ b b' u c, double b b' = some u → String.utf8EncodeChar c = [b, b'] →
    u.toNat ≠ c.toNat

/-- The code units of a text in the code page; `none` when a byte has no meaning. -/
def CharTable.decode (t : CharTable) : List UInt8 → Option (List UInt16)
  | [] => some []
  | b :: bs =>
    if b.toNat < 0x80 then (t.decode bs).map (b.toUInt16 :: ·)
    else
      match t.single b with
      | some u => (t.decode bs).map (u :: ·)
      | none =>
        match bs with
        | [] => none
        | b' :: rest =>
          match t.double b b' with
          | some u => (t.decode rest).map (u :: ·)
          | none => none

/-- A system code page. -/
inductive CodePage where
  | utf8
  | table (t : CharTable)

/-- The UTF-16 text of a text in the code page. -/
def CodePage.decode : CodePage → List UInt8 → Option (List UInt16)
  | .utf8, bytes => bytes.toByteArray.utf8Decode?.map fun cs => utf16Units cs.toList
  | .table t, bytes => t.decode bytes

/-! ### Characters -/

section Characters

variable {c : Char}

theorem utf8EncodeChar_ascii (h : c.toNat < 0x80) :
    String.utf8EncodeChar c = [.ofNat c.toNat] := by
  have hle : c.val.toNat ≤ 0x7f := by
    show c.toNat ≤ 0x7f
    omega
  unfold String.utf8EncodeChar
  rw [if_pos hle]
  rfl

theorem utf16Char_basic (h : c.toNat < 0x10000) : utf16Char c = [.ofNat c.toNat] := if_pos h

theorem utf16Char_ne_nil (c : Char) : utf16Char c ≠ [] := by
  unfold utf16Char
  split_ifs
  · exact List.cons_ne_nil _ _
  · exact List.cons_ne_nil _ _

theorem toNat_ofNat_unit {n : ℕ} (h : n < 0x10000) : (UInt16.ofNat n).toNat = n :=
  UInt16.toNat_ofNat_of_lt' h

theorem toNat_lt_char (c : Char) : c.toNat < 0x110000 := by
  have hvalid := c.valid
  rcases hvalid with h | h
  · show c.val.toNat < 0x110000
    omega
  · exact h.2

/-- The bytes and the code units of a character that is not ASCII: two bytes and one unit, three and one,
or four and a pair. -/
theorem char_cases (h : 0x80 ≤ c.toNat) : ∃ b b' rest u tail,
    String.utf8EncodeChar c = b :: b' :: rest ∧ 0x80 ≤ b.toNat ∧ utf16Char c = u :: tail ∧
    ¬ IsAscii u ∧ (rest = [] ∧ tail = [] ∧ u.toNat = c.toNat ∨ rest.length = 1 ∧ tail = [] ∨
      rest.length = 2 ∧ tail.length = 1 ∧ IsSurrogate u) := by
  have hmax := toNat_lt_char c
  have hval : c.val.toNat = c.toNat := rfl
  unfold String.utf8EncodeChar
  simp only [hval]
  rw [if_neg (by omega)]
  by_cases h2 : c.toNat ≤ 0x7ff
  · rw [if_pos h2, utf16Char_basic (by omega)]
    refine ⟨_, _, _, _, _, rfl, ?_, rfl, ?_, Or.inl ⟨rfl, rfl, ?_⟩⟩
    · rw [UInt8.toNat_ofNat']
      omega
    · rw [IsAscii, toNat_ofNat_unit (by omega)]
      omega
    · exact toNat_ofNat_unit (by omega)
  · rw [if_neg h2]
    by_cases h3 : c.toNat ≤ 0xffff
    · rw [if_pos h3, utf16Char_basic (by omega)]
      refine ⟨_, _, _, _, _, rfl, ?_, rfl, ?_, Or.inr (Or.inl ⟨rfl, rfl⟩)⟩
      · rw [UInt8.toNat_ofNat']
        omega
      · rw [IsAscii, toNat_ofNat_unit (by omega)]
        omega
    · rw [if_neg h3, utf16Char, if_neg (by omega)]
      refine ⟨_, _, _, _, _, rfl, ?_, rfl, ?_, Or.inr (Or.inr ⟨rfl, rfl, ?_⟩)⟩
      · rw [UInt8.toNat_ofNat']
        omega
      · rw [IsAscii, toNat_ofNat_unit (by omega)]
        omega
      · rw [IsSurrogate, toNat_ofNat_unit (by omega)]
        omega

/-- A character of two UTF-8 bytes is below U+0800. -/
theorem toNat_lt_of_two_bytes {b b' : UInt8} (h : String.utf8EncodeChar c = [b, b']) :
    c.toNat < 0x800 := by
  by_contra hc
  have hval : c.val.toNat = c.toNat := rfl
  unfold String.utf8EncodeChar at h
  simp only [hval] at h
  rw [if_neg (by omega), if_neg (by omega)] at h
  split_ifs at h
  · simp at h
  · simp at h

end Characters

/-! ### Tables -/

/-- The most bytes that a table spends on the code units. -/
def weight (us : List UInt16) : ℕ := (us.map fun u => if IsAscii u then 1 else 2).sum

theorem weight_cons (u : UInt16) (us : List UInt16) :
    weight (u :: us) = (if IsAscii u then 1 else 2) + weight us := rfl

theorem weight_append (us vs : List UInt16) : weight (us ++ vs) = weight us + weight vs := by
  simp [weight]

theorem weight_le (us : List UInt16) : weight us ≤ 2 * us.length := by
  induction us with
  | nil => exact le_refl 0
  | cons u us ih =>
    rw [weight_cons, List.length_cons]
    split_ifs <;> omega

theorem utf8Bytes_cons (c : Char) (cs : List Char) :
    utf8Bytes (c :: cs) = String.utf8EncodeChar c ++ utf8Bytes cs := List.flatMap_cons

theorem utf16Units_cons (c : Char) (cs : List Char) :
    utf16Units (c :: cs) = utf16Char c ++ utf16Units cs := List.flatMap_cons

/-- UTF-8 spends at least as much. -/
theorem weight_utf16Units_le (cs : List Char) : weight (utf16Units cs) ≤ (utf8Bytes cs).length := by
  induction cs with
  | nil => exact le_refl 0
  | cons c cs ih =>
    rw [utf16Units_cons, utf8Bytes_cons, weight_append, List.length_append]
    have hchar : weight (utf16Char c) ≤ (String.utf8EncodeChar c).length := by
      by_cases hc : c.toNat < 0x80
      · rw [utf8EncodeChar_ascii hc, utf16Char_basic (by omega), weight_cons, if_pos]
        · exact le_refl 1
        · rw [IsAscii, toNat_ofNat_unit (by omega)]
          exact hc
      · obtain ⟨b, b', rest, u, tail, hbytes, -, hunits, hu, hcases⟩ := char_cases (Nat.le_of_not_lt hc)
        have htail := weight_le tail
        rw [hbytes, hunits, weight_cons, if_neg hu, List.length_cons, List.length_cons]
        rcases hcases with ⟨-, rfl, -⟩ | ⟨-, rfl⟩ | ⟨hrest, hone, -⟩
        · simp [weight]
        · simp [weight]
        · omega
    omega

namespace CharTable

variable (t : CharTable)

theorem decode_ascii {b : UInt8} (hb : b.toNat < 0x80) (bs : List UInt8) :
    t.decode (b :: bs) = (t.decode bs).map (b.toUInt16 :: ·) := by
  rw [decode.eq_def]
  exact if_pos hb

/-- A byte that is not ASCII is read by itself or with the next one. -/
theorem decode_cons {b : UInt8} (hb : 0x80 ≤ b.toNat) {bs : List UInt8} {us : List UInt16}
    (h : t.decode (b :: bs) = some us) :
    (∃ u us', t.single b = some u ∧ t.decode bs = some us' ∧ us = u :: us') ∨
    ∃ b' rest u us', bs = b' :: rest ∧ t.double b b' = some u ∧ t.decode rest = some us' ∧
      us = u :: us' := by
  rw [decode.eq_def] at h
  simp only [if_neg (Nat.not_lt.mpr hb)] at h
  cases hsingle : t.single b with
  | some u =>
    simp only [hsingle] at h
    obtain ⟨us', hus', rfl⟩ := Option.map_eq_some_iff.mp h
    exact Or.inl ⟨u, us', rfl, hus', rfl⟩
  | none =>
    simp only [hsingle] at h
    cases bs with
    | nil => exact absurd h (by simp)
    | cons b' rest =>
      cases hdouble : t.double b b' with
      | none => simp [hdouble] at h
      | some u =>
        simp only [hdouble] at h
        obtain ⟨us', hus', rfl⟩ := Option.map_eq_some_iff.mp h
        exact Or.inr ⟨b', rest, u, us', rfl, hdouble, hus', rfl⟩

/-- A table spends one byte on ASCII and at most two on another code unit. -/
theorem length_le_weight : ∀ (n : ℕ) {bs : List UInt8} {us : List UInt16}, bs.length ≤ n →
    t.decode bs = some us → bs.length ≤ weight us
  | _, [], us, _, h => Nat.zero_le _
  | n + 1, b :: bs, us, hn, h => by
    rw [List.length_cons] at hn ⊢
    by_cases hb : b.toNat < 0x80
    · rw [decode_ascii t hb] at h
      obtain ⟨us', hus', rfl⟩ := Option.map_eq_some_iff.mp h
      have ih := length_le_weight n (by omega) hus'
      rw [weight_cons]
      split_ifs <;> omega
    · rcases t.decode_cons (Nat.le_of_not_lt hb) h with ⟨u, us', -, hus', rfl⟩ |
        ⟨b', rest, u, us', rfl, hu, hus', rfl⟩
      · have ih := length_le_weight n (by omega) hus'
        rw [weight_cons]
        split_ifs <;> omega
      · rw [List.length_cons] at hn ⊢
        have ih := length_le_weight n (by omega) hus'
        rw [weight_cons, if_neg (t.double_ascii b b' u hu)]
        omega

/-- The bytes of a text that starts outside ASCII do not give the text back. -/
theorem decode_utf8EncodeChar_ne {c : Char} (hc : 0x80 ≤ c.toNat) (cs : List Char) :
    t.decode (String.utf8EncodeChar c ++ utf8Bytes cs) ≠ some (utf16Char c ++ utf16Units cs) := by
  intro h
  obtain ⟨b, b', rest, u, tail, hbytes, hb, hunits, hu, hcases⟩ := char_cases hc
  have hrest := weight_utf16Units_le cs
  have htail := weight_le tail
  rw [hbytes, hunits] at h
  simp only [List.cons_append] at h
  rcases t.decode_cons hb h with ⟨v, us, -, hus, heq⟩ | ⟨b₂, bs, v, us, hbs, hv, hus, heq⟩
  · -- one byte: the rest of the bytes is too long for the rest of the text
    obtain ⟨rfl, rfl⟩ := List.cons.inj heq
    have hle := t.length_le_weight _ (le_refl _) hus
    rw [weight_append, List.length_cons, List.length_append] at hle
    rcases hcases with ⟨-, rfl, -⟩ | ⟨-, rfl⟩ | ⟨hlen, hone, -⟩
    · simp only [weight, List.map_nil, List.sum_nil] at hle hrest
      omega
    · simp only [weight, List.map_nil, List.sum_nil] at hle hrest
      omega
    · omega
  · -- a pair: too long again, or another character
    obtain ⟨rfl, rfl⟩ := List.cons.inj heq
    obtain ⟨rfl, rfl⟩ := List.cons.inj hbs
    have hle := t.length_le_weight _ (le_refl _) hus
    rw [weight_append, List.length_append] at hle
    rcases hcases with ⟨rfl, -, hval⟩ | ⟨hlen, rfl⟩ | ⟨-, -, hsurrogate⟩
    · exact t.double_utf8 b _ _ c hv hbytes hval
    · simp only [weight, List.map_nil, List.sum_nil] at hle hrest
      omega
    · exact t.double_surrogate b _ _ hv hsurrogate

/-- Only ASCII survives the way through UTF-8 and back through a table. -/
theorem decode_utf8Bytes_iff (cs : List Char) :
    t.decode (utf8Bytes cs) = some (utf16Units cs) ↔ ∀ c ∈ cs, c.toNat < 0x80 := by
  induction cs with
  | nil => simp [utf8Bytes, utf16Units, decode]
  | cons c cs ih =>
    rw [utf8Bytes_cons, utf16Units_cons, List.forall_mem_cons]
    by_cases hc : c.toNat < 0x80
    · have hbyte : (UInt8.ofNat c.toNat).toNat = c.toNat := by
        rw [UInt8.toNat_ofNat']
        omega
      have hunit : (UInt8.ofNat c.toNat).toUInt16 = .ofNat c.toNat := by
        rw [← UInt16.toNat_inj, UInt8.toNat_toUInt16, hbyte, toNat_ofNat_unit (by omega)]
      rw [utf8EncodeChar_ascii hc, utf16Char_basic (by omega), List.singleton_append,
        decode_ascii t (by omega), hunit, List.singleton_append, ← ih]
      constructor
      · intro h
        obtain ⟨us, hus, heq⟩ := Option.map_eq_some_iff.mp h
        rw [hus, (List.cons.inj heq).2]
        exact ⟨hc, rfl⟩
      · rintro ⟨-, h⟩
        rw [h]
        rfl
    · constructor
      · intro h
        exact absurd h (t.decode_utf8EncodeChar_ne (Nat.le_of_not_lt hc) cs)
      · rintro ⟨h, -⟩
        exact absurd h hc

end CharTable

/-- A text is ASCII when its code units are. -/
theorem ascii_utf16Units {cs : List Char} :
    (∀ u ∈ utf16Units cs, IsAscii u) ↔ ∀ c ∈ cs, c.toNat < 0x80 := by
  have hchar : ∀ c : Char, (∀ u ∈ utf16Char c, IsAscii u) ↔ c.toNat < 0x80 := by
    intro c
    by_cases hc : c.toNat < 0x80
    · rw [utf16Char_basic (by omega), List.forall_mem_singleton, IsAscii, toNat_ofNat_unit (by omega)]
    · obtain ⟨-, -, -, u, tail, -, -, hunits, hu, -⟩ := char_cases (Nat.le_of_not_lt hc)
      rw [hunits, List.forall_mem_cons]
      exact iff_of_false (fun h => hu h.1) hc
  constructor
  · intro h c hc
    refine (hchar c).mp fun u hu => h u ?_
    exact List.mem_flatMap.mpr ⟨c, hc, hu⟩
  · intro h u hu
    obtain ⟨c, hc, hu⟩ := List.mem_flatMap.mp hu
    exact (hchar c).mpr (h c hc) u hu

/-- UTF-8 bytes read in a code page give the text back when the page is UTF-8 or the text ASCII, and only
then. -/
theorem CodePage.decode_utf8Bytes_iff (page : CodePage) (cs : List Char) :
    page.decode (utf8Bytes cs) = some (utf16Units cs) ↔
      page = .utf8 ∨ ∀ u ∈ utf16Units cs, IsAscii u := by
  cases page with
  | utf8 =>
    have hbytes : (utf8Bytes cs).toByteArray = cs.utf8Encode := rfl
    refine iff_of_true ?_ (Or.inl rfl)
    rw [decode, hbytes, List.utf8Decode?_utf8Encode]
    rfl
  | table t =>
    rw [decode, t.decode_utf8Bytes_iff, ascii_utf16Units]
    constructor
    · exact Or.inr
    · rintro (h | h)
      · exact absurd h (by simp)
      · exact h

/-! ### UTF-16 -/

theorem not_isSurrogate_ofNat {c : Char} (h : c.toNat < 0x10000) : ¬ IsSurrogate (.ofNat c.toNat) := by
  rw [IsSurrogate, toNat_ofNat_unit h]
  have hval : c.val.toNat = c.toNat := rfl
  rcases c.valid with hvalid | hvalid
  · omega
  · have hlow := hvalid.1
    omega

/-- The characters of a text are read back. -/
theorem decodeUtf16_utf16Units (cs : List Char) : decodeUtf16 (utf16Units cs) = some cs := by
  induction cs with
  | nil => rfl
  | cons c cs ih =>
    rw [utf16Units_cons]
    by_cases hc : c.toNat < 0x10000
    · rw [utf16Char_basic hc, List.singleton_append, decodeUtf16.eq_def]
      simp only [if_pos (not_isSurrogate_ofNat hc), ih, toNat_ofNat_unit hc, Char.ofNat_toNat,
        Option.map_some]
    · have hmax := toNat_lt_char c
      have hhigh : (UInt16.ofNat (0xD800 + (c.toNat - 0x10000) / 0x400)).toNat =
          0xD800 + (c.toNat - 0x10000) / 0x400 := toNat_ofNat_unit (by omega)
      have hlow : (UInt16.ofNat (0xDC00 + (c.toNat - 0x10000) % 0x400)).toNat =
          0xDC00 + (c.toNat - 0x10000) % 0x400 := toNat_ofNat_unit (by omega)
      have hpair : 0x10000 + (0xD800 + (c.toNat - 0x10000) / 0x400 - 0xD800) * 0x400 +
          (0xDC00 + (c.toNat - 0x10000) % 0x400 - 0xDC00) = c.toNat := by omega
      rw [utf16Char, if_neg hc, List.cons_append, List.singleton_append, decodeUtf16.eq_def]
      simp only [IsSurrogate, hhigh, hlow, hpair, ih, Char.ofNat_toNat, Option.map_some]
      rw [if_neg (by omega), if_pos (by omega)]

/-- A number that is no surrogate is the code point of its character. -/
theorem toNat_ofNat_scalar {n : ℕ} (hsurrogate : n < 0xD800 ∨ 0xE000 ≤ n) (hmax : n < 0x110000) :
    (Char.ofNat n).toNat = n := by
  have hvalid : n.isValidChar := by
    show n < 0xD800 ∨ 0xDFFF < n ∧ n < 0x110000
    omega
  rw [Char.ofNat, dif_pos hvalid]
  show (UInt32.ofNatLT n _).toNat = n
  exact UInt32.toNat_ofNatLT

/-- Only well-formed texts are read. -/
theorem eq_utf16Units : ∀ (n : ℕ) {us : List UInt16} {cs : List Char}, us.length ≤ n →
    decodeUtf16 us = some cs → us = utf16Units cs
  | _, [], cs, _, h => by
    obtain rfl := Option.some.inj h
    rfl
  | n + 1, u :: us, cs, hn, h => by
    rw [List.length_cons] at hn
    have hu := u.toNat_lt
    rw [decodeUtf16.eq_def] at h
    simp only at h
    by_cases hsurrogate : IsSurrogate u
    · rw [if_neg (not_not.mpr hsurrogate)] at h
      rw [IsSurrogate] at hsurrogate
      cases us with
      | nil => cases h
      | cons v us =>
        have hv := v.toNat_lt
        rw [List.length_cons] at hn
        simp only at h
        by_cases hpair : u.toNat < 0xDC00 ∧ IsSurrogate v ∧ 0xDC00 ≤ v.toNat
        · rw [if_pos hpair] at h
          obtain ⟨cs', hcs', rfl⟩ := Option.map_eq_some_iff.mp h
          simp only [IsSurrogate] at hpair
          have hchar : (Char.ofNat (0x10000 + (u.toNat - 0xD800) * 0x400 + (v.toNat - 0xDC00))).toNat =
              0x10000 + (u.toNat - 0xD800) * 0x400 + (v.toNat - 0xDC00) :=
            toNat_ofNat_scalar (by omega) (by omega)
          have hhigh : 0xD800 + (0x10000 + (u.toNat - 0xD800) * 0x400 + (v.toNat - 0xDC00) - 0x10000) / 0x400 =
              u.toNat := by omega
          have hlow : 0xDC00 + (0x10000 + (u.toNat - 0xD800) * 0x400 + (v.toNat - 0xDC00) - 0x10000) % 0x400 =
              v.toNat := by omega
          rw [utf16Units_cons, utf16Char, hchar, if_neg (by omega), hhigh, hlow, UInt16.ofNat_toNat,
            UInt16.ofNat_toNat, eq_utf16Units n (by omega) hcs']
          rfl
        · rw [if_neg hpair] at h
          cases h
    · rw [if_pos hsurrogate] at h
      obtain ⟨cs', hcs', rfl⟩ := Option.map_eq_some_iff.mp h
      rw [IsSurrogate] at hsurrogate
      have hchar : (Char.ofNat u.toNat).toNat = u.toNat := toNat_ofNat_scalar (by omega) (by omega)
      rw [utf16Units_cons, utf16Char_basic (by rw [hchar]; exact hu), hchar, UInt16.ofNat_toNat,
        eq_utf16Units n (by omega) hcs']
      rfl

/-- The texts of UTF-8. -/
theorem CodePage.utf8_decode_iff {bytes : List UInt8} {us : List UInt16} :
    utf8.decode bytes = some us ↔ ∃ cs, bytes = utf8Bytes cs ∧ us = utf16Units cs := by
  have hencode : ∀ cs, (utf8Bytes cs).toByteArray = cs.utf8Encode := fun _ => rfl
  rw [decode, Option.map_eq_some_iff]
  constructor
  · rintro ⟨chars, hdecode, rfl⟩
    obtain ⟨cs, hcs⟩ := ByteArray.isSome_utf8Decode?_iff.mp (Option.isSome_iff_exists.mpr ⟨chars, hdecode⟩)
    rw [← hencode, List.toByteArray_inj] at hcs
    subst hcs
    rw [hencode, List.utf8Decode?_utf8Encode] at hdecode
    obtain rfl := Option.some.inj hdecode
    exact ⟨cs, rfl, rfl⟩
  · rintro ⟨cs, rfl, rfl⟩
    exact ⟨cs.toArray, by rw [hencode, List.utf8Decode?_utf8Encode], rfl⟩

end LuspUpload.Lib
