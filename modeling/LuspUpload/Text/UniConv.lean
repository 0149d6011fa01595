import LuspUpload.Ipc.UploadRecord
import LuspUpload.Text.History
import LuspUpload.Text.SystemEncoding

/-!
# Text.UniConv — the text conversions of the upload records

`ToUtf8FromUtf16LE`, `ToUtf16LEFromLocale` and `ToUtf16LEFromUtf8` are calls of `ConvertEncoding`.  The
three conversions of `iconv` are written out as their standards define them; none makes a text more than
twice as long, so the limits of the loop never matter, and the functions are what the records take them to
be, in the code page that `iconv` knows under the name of the system encoding (`uniConv_convertsIn`).
-/

namespace LuspUpload.Text

open Lib Upload Ipc

/-! ### Code units in memory -/

/-- A code unit in two bytes. -/
def unitBytes (u : UInt16) : List UInt8 := leBytes 2 u.toNat

/-- The bytes of a `std::u16string`. -/
def asBytes (us : List UInt16) : List UInt8 := us.flatMap unitBytes

/-- The code unit in front. -/
def unitAt (bytes : List UInt8) : Option UInt16 :=
  if 2 ≤ bytes.length then some (.ofNat (leNat (bytes.take 2))) else none

/-- Bytes read as a `std::u16string`. -/
def asUnits : List UInt8 → List UInt16
  | lo :: hi :: rest => .ofNat (leNat [lo, hi]) :: asUnits rest
  | _ => []

section Units

theorem unit_of_bytes (u : UInt16) : UInt16.ofNat (leNat (unitBytes u)) = u := by
  rw [unitBytes, leNat_leBytes_of_lt u.toNat_lt, UInt16.ofNat_toNat]

theorem unitAt_append (u : UInt16) (rest : List UInt8) : unitAt (unitBytes u ++ rest) = some u := by
  have htake : (unitBytes u ++ rest).take 2 = unitBytes u := List.take_left' (leBytes_length 2 _)
  rw [unitAt, htake, unit_of_bytes, if_pos]
  rw [List.length_append, unitBytes, leBytes_length]
  omega

@[simp] theorem asBytes_nil : asBytes [] = [] := rfl

@[simp] theorem asBytes_cons (u : UInt16) (us : List UInt16) :
  asBytes (u :: us) = unitBytes u ++ asBytes us :=
  List.flatMap_cons

@[simp] theorem asBytes_append (us vs : List UInt16) : asBytes (us ++ vs) = asBytes us ++ asBytes vs :=
  List.flatMap_append

theorem asUnits_asBytes (us : List UInt16) : asUnits (asBytes us) = us := by
  induction us with
  | nil => rfl
  | cons u us ih =>
    have hone : asUnits (unitBytes u ++ asBytes us) =
        .ofNat (leNat (unitBytes u)) :: asUnits (asBytes us) := rfl
    rw [asBytes_cons, hone, ih, unit_of_bytes]

/-- What stands behind a unit. -/
theorem unitBytes_drop (u : UInt16) (bytes : List UInt8) : (unitBytes u ++ bytes).drop 2 = bytes :=
  List.drop_left' (leBytes_length 2 _)

theorem asBytes_length (us : List UInt16) : (asBytes us).length = 2 * us.length := by
  induction us with
  | nil => rfl
  | cons u us ih =>
    rw [asBytes_cons, List.length_append, ih, unitBytes, leBytes_length, List.length_cons]
    omega

end Units

/-! ### The conversions of `iconv` -/

/-- The first character of a UTF-16LE text, in UTF-8: a unit that is no surrogate, or a pair. -/
def utf16Next (input : List UInt8) : Except Errno (ℕ × List UInt8) :=
  match unitAt input with
  | none => .error .einval
  | some u =>
    if ¬ IsSurrogate u then .ok (2, String.utf8EncodeChar (.ofNat u.toNat))
    else if 0xDC00 ≤ u.toNat then .error .eilseq
    else
      match unitAt (input.drop 2) with
      | none => .error .einval
      | some v =>
        if IsSurrogate v ∧ 0xDC00 ≤ v.toNat then
          .ok (4, String.utf8EncodeChar (.ofNat
            (0x10000 + (u.toNat - 0xD800) * 0x400 + (v.toNat - 0xDC00))))
        else .error .eilseq

/-- The first character of a text in a code page of bytes and pairs, in UTF-16LE; `wrong` tells an
incomplete character from an illegal one. -/
def tableNext (wrong : List UInt8 → Errno) (t : CharTable) : List UInt8 → Except Errno (ℕ × List UInt8)
  | [] => .error (wrong [])
  | b :: bs =>
    if b.toNat < 0x80 then .ok (1, unitBytes b.toUInt16)
    else
      match t.single b with
      | some u => .ok (1, unitBytes u)
      | none =>
        match bs with
        | [] => .error (wrong [b])
        | b' :: rest =>
          match t.double b b' with
          | some u => .ok (2, unitBytes u)
          | none => .error (wrong (b :: b' :: rest))

/-- The first character of a UTF-8 text, in UTF-16LE. -/
def utf8Next (wrong : List UInt8 → Errno) (input : List UInt8) : Except Errno (ℕ × List UInt8) :=
  match input.toByteArray.utf8DecodeChar? 0 with
  | some ch => .ok (ch.utf8Size, asBytes (utf16Char ch))
  | none => .error (wrong input)

section Characters

variable {input : List UInt8} {k : ℕ} {out : List UInt8} {wrong : List UInt8 → Errno}

theorem utf8EncodeChar_length_le (ch : Char) : (String.utf8EncodeChar ch).length ≤ 4 := by
  rw [String.length_utf8EncodeChar]
  exact Char.utf8Size_le_four ch

theorem unitAt_size {u : UInt16} (h : unitAt input = some u) : 2 ≤ input.length := by
  by_contra hshort
  rw [unitAt, if_neg hshort] at h
  cases h

/-- A unit or a pair, and no more than four bytes. -/
theorem utf16Next_size (h : utf16Next input = .ok (k, out)) : 2 ≤ k ∧ k ≤ input.length ∧
    out.length ≤ 4 := by
  unfold utf16Next at h
  cases hu : unitAt input with
  | none => simp [hu] at h
  | some u =>
    have hsize := unitAt_size hu
    simp only [hu] at h
    by_cases hsurrogate : IsSurrogate u
    · rw [if_neg (not_not.mpr hsurrogate)] at h
      by_cases hlow : 0xDC00 ≤ u.toNat
      · rw [if_pos hlow] at h
        cases h
      · rw [if_neg hlow] at h
        cases hv : unitAt (input.drop 2) with
        | none => simp [hv] at h
        | some v =>
          have hrest := unitAt_size hv
          rw [List.length_drop] at hrest
          simp only [hv] at h
          by_cases hpair : IsSurrogate v ∧ 0xDC00 ≤ v.toNat
          · rw [if_pos hpair] at h
            obtain ⟨rfl, rfl⟩ := Prod.mk.inj (Except.ok.inj h)
            exact ⟨by omega, by omega, utf8EncodeChar_length_le _⟩
          · rw [if_neg hpair] at h
            cases h
    · rw [if_pos hsurrogate] at h
      obtain ⟨rfl, rfl⟩ := Prod.mk.inj (Except.ok.inj h)
      exact ⟨le_refl 2, hsize, utf8EncodeChar_length_le _⟩

theorem utf16Next_error {e : Errno} (h : utf16Next input = .error e) : e ≠ .success := by
  rintro rfl
  unfold utf16Next at h
  cases hu : unitAt input with
  | none => simp [hu] at h
  | some u =>
    simp only [hu] at h
    split_ifs at h
    · cases h
    · cases hv : unitAt (input.drop 2) with
      | none => simp [hv] at h
      | some v =>
        simp only [hv] at h
        split_ifs at h
        cases h

/-- A character of UTF-16 is one unit or two, and the rest of the text. -/
theorem utf16Next_ok {us : List UInt16} (h : utf16Next (asBytes us) = .ok (k, out)) :
    ∃ ch us', out = String.utf8EncodeChar ch ∧ (asBytes us).drop k = asBytes us' ∧
      decodeUtf16 us = (decodeUtf16 us').map (ch :: ·) := by
  cases us with
  | nil => cases h
  | cons u us =>
    rw [decodeUtf16.eq_def]
    rw [asBytes_cons] at h ⊢
    simp only [utf16Next, unitAt_append, unitBytes_drop] at h ⊢
    by_cases hsurrogate : IsSurrogate u
    · rw [if_neg (not_not.mpr hsurrogate)] at h ⊢
      by_cases hlow : 0xDC00 ≤ u.toNat
      · rw [if_pos hlow] at h
        cases h
      · rw [if_neg hlow] at h
        cases us with
        | nil => cases h
        | cons v us' =>
          rw [asBytes_cons, unitAt_append] at h
          simp only at h ⊢
          by_cases hpair : IsSurrogate v ∧ 0xDC00 ≤ v.toNat
          · rw [if_pos hpair] at h
            obtain ⟨rfl, rfl⟩ := Prod.mk.inj (Except.ok.inj h)
            refine ⟨_, us', rfl, ?_, by rw [if_pos ⟨not_le.mp hlow, hpair⟩]⟩
            rw [← List.drop_drop (i := 2) (j := 2), unitBytes_drop, asBytes_cons, unitBytes_drop]
          · rw [if_neg hpair] at h
            cases h
    · rw [if_pos hsurrogate] at h ⊢
      obtain ⟨rfl, rfl⟩ := Prod.mk.inj (Except.ok.inj h)
      exact ⟨_, us, rfl, unitBytes_drop u _, rfl⟩

/-- Where no character can be read the text is not well formed. -/
theorem utf16Next_bad {us : List UInt16} {e : Errno} (h : utf16Next (asBytes us) = .error e)
    (hne : us ≠ []) :
    decodeUtf16 us = none := by
  cases us with
  | nil => exact absurd rfl hne
  | cons u us =>
    rw [decodeUtf16.eq_def]
    rw [asBytes_cons] at h
    simp only [utf16Next, unitAt_append, unitBytes_drop] at h ⊢
    by_cases hsurrogate : IsSurrogate u
    · rw [if_neg (not_not.mpr hsurrogate)] at h ⊢
      cases us with
      | nil => rfl
      | cons v us' =>
        simp only
        refine if_neg ?_
        rintro ⟨hhigh, hpair⟩
        rw [if_neg (not_le.mpr hhigh), asBytes_cons, unitAt_append] at h
        simp only [if_pos hpair] at h
        cases h
    · rw [if_pos hsurrogate] at h
      cases h

/-- A character of a table: one unit, and the rest of the text. -/
theorem tableNext_ok {t : CharTable} (h : tableNext wrong t input = .ok (k, out)) : 0 < k ∧ k ≤ input.length ∧
    ∃ u, out = unitBytes u ∧ t.decode input = (t.decode (input.drop k)).map (u :: ·) := by
  cases input with
  | nil => cases h
  | cons b bs =>
    rw [List.length_cons, CharTable.decode.eq_def]
    simp only [tableNext] at h ⊢
    by_cases hascii : b.toNat < 0x80
    · rw [if_pos hascii] at h ⊢
      obtain ⟨rfl, rfl⟩ := Prod.mk.inj (Except.ok.inj h)
      exact ⟨Nat.one_pos, by omega, b.toUInt16, rfl, rfl⟩
    · rw [if_neg hascii] at h ⊢
      cases hsingle : t.single b with
      | some u =>
        simp only [hsingle] at h ⊢
        obtain ⟨rfl, rfl⟩ := Prod.mk.inj (Except.ok.inj h)
        exact ⟨Nat.one_pos, by omega, u, rfl, rfl⟩
      | none =>
        simp only [hsingle] at h ⊢
        cases bs with
        | nil => cases h
        | cons b' rest =>
          cases hdouble : t.double b b' with
          | none => simp [hdouble] at h
          | some u =>
            simp only [hdouble] at h ⊢
            obtain ⟨rfl, rfl⟩ := Prod.mk.inj (Except.ok.inj h)
            rw [List.length_cons]
            exact ⟨by omega, by omega, u, rfl, rfl⟩

/-- Where no character can be read the text means nothing. -/
theorem tableNext_error {t : CharTable} {e : Errno} (h : tableNext wrong t input = .error e) :
    e = wrong input ∧ (input ≠ [] → t.decode input = none) := by
  cases input with
  | nil =>
    obtain rfl := Except.error.inj h
    exact ⟨rfl, fun hne => absurd rfl hne⟩
  | cons b bs =>
    rw [CharTable.decode.eq_def]
    simp only [tableNext] at h ⊢
    by_cases hascii : b.toNat < 0x80
    · rw [if_pos hascii] at h
      cases h
    · rw [if_neg hascii] at h ⊢
      cases hsingle : t.single b with
      | some u => simp [hsingle] at h
      | none =>
        simp only [hsingle] at h ⊢
        cases bs with
        | nil =>
          obtain rfl := Except.error.inj h
          exact ⟨rfl, fun _ => rfl⟩
        | cons b' rest =>
          cases hdouble : t.double b b' with
          | some u => simp [hdouble] at h
          | none =>
            simp only [hdouble] at h ⊢
            obtain rfl := Except.error.inj h
            exact ⟨rfl, fun _ => trivial⟩

/-- A character of UTF-8 is its bytes, and the rest of the text. -/
theorem utf8Next_ok (h : utf8Next wrong input = .ok (k, out)) :
    ∃ ch, k = ch.utf8Size ∧ out = asBytes (utf16Char ch) ∧
      input = String.utf8EncodeChar ch ++ input.drop k := by
  unfold utf8Next at h
  cases hch : input.toByteArray.utf8DecodeChar? 0 with
  | none => simp [hch] at h
  | some ch =>
    simp only [hch] at h
    obtain ⟨rfl, rfl⟩ := Prod.mk.inj (Except.ok.inj h)
    obtain ⟨l, hl⟩ := ByteArray.exists_of_utf8DecodeChar?_eq_some hch
    have hbytes : input = String.utf8EncodeChar ch ++ l.data.toList := by
      have hdata := congrArg (fun b => b.data.toList) hl
      simpa [List.toList_data_toByteArray] using hdata
    have hdrop : input.drop ch.utf8Size = l.data.toList := by
      rw [hbytes]
      exact List.drop_left' (String.length_utf8EncodeChar ch)
    exact ⟨ch, rfl, rfl, by rw [hdrop]; exact hbytes⟩

/-- Where no character can be read the text is not UTF-8. -/
theorem utf8Next_error {e : Errno} (h : utf8Next wrong input = .error e) :
    e = wrong input ∧ (input ≠ [] → CodePage.utf8.decode input = none) := by
  unfold utf8Next at h
  cases hch : input.toByteArray.utf8DecodeChar? 0 with
  | some ch => simp [hch] at h
  | none =>
    simp only [hch] at h
    refine ⟨(Except.error.inj h).symm, fun hne => ?_⟩
    rw [CodePage.decode, Option.map_eq_none_iff, ← Option.not_isSome_iff_eq_none,
      ByteArray.isSome_utf8Decode?_iff]
    rintro ⟨m, hm⟩
    cases m with
    | nil =>
      have hdata := congrArg (fun b => b.data.toList) hm
      exact hne (by simpa [List.toList_data_toByteArray] using hdata)
    | cons ch m =>
      rw [hm, List.utf8DecodeChar?_utf8Encode_cons] at hch
      cases hch

theorem utf8_decode_append (ch : Char) (rest : List UInt8) :
    CodePage.utf8.decode (String.utf8EncodeChar ch ++ rest) = (CodePage.utf8.decode rest).map
      (utf16Char ch ++ ·) := by
  have hencode : (String.utf8EncodeChar ch).toByteArray = [ch].utf8Encode := by simp [List.utf8Encode]
  rw [CodePage.decode, List.toByteArray_append, hencode, ByteArray.utf8Decode?_utf8Encode_singleton_append,
    CodePage.decode, Option.map_map, Option.map_map]
  congr 1
  funext cs
  simp [utf16Units]

end Characters

/-- From UTF-16LE to UTF-8. -/
def utf16Codec : Codec UInt8 UInt8 Errno where
  next := utf16Next
  next_size input k out h := by
    obtain ⟨hk, hle, -⟩ := utf16Next_size h
    exact ⟨by omega, hle⟩

/-- From a system code page to UTF-16LE. -/
def pageCodec (wrong : List UInt8 → Errno) : CodePage → Codec UInt8 UInt8 Errno
  | .utf8 =>
    { next := utf8Next wrong
      next_size := by
        intro input k out h
        obtain ⟨ch, rfl, -, hinput⟩ := utf8Next_ok h
        have hlength := congrArg List.length hinput
        rw [List.length_append, String.length_utf8EncodeChar] at hlength
        exact ⟨ch.utf8Size_pos, by omega⟩ }
  | .table t =>
    { next := tableNext wrong t
      next_size := fun input k out h => ⟨(tableNext_ok h).1, (tableNext_ok h).2.1⟩ }

/-! ### Whole texts -/

section Texts

variable {input : List UInt8} {outs : List (List UInt8)} {rest : List UInt8}

/-- No character is longer in UTF-16 than twice its UTF-8 bytes. -/
theorem utf16Char_length_le (ch : Char) : (utf16Char ch).length ≤ ch.utf8Size := by
  by_cases hch : ch.toNat < 0x80
  · rw [utf16Char_basic (by omega)]
    exact ch.utf8Size_pos
  · obtain ⟨b, b', more, u, tail, hbytes, -, hunits, -, hcases⟩ := char_cases (Nat.le_of_not_lt hch)
    rw [← String.length_utf8EncodeChar, hbytes, hunits, List.length_cons, List.length_cons,
      List.length_cons]
    rcases hcases with ⟨-, rfl, -⟩ | ⟨-, rfl⟩ | ⟨-, htail, -⟩
    · rw [List.length_nil]
      omega
    · rw [List.length_nil]
      omega
    · omega

theorem utf16Codec_ratio (input : List UInt8) (k : ℕ) (out : List UInt8)
    (h : utf16Codec.next input = .ok (k, out)) :
    out.length ≤ 2 * k := by
  obtain ⟨hk, -, hle⟩ := utf16Next_size h
  omega

/-- What is read of a UTF-16 text. -/
theorem utf16Codec_reads (h : utf16Codec.Reads input outs rest) {us : List UInt16}
    (hinput : input = asBytes us) :
    ∃ cs us', outs.flatten = utf8Bytes cs ∧ rest = asBytes us' ∧
      decodeUtf16 us = (decodeUtf16 us').map (cs ++ ·) := by
  induction h generalizing us with
  | stop input => exact ⟨[], us, rfl, hinput, by simp⟩
  | @char input k out outs rest hnext htail ih =>
    subst hinput
    obtain ⟨ch, us₁, rfl, hdrop, hdecode⟩ := utf16Next_ok hnext
    obtain ⟨cs, us', hflatten, hrest, hdecode'⟩ := ih hdrop
    refine ⟨ch :: cs, us', by rw [List.flatten_cons, hflatten, utf8Bytes_cons], hrest, ?_⟩
    rw [hdecode, hdecode', Option.map_map]
    rfl

variable {wrong : List UInt8 → Errno} {page : CodePage}

theorem pageCodec_next {k : ℕ} {out : List UInt8} (h : (pageCodec wrong page).next input = .ok (k, out)) :
    ∃ us, out = asBytes us ∧ us.length ≤ k ∧
      page.decode input = (page.decode (input.drop k)).map (us ++ ·) := by
  cases page with
  | utf8 =>
    obtain ⟨ch, rfl, rfl, hinput⟩ := utf8Next_ok h
    refine ⟨utf16Char ch, rfl, utf16Char_length_le ch, ?_⟩
    conv => lhs; rw [hinput]
    rw [utf8_decode_append]
  | table t =>
    obtain ⟨hk, -, u, rfl, hdecode⟩ := tableNext_ok h
    exact ⟨[u], by simp, hk, hdecode⟩

theorem pageCodec_bad {e : Errno} (h : (pageCodec wrong page).next input = .error e) (hne : input ≠ []) :
    page.decode input = none := by
  cases page with
  | utf8 => exact (utf8Next_error h).2 hne
  | table t => exact (tableNext_error h).2 hne

theorem pageCodec_ratio (input : List UInt8) (k : ℕ) (out : List UInt8)
    (h : (pageCodec wrong page).next input = .ok (k, out)) : out.length ≤ 2 * k := by
  obtain ⟨us, rfl, hle, -⟩ := pageCodec_next h
  rw [asBytes_length]
  omega

/-- What is read of a text in a code page. -/
theorem pageCodec_reads (h : (pageCodec wrong page).Reads input outs rest) :
    ∃ us, outs.flatten = asBytes us ∧ page.decode input = (page.decode rest).map (us ++ ·) := by
  induction h with
  | stop input => exact ⟨[], rfl, by simp⟩
  | @char input k out outs rest hnext htail ih =>
    obtain ⟨us, rfl, -, hdecode⟩ := pageCodec_next hnext
    obtain ⟨us', hflatten, hdecode'⟩ := ih
    refine ⟨us ++ us', by rw [List.flatten_cons, hflatten, asBytes_append], ?_⟩
    rw [hdecode, hdecode', Option.map_map]
    congr 1
    funext vs
    exact (List.append_assoc us us' vs).symm

theorem page_decode_nil (page : CodePage) : page.decode [] = some [] := by
  cases page with
  | utf8 =>
    rw [CodePage.decode]
    rfl
  | table t => rfl

theorem utf16Codec_modest : Modest utf16Codec where
  errors _ _ h := utf16Next_error h
  ratio input k out h := by
    have hratio := utf16Codec_ratio input k out h
    omega

theorem pageCodec_modest (hwrong : ∀ bytes, wrong bytes ≠ .success) : Modest (pageCodec wrong page) where
  errors input e h := by
    cases page with
    | utf8 =>
      rw [(utf8Next_error h).1]
      exact hwrong input
    | table t =>
      rw [(tableNext_error h).1]
      exact hwrong input
  ratio input k out h := by
    have hratio := pageCodec_ratio input k out h
    omega

end Texts

/-! ### The functions -/

section Functions

variable {σ : Type} (iconvOpen : List UInt8 → List UInt8 → Except Errno (Descriptor σ))
  (message : Errno → String)

def utf8Name : List UInt8 := utf8Bytes "UTF-8".toList

def utf16leName : List UInt8 := utf8Bytes "UTF-16LE".toList

/-- `ToUtf8FromUtf16LE`. -/
def toUtf8FromUtf16LE (cache : DescriptorCache σ) (input : List UInt16) : List UInt8 × DescriptorCache σ :=
  if input = [] then ([], cache)
  else
    let result := convertEncoding iconvOpen message cache (asBytes input) (some utf16leName) (some utf8Name)
    (if result.1.errorCode = .success then result.1.convResultStr else [], result.2)

/-- The conversion of bytes to a `std::u16string`. -/
def toUtf16LE (encoding : List UInt8) (cache : DescriptorCache σ) (input : List UInt8) :
    List UInt16 × DescriptorCache σ :=
  let result := convertEncoding iconvOpen message cache input (some encoding) (some utf16leName)
  (if result.1.errorCode = .success ∧ result.1.convResultStr.length % 2 = 0
    then asUnits result.1.convResultStr
    else [], result.2)

/-- `ToUtf16LEFromLocale`. -/
def toUtf16LEFromLocale (defaultEncoding : List UInt8) (system : SystemLocale) (cache : DescriptorCache σ)
    (input : List UInt8) : List UInt16 × DescriptorCache σ :=
  let currentEncoding := getCurrentSystemEncoding defaultEncoding system
  toUtf16LE iconvOpen message (cStr currentEncoding) cache input

/-- `ToUtf16LEFromUtf8`. -/
def toUtf16LEFromUtf8 (cache : DescriptorCache σ) (input : List UInt8) : List UInt16 × DescriptorCache σ :=
  toUtf16LE iconvOpen message utf8Name cache input

/-- The environment with these functions on the descriptors of a cache. -/
def uniConv (defaultEncoding : List UInt8) (system : SystemLocale) (cache : DescriptorCache σ)
    (env : Env) : Env :=
  { env with
    toUtf8FromUtf16LE := fun input => (toUtf8FromUtf16LE iconvOpen message cache input).1
    toUtf16LEFromLocale := fun input =>
      (toUtf16LEFromLocale iconvOpen message defaultEncoding system cache input).1
    toUtf16LEFromUtf8 := fun input => (toUtf16LEFromUtf8 iconvOpen message cache input).1 }

end Functions

section Exact

variable {σ : Type} {iconvOpen : List UInt8 → List UInt8 → Except Errno (Descriptor σ)}
  {message : Errno → String}
  {cache : DescriptorCache σ} {wrong : List UInt8 → Errno} {page : CodePage} {d : Descriptor σ}

/-- A conversion that at most doubles a text is never stopped by the limit of the buffer. -/
theorem convertEncoding_double {C : Codec UInt8 UInt8 Errno}
    (hratio : ∀ input k out, C.next input = .ok (k, out) → out.length ≤ 2 * k) (hmodest : Modest C)
    (hdoc : Documented C d) {fromcode tocode : List UInt8} {state : σ}
    (hget : (getIconvDescriptor iconvOpen cache fromcode tocode).1 = .ok ⟨d, state⟩) {input : List UInt8}
    (hne : input ≠ []) : ∃ outs rest, C.Reads input outs rest ∧
      (rest = [] ∧ (convertEncoding iconvOpen message cache input (some fromcode) (some tocode)).1 =
          ⟨outs.flatten, .success, ""⟩ ∨
        rest ≠ [] ∧ ∃ e, C.next rest = .error e ∧
          (convertEncoding iconvOpen message cache input (some fromcode) (some tocode)).1.errorCode ≠
            .success) := by
  obtain ⟨outs, rest, hreads, hstops⟩ := C.exists_reads input
  have hroom : outs.flatten.length ≤ initialBufferSize input := by
    have hlength := hreads.length_le hratio
    rw [initialBufferSize]
    omega
  obtain ⟨hend, hbad⟩ := @convertEncoding_whole σ C message ⟨d, state⟩ iconvOpen cache fromcode tocode
      input outs rest
    hdoc hmodest hget hne hreads hstops fun hlarge => absurd hroom (not_le.mpr hlarge)
  refine ⟨outs, rest, hreads, ?_⟩
  by_cases hrest : rest = []
  · exact Or.inl ⟨hrest, hend hrest⟩
  · obtain ⟨e, he⟩ := hstops.resolve_left hrest
    refine Or.inr ⟨hrest, e, he, ?_⟩
    rw [hbad e hrest he]
    exact hmodest.errors rest e he

/-- To UTF-8, for every text. -/
theorem toUtf8FromUtf16LE_eq (hmade : Made iconvOpen cache) (hdoc : Documented utf16Codec d)
    (hopen : iconvOpen utf8Name utf16leName = .ok d) (us : List UInt16) :
    (toUtf8FromUtf16LE iconvOpen message cache us).1 = ((decodeUtf16 us).map utf8Bytes).getD [] := by
  by_cases hnil : us = []
  · subst hnil
    rfl
  · rw [toUtf8FromUtf16LE, if_neg hnil]
    have hne : asBytes us ≠ [] := by
      intro hbytes
      have hlength := asBytes_length us
      rw [hbytes, List.length_nil] at hlength
      exact hnil (List.eq_nil_of_length_eq_zero (by omega))
    obtain ⟨state, hget⟩ := hmade.descriptor (by decide) (by decide) hopen
    obtain ⟨outs, rest, hreads, hcases⟩ :=
      @convertEncoding_double σ iconvOpen message cache d _ utf16Codec_ratio utf16Codec_modest hdoc _ _ _
        hget _ hne
    obtain ⟨cs, us', hflatten, hrest, hdecode⟩ := utf16Codec_reads hreads rfl
    rcases hcases with ⟨hend, hresult⟩ | ⟨hmore, e, he, hresult⟩
    · have hus' : us' = [] := by
        rw [hend] at hrest
        rw [← asUnits_asBytes us', ← hrest]
        rfl
      simp [hresult, hdecode, hus', decodeUtf16, hflatten]
    · subst hrest
      have hus' : us' ≠ [] := by
        rintro rfl
        exact hmore rfl
      simp [hresult, hdecode, utf16Next_bad he hus']

/-- From a code page, for every text. -/
theorem toUtf16LE_eq (hmade : Made iconvOpen cache) (hwrong : ∀ bytes, wrong bytes ≠ .success)
    (hdoc : Documented (pageCodec wrong page) d) {encoding : List UInt8} (hname : 0x3E ∉ encoding)
    (hopen : iconvOpen utf16leName encoding = .ok d) (bytes : List UInt8) :
    (toUtf16LE iconvOpen message encoding cache bytes).1 = (page.decode bytes).getD [] := by
  by_cases hnil : bytes = []
  · subst hnil
    rw [page_decode_nil]
    rfl
  · rw [toUtf16LE]
    obtain ⟨state, hget⟩ := hmade.descriptor hname (by decide) hopen
    obtain ⟨outs, rest, hreads, hcases⟩ :=
        @convertEncoding_double σ iconvOpen message cache d _ pageCodec_ratio
      (pageCodec_modest hwrong) hdoc _ _ _ hget _ hnil
    obtain ⟨us, hflatten, hdecode⟩ := pageCodec_reads hreads
    rcases hcases with ⟨hend, hresult⟩ | ⟨hmore, e, he, hresult⟩
    · have heven : (asBytes us).length % 2 = 0 := by
        rw [asBytes_length]
        omega
      simp [hresult, hdecode, hend, page_decode_nil, hflatten, heven, asUnits_asBytes]
    · simp [hresult, hdecode, pageCodec_bad he hmore]

theorem made_toUtf8FromUtf16LE (hmade : Made iconvOpen cache) (us : List UInt16) :
    Made iconvOpen (toUtf8FromUtf16LE iconvOpen message cache us).2 := by
  unfold toUtf8FromUtf16LE
  split_ifs
  · exact hmade
  · exact hmade.convert ⟨asBytes us, some utf16leName, some utf8Name⟩

theorem made_toUtf16LE (hmade : Made iconvOpen cache) (encoding bytes : List UInt8) :
    Made iconvOpen (toUtf16LE iconvOpen message encoding cache bytes).2 :=
  hmade.convert ⟨bytes, some encoding, some utf16leName⟩

end Exact

/-- **The conversions of the records** — with an `iconv` that does what its manual says, and whatever was
converted before, `UniConv` converts a text of any length to UTF-8 exactly, and a text in the code page that
`iconv` knows under the name of the system encoding to its UTF-16 or, where it means nothing there, to the
empty string. -/
theorem uniConv_convertsIn {σ : Type} {iconvOpen : List UInt8 → List UInt8 → Except Errno (Descriptor σ)}
    {wrong : List UInt8 → Errno} (hwrong : ∀ bytes, wrong bytes ≠ .success) {page : CodePage}
    {defaultEncoding : List UInt8} {system : SystemLocale} {currentEncoding : List UInt8}
    (hcurrent : cStr (getCurrentSystemEncoding defaultEncoding system) = currentEncoding)
    (hname : 0x3E ∉ currentEncoding) {d d' : Descriptor σ} (hdoc : Documented utf16Codec d)
    (hopen : iconvOpen utf8Name utf16leName = .ok d) (hdoc' : Documented (pageCodec wrong page) d')
    (hopen' : iconvOpen utf16leName currentEncoding = .ok d') {message : Errno → String}
    {calls : List ConvertCall} {cache : DescriptorCache σ} {results : List (ConvertCall × IConvResult)}
    (hrun : (converter iconvOpen message).run .empty calls = some (cache, results)) (env : Env) :
    ConvertsIn (uniConv iconvOpen message defaultEncoding system cache env) page where
  toUtf8 cs := by
    show (toUtf8FromUtf16LE iconvOpen message cache (utf16Units cs)).1 = utf8Bytes cs
    rw [toUtf8FromUtf16LE_eq (made_of_run hrun) hdoc hopen, decodeUtf16_utf16Units]
    rfl
  fromLocale bytes := by
    show (toUtf16LE iconvOpen message _ cache bytes).1 = _
    rw [hcurrent]
    exact toUtf16LE_eq (made_of_run hrun) hwrong hdoc' hname hopen' bytes

/-- The GB2312 characters of two pairs of bytes. -/
def gb2312Sample : CharTable where
  single _ := none
  double b b' :=
    if b = 0xC4 ∧ b' = 0xE3 then some 0x4F60
    else if b = 0xBA ∧ b' = 0xC3 then some 0x597D
    else none
  double_ascii b b' u h := by
    split_ifs at h
    all_goals
      obtain rfl := Option.some.inj h
      decide
  double_surrogate b b' u h := by
    split_ifs at h
    all_goals
      obtain rfl := Option.some.inj h
      decide
  double_utf8 b b' u c h hc := by
    have hlt := toNat_lt_of_two_bytes hc
    split_ifs at h
    all_goals
      obtain rfl := Option.some.inj h
      intro heq
      rw [← heq] at hlt
      exact absurd hlt (by decide)

/-- `iconv_open` with the names of a Chinese Windows; the others are unknown. -/
def chineseSystem (tocode fromcode : List UInt8) : Except Errno (Descriptor Unit) :=
  if fromcode = utf16leName ∧ tocode = utf8Name then .ok (descriptorOf utf16Codec)
  else if fromcode = utf8Name ∧ tocode = utf16leName
    then .ok (descriptorOf (pageCodec (fun _ => .eilseq) .utf8))
  else if fromcode = utf8Bytes "GB2312".toList ∧ tocode = utf16leName then
    .ok (descriptorOf (pageCodec (fun _ => .eilseq) (.table gb2312Sample)))
  else .error .einval

/-- There, with page 936, and after a conversion that failed: two characters of GB2312 are read, but one
that only the page itself has is lost. -/
theorem uniConv_convertsIn_936 : ∃ cache results,
    (converter chineseSystem fun _ => "").run .empty [⟨[0x00, 0xD8], some utf16leName, some utf8Name⟩] =
      some (cache, results) ∧
    let env := uniConv chineseSystem (fun _ => "") [] (.windows 936) cache asciiEnv
    ConvertsIn env (.table gb2312Sample) ∧
      env.toUtf16LEFromLocale [0xC4, 0xE3, 0xBA, 0xC3] = [0x4F60, 0x597D] ∧
      env.toUtf16LEFromLocale [0xE9, 0x46] = [] := by
  refine ⟨_, _, rfl, ?_⟩
  have hreads := @uniConv_convertsIn Unit chineseSystem (fun _ => .eilseq) (fun _ => by simp)
    (.table gb2312Sample) [] (.windows 936) _ (currentEncoding_windows 936).1 (currentEncoding_windows 936).2
    _ _ (descriptorOf_documented _) rfl (descriptorOf_documented _) rfl (fun _ => "")
    [⟨[0x00, 0xD8], some utf16leName, some utf8Name⟩] _ _ rfl asciiEnv
  exact ⟨hreads, (hreads.fromLocale _).trans (by decide), (hreads.fromLocale _).trans (by decide)⟩

/-- A name that `iconv_open` does not know, such as that of a page without one: every text is lost. -/
theorem toUtf16LEFromLocale_unknown {σ : Type}
    {iconvOpen : List UInt8 → List UInt8 → Except Errno (Descriptor σ)} {message : Errno → String}
    {defaultEncoding : List UInt8} {system : SystemLocale} {currentEncoding : List UInt8}
    (hcurrent : cStr (getCurrentSystemEncoding defaultEncoding system) = currentEncoding)
    (hname : 0x3E ∉ currentEncoding) {e : Errno} (hopen : iconvOpen utf16leName currentEncoding = .error e)
    {cache : DescriptorCache σ} (hmade : Made iconvOpen cache) (bytes : List UInt8) :
    (toUtf16LEFromLocale iconvOpen message defaultEncoding system cache bytes).1 = [] := by
  have hget := hmade.unknown hname (by decide +kernel : 0x3E ∉ utf16leName) hopen
  have hempty : (convertEncoding iconvOpen message cache bytes (some currentEncoding)
      (some utf16leName)).1.convResultStr = [] := by
    unfold convertEncoding
    by_cases hnil : bytes = []
    · simp [hnil]
    · simp [hnil, hget]
  unfold toUtf16LEFromLocale toUtf16LE
  simp [hcurrent, hempty, asUnits]

/-- **Through the other encoding and back** — a UTF-16 text comes back from UTF-8 exactly when it is well
formed, and bytes from UTF-16 exactly when they are UTF-8, whatever their length and whatever was
converted before. -/
theorem through_utf8_iff {σ : Type} {iconvOpen : List UInt8 → List UInt8 → Except Errno (Descriptor σ)}
    {wrong : List UInt8 → Errno} (hwrong : ∀ bytes, wrong bytes ≠ .success) {d d' : Descriptor σ}
    (hdoc : Documented utf16Codec d) (hopen : iconvOpen utf8Name utf16leName = .ok d)
    (hdoc' : Documented (pageCodec wrong .utf8) d') (hopen' : iconvOpen utf16leName utf8Name = .ok d')
    {message : Errno → String} {calls : List ConvertCall} {cache : DescriptorCache σ}
    {results : List (ConvertCall × IConvResult)}
    (hrun : (converter iconvOpen message).run .empty calls = some (cache, results)) :
    (∀ us, let bytes := toUtf8FromUtf16LE iconvOpen message cache us
      (toUtf16LEFromUtf8 iconvOpen message bytes.2 bytes.1).1 = us ↔ ∃ cs, us = utf16Units cs) ∧
    ∀ bytes, let us := toUtf16LEFromUtf8 iconvOpen message cache bytes
      (toUtf8FromUtf16LE iconvOpen message us.2 us.1).1 = bytes ↔ ∃ cs, bytes = utf8Bytes cs := by
  have hmade := made_of_run hrun
  have hto : ∀ {cache : DescriptorCache σ} us, Made iconvOpen cache →
      (toUtf8FromUtf16LE iconvOpen message cache us).1 = ((decodeUtf16 us).map utf8Bytes).getD [] :=
    fun us hmade => toUtf8FromUtf16LE_eq hmade hdoc hopen us
  have hback : ∀ {cache : DescriptorCache σ} bytes, Made iconvOpen cache →
      (toUtf16LEFromUtf8 iconvOpen message cache bytes).1 = (CodePage.utf8.decode bytes).getD [] :=
    fun bytes hmade => toUtf16LE_eq hmade hwrong hdoc' (by decide +kernel) hopen' bytes
  refine ⟨?_, ?_⟩
  · intro us bytes
    rw [hback bytes.1 (made_toUtf8FromUtf16LE hmade us), hto us hmade]
    constructor
    · intro hround
      cases hdecode : decodeUtf16 us with
      | none =>
        rw [hdecode] at hround
        exact ⟨[], hround.symm⟩
      | some cs => exact ⟨cs, eq_utf16Units _ (le_refl _) hdecode⟩
    · rintro ⟨cs, rfl⟩
      rw [decodeUtf16_utf16Units, Option.map_some, Option.getD_some,
        CodePage.utf8_decode_iff.mpr ⟨cs, rfl, rfl⟩, Option.getD_some]
  · intro bytes us
    have hmade' : Made iconvOpen us.2 := made_toUtf16LE hmade utf8Name bytes
    rw [hto us.1 hmade', hback bytes hmade]
    constructor
    · intro hround
      cases hdecode : CodePage.utf8.decode bytes with
      | none =>
        rw [hdecode] at hround
        exact ⟨[], hround.symm⟩
      | some us =>
        obtain ⟨cs, hbytes, -⟩ := CodePage.utf8_decode_iff.mp hdecode
        exact ⟨cs, hbytes⟩
    · rintro ⟨cs, rfl⟩
      rw [CodePage.utf8_decode_iff.mpr ⟨cs, rfl, rfl⟩, Option.getD_some, decodeUtf16_utf16Units,
        Option.map_some, Option.getD_some]

/-- Half of a pair is lost. -/
theorem through_utf8_iff_half :
    let bytes := toUtf8FromUtf16LE chineseSystem (fun _ => "") .empty [0x41, 0xD83D]
    (toUtf16LEFromUtf8 chineseSystem (fun _ => "") bytes.2 bytes.1).1 ≠ [0x41, 0xD83D] := by
  have hround := (@through_utf8_iff Unit chineseSystem (fun _ => .eilseq) (fun _ => by simp) _ _
    (descriptorOf_documented utf16Codec) rfl (descriptorOf_documented _) rfl (fun _ => "") [] _ _ rfl).1
      [0x41, 0xD83D]
  refine fun hsame => ?_
  obtain ⟨cs, hcs⟩ := hround.mp hsame
  have hdecode := decodeUtf16_utf16Units cs
  rw [← hcs] at hdecode
  have hbad : decodeUtf16 [0x41, 0xD83D] = none := by decide
  rw [hbad] at hdecode
  cases hdecode

end LuspUpload.Text
