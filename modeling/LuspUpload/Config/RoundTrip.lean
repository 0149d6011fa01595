import LuspUpload.Config.Export
import LuspUpload.Lib.TomlReader

/-!
# Config.RoundTrip — exporting a configuration and importing it again

The exported text is TOML for the configuration exactly when the configuration is `Portable`: no string has
a byte that would need an escape, and no integer is beyond the 64-bit integers of TOML.  An empty list of
patterns has no text at all, so the list held before the import stays.
-/

namespace LuspUpload.Config

open Lib Toml

variable {α ρ : Type}

/-- A value that TOML has as it is printed. -/
def Kind.Portable : Kind α → α → Prop
  | .string, s => Plain s
  | .uint64, n => n.toNat < 2 ^ 63
  | .strings, ss => ∀ s ∈ ss, Plain s
  | _, _ => True

instance : ∀ (kind : Kind α) (x : α), Decidable (kind.Portable x)
  | .string, s => inferInstanceAs (Decidable (Plain s))
  | .uint64, n => inferInstanceAs (Decidable (n.toNat < 2 ^ 63))
  | .strings, ss => inferInstanceAs (Decidable (∀ s ∈ ss, Plain s))
  | .boolean, _ => isTrue trivial
  | .int, _ => isTrue trivial
  | .uint16, _ => isTrue trivial
  | .uint32, _ => isTrue trivial
  | .compression, _ => isTrue trivial
  | .checksum, _ => isTrue trivial

/-- Every field of the configuration is portable. -/
structure Portable (c : Settings) : Prop where
  upload : ∀ f ∈ uploadFields, f.kind.Portable (f.get c.upload)
  ui : ∀ f ∈ uiFields, f.kind.Portable (f.get c.ui)
  network : ∀ f ∈ networkFields, f.kind.Portable (f.get c.network)

/-! ### One value -/

theorem utf8_valid (s : String) : (utf8 s).toByteArray.IsValidUTF8 := .intro s.toList rfl

theorem plain_compression_name (algo : CompressionAlgorithm) : Plain (utf8 algo.name) := by
  refine ⟨?_, utf8_valid _⟩
  cases algo <;> exact forall_mem_of_all rfl

theorem plain_checksum_name (algo : ChecksumAlgorithm) : Plain (utf8 algo.name) := by
  refine ⟨?_, utf8_valid _⟩
  cases algo <;> exact forall_mem_of_all rfl

theorem literal_plain_iff (kind : Kind α) (x : α) : (kind.literal x).Plain ↔ kind.Portable x := by
  have hmin : Int64.minValue.toInt = -2 ^ 63 := by decide
  have hmax : Int64.maxValue.toInt = 2 ^ 63 - 1 := by decide
  cases kind with
  | string => exact Iff.rfl
  | boolean => exact Iff.rfl
  | strings => exact Iff.rfl
  | compression => exact iff_of_true (plain_compression_name x) trivial
  | checksum => exact iff_of_true (plain_checksum_name x) trivial
  | int =>
    have hlow := x.le_toInt
    have hhigh := x.toInt_lt
    refine iff_of_true ?_ trivial
    show Int64.minValue.toInt ≤ x.toInt ∧ x.toInt ≤ Int64.maxValue.toInt
    omega
  | uint16 =>
    have hx := x.toNat_lt
    refine iff_of_true ?_ trivial
    show Int64.minValue.toInt ≤ (x.toNat : ℤ) ∧ (x.toNat : ℤ) ≤ Int64.maxValue.toInt
    omega
  | uint32 =>
    have hx := x.toNat_lt
    refine iff_of_true ?_ trivial
    show Int64.minValue.toInt ≤ (x.toNat : ℤ) ∧ (x.toNat : ℤ) ≤ Int64.maxValue.toInt
    omega
  | uint64 =>
    show Int64.minValue.toInt ≤ (x.toNat : ℤ) ∧ (x.toNat : ℤ) ≤ Int64.maxValue.toInt ↔ x.toNat < 2 ^ 63
    omega

theorem leadingStrings_prefix (values : List Value) :
    (leadingStrings values).map Value.string <+: values := by
  rcases leadingStrings_split values with hall | ⟨v, rest, -, hsplit⟩
  · rw [hall]
  · exact ⟨v :: rest, hsplit.symm⟩

theorem toUInt64_ofInt (n : ℕ) : (Int64.ofInt n).toUInt64 = UInt64.ofNat n := by
  rw [Int64.ofInt_eq_ofNat, Int64.toUInt64_ofNat']

/-- A portable value is converted back. -/
theorem convert_literal (kind : Kind α) {x : α} (h : kind.Portable x) :
    kind.convert (kind.literal x).value = some x := by
  cases kind with
  | string => rfl
  | boolean => rfl
  | compression => exact stringToCompressionAlgorithm_name x
  | checksum => exact stringToChecksumAlgorithm_name x
  | strings => exact congrArg some (leadingStrings_map x)
  | int =>
    show some (Int64.ofInt x.toInt).toInt32 = some x
    rw [Int64.ofInt_int32ToInt, Int32.toInt32_toInt64]
  | uint16 =>
    show some (Int64.ofInt x.toNat).toUInt64.toUInt16 = some x
    rw [toUInt64_ofInt, UInt64.ofNat_uInt16ToNat, UInt16.toUInt16_toUInt64]
  | uint32 =>
    show some (Int64.ofInt x.toNat).toUInt64.toUInt32 = some x
    rw [toUInt64_ofInt, UInt64.ofNat_uInt32ToNat, UInt32.toUInt32_toUInt64]
  | uint64 =>
    show some (Int64.ofInt x.toNat).toUInt64 = some x
    rw [toUInt64_ofInt, UInt64.ofNat_toNat]

/-- A value that is read back in spite of what became of its text was portable. -/
theorem portable_of_readAs (kind : Kind α) {x held : α} {value : Value} (h : (kind.literal x).ReadAs value)
    (hback : (kind.convert value).getD held = x) : kind.Portable x := by
  generalize hv : kind.literal x = v at h
  cases kind with
  | string =>
    cases h with
    | string h =>
      obtain rfl := Literal.string.inj hv
      exact h hback
    | _ => cases hv
  | uint64 =>
    cases h with
    | integer m =>
      have hm := Literal.integer.inj hv
      have hlt := m.toInt_lt
      show x.toNat < 2 ^ 63
      omega
    | _ => cases hv
  | strings =>
    cases h with
    | @strings ss values h =>
      obtain rfl := Literal.strings.inj hv
      refine h ?_
      have hvalues : leadingStrings values = x := hback
      rw [← hvalues]
      exact leadingStrings_prefix values
    | _ => cases hv
  | boolean => trivial
  | compression => trivial
  | checksum => trivial
  | int => trivial
  | uint16 => trivial
  | uint32 => trivial

/-! ### One section -/

theorem printed_of_ne {v : Literal} (h : v ≠ .strings []) : printed v = some v := by
  cases v with
  | strings ss =>
    cases ss with
    | nil => exact absurd rfl h
    | cons s ss => rfl
  | _ => rfl

theorem eq_of_printed {v w : Literal} (h : printed v = some w) : w = v := by
  by_cases hempty : v = .strings []
  · rw [hempty] at h
    cases h
  · rw [printed_of_ne hempty] at h
    exact (Option.some.inj h).symm

/-- Every entry is that of a field. -/
theorem Prints.field {fields : List (Field Kind ρ)} {entries : List (String × Literal)} {r : ρ}
    (h : Prints fields entries r) (hkeys : (entries.map Prod.fst).Nodup) {e : String × Literal}
    (he : e ∈ entries) : ∃ f ∈ fields, f.key = e.1 ∧ e.2 = f.kind.literal (f.get r) := by
  obtain ⟨f, hf, hkey⟩ := List.mem_map.mp (h.keys e.1 (List.mem_map_of_mem he))
  refine ⟨f, hf, hkey, eq_of_printed ?_⟩
  rw [← List.forall_iff_forall_mem.mp h.lookup f hf, hkey]
  exact lookup_of_mem hkeys he

/-- The fields that are not printed have the value already. -/
def Kept (L : Layout Kind ρ) (held r : ρ) : Prop :=
  ∀ f ∈ L.fields, f.kind.literal (f.get r) = .strings [] → f.get held = f.get r

/-- A portable section is read back, but for what is not printed. -/
theorem assign_printed_iff {L : Layout Kind ρ} {entries : List (String × Literal)} {r : ρ}
    (hprints : Prints L.fields entries r) (hportable : ∀ f ∈ L.fields, f.kind.Portable (f.get r))
    {data table : Entries} {name : String} (htable : data.lookup name = some (.table table))
    (hvalues : ∀ key, table.lookup key = (entries.lookup key).map Literal.value) (held : ρ) :
    assign (readAt data name) L.fields held = r ↔ Kept L held r := by
  rw [L.assign_eq_iff]
  refine forall₂_congr fun f hf => ?_
  have hlookup := List.forall_iff_forall_mem.mp hprints.lookup f hf
  have hvalue : valueAt data name f.key = (printed (f.kind.literal (f.get r))).map Literal.value := by
    rw [valueAt, htable]
    exact (hvalues f.key).trans (congrArg (Option.map Literal.value) hlookup)
  rw [readAt, hvalue]
  by_cases hempty : f.kind.literal (f.get r) = .strings []
  · rw [hempty]
    exact ⟨fun h _ => h, fun h => h rfl⟩
  · rw [printed_of_ne hempty, Option.map_some, Option.bind_some,
      convert_literal f.kind (hportable f hf)]
    exact iff_of_true rfl fun h => absurd h hempty

/-- In a section that is read back a value that is not plain does not occur. -/
theorem plain_of_assign {L : Layout Kind ρ} {entries : List (String × Literal)} {r : ρ}
    (hprints : Prints L.fields entries r) (hkeys : (entries.map Prod.fst).Nodup) {data : Entries}
    {name : String} {held : ρ} (hback : assign (readAt data name) L.fields held = r)
    {e : String × Literal} (he : e ∈ entries) {value : Value}
    (hvalue : valueAt data name e.1 = some value) (hread : e.2.ReadAs value) : e.2.Plain := by
  obtain ⟨f, hf, hkey, hliteral⟩ := hprints.field hkeys he
  have hget := (L.assign_eq_iff _).mp hback f hf
  rw [readAt, hkey, hvalue, Option.bind_some] at hget
  rw [hliteral] at hread ⊢
  exact (literal_plain_iff f.kind (f.get r)).mpr (portable_of_readAs f.kind hread hget)

/-- Where all entries are plain all fields are portable. -/
theorem portable_of_plain {fields : List (Field Kind ρ)} {entries : List (String × Literal)} {r : ρ}
    (hprints : Prints fields entries r) (hplain : ∀ e ∈ entries, e.2.Plain) :
    ∀ f ∈ fields, f.kind.Portable (f.get r) := by
  intro f hf
  rw [← literal_plain_iff]
  by_cases hempty : f.kind.literal (f.get r) = .strings []
  · rw [hempty]
    exact fun s hs => absurd hs List.not_mem_nil
  · have hlookup := List.forall_iff_forall_mem.mp hprints.lookup f hf
    rw [printed_of_ne hempty] at hlookup
    obtain ⟨l₁, l₂, hentries, -⟩ := List.lookup_eq_some_iff.mp hlookup
    refine hplain (f.key, f.kind.literal (f.get r)) ?_
    rw [hentries]
    exact List.mem_append_right l₁ List.mem_cons_self

/-- Where all fields are portable all entries are plain. -/
theorem plain_of_portable {fields : List (Field Kind ρ)} {entries : List (String × Literal)} {r : ρ}
    (hprints : Prints fields entries r) (hkeys : (entries.map Prod.fst).Nodup)
    (hportable : ∀ f ∈ fields, f.kind.Portable (f.get r)) : ∀ e ∈ entries, e.2.Plain := by
  intro e he
  obtain ⟨f, hf, -, hliteral⟩ := hprints.field hkeys he
  rw [hliteral]
  exact (literal_plain_iff f.kind (f.get r)).mpr (hportable f hf)

/-! ### What is not printed -/

/-- The list of patterns is the only list. -/
theorem kept_upload_iff (held c : UploadConfig) :
    Kept uploadLayout held c ↔ (c.excludePatterns = [] → held.excludePatterns = []) := by
  constructor
  · intro h hempty
    exact (h _ patternsField_mem (congrArg Literal.strings hempty)).trans hempty
  · intro h
    refine List.forall_iff_forall_mem.mp ?_
    show uploadFields.Forall _
    unfold uploadFields
    repeat' first
      | exact trivial
      | exact fun hempty => Literal.noConfusion hempty
      | apply forall_cons
    intro hempty
    have hempty : c.excludePatterns = [] := Literal.strings.inj hempty
    exact (h hempty).trans hempty.symm

theorem kept_ui (held c : UIConfig) : Kept uiLayout held c := by
  refine List.forall_iff_forall_mem.mp ?_
  show uiFields.Forall _
  unfold uiFields
  repeat' first
    | exact trivial
    | exact fun hempty => Literal.noConfusion hempty
    | apply forall_cons

theorem kept_network (held c : NetworkConfig) : Kept networkLayout held c := by
  refine List.forall_iff_forall_mem.mp ?_
  show networkFields.Forall _
  unfold networkFields
  repeat' first
    | exact trivial
    | exact fun hempty => Literal.noConfusion hempty
    | apply forall_cons

/-! ### The whole configuration -/

variable {parseStr : Text → Option Entries}

theorem configParts_plain_iff (c : Settings) : (∀ p ∈ configParts c, p.Plain) ↔ Portable c := by
  rw [forall_configParts]
  constructor
  · rintro ⟨hupload, hui, hnetwork⟩
    exact ⟨portable_of_plain (uploadEntries_prints c.upload) hupload,
      portable_of_plain (uiEntries_prints c.ui) hui,
      portable_of_plain (networkEntries_prints c.network) hnetwork⟩
  · rintro ⟨hupload, hui, hnetwork⟩
    exact ⟨plain_of_portable (uploadEntries_prints c.upload) (uploadEntries_tidy c.upload).1 hupload,
      plain_of_portable (uiEntries_prints c.ui) (uiEntries_tidy c.ui).1 hui,
      plain_of_portable (networkEntries_prints c.network) (networkEntries_tidy c.network).1 hnetwork⟩

theorem readable_of_table {data table : Entries} {name : String} (h : data.lookup name = some (.table table)) :
    Readable data name := by
  simp [Readable, h]

/-- A portable configuration is imported again, but for an empty list of patterns. -/
theorem roundTrip_portable (h : ReadsToml parseStr) {c : Settings} (hc : Portable c)
    (callback : ChangeCallback) (held : Settings) :
    importFromTomlString parseStr callback (exportToTomlString c) held = (true, c) ↔
      (c.upload.excludePatterns = [] → held.upload.excludePatterns = []) ∧ callback ≠ .throws := by
  obtain ⟨doc, hparse, hdoc⟩ := h.parts (configParts_tidy c) ((configParts_plain_iff c).mpr hc)
  obtain ⟨⟨upload, hupload, huploads⟩, ⟨ui, hui, huis⟩, network, hnetwork, hnetworks⟩ :=
    forall_configParts.mp hdoc
  have hu := assign_printed_iff (L := uploadLayout) (uploadEntries_prints c.upload) hc.upload hupload huploads
    held.upload
  have hi := assign_printed_iff (L := uiLayout) (uiEntries_prints c.ui) hc.ui hui huis held.ui
  have hn := assign_printed_iff (L := networkLayout) (networkEntries_prints c.network) hc.network hnetwork
    hnetworks held.network
  rw [exportToTomlString, generateFullTomlConfig, import_eq_iff hparse, hu, hi, hn, kept_upload_iff]
  constructor
  · rintro ⟨hcallback, ⟨-, hkept⟩, -⟩
    exact ⟨hkept, hcallback⟩
  · rintro ⟨hkept, hcallback⟩
    exact ⟨hcallback, ⟨readable_of_table hupload, hkept⟩, ⟨readable_of_table hui, kept_ui _ _⟩,
      readable_of_table hnetwork, kept_network _ _⟩

/-- A configuration that is imported again was portable. -/
theorem portable_of_roundTrip (h : ReadsToml parseStr) {c held : Settings} {callback : ChangeCallback}
    (himport : importFromTomlString parseStr callback (exportToTomlString c) held = (true, c)) :
    Portable c := by
  by_contra hc
  cases hparse : parseStr (exportToTomlString c) with
  | none =>
    have hfail : importFromTomlString parseStr callback (exportToTomlString c) held = (false, held) := by
      rw [importFromTomlString, parseFullTomlConfig, hparse]
      rfl
    rw [hfail] at himport
    exact absurd (Prod.mk.inj himport).1 Bool.false_ne_true
  | some doc =>
    obtain ⟨-, ⟨-, hupload⟩, ⟨-, hui⟩, -, hnetwork⟩ := (import_eq_iff hparse callback held c).mp himport
    have hplain : ∀ p ∈ configParts c, ∀ e ∈ p.entries, ∀ value,
        valueAt doc p.name e.1 = some value → e.2.ReadAs value → e.2.Plain := by
      refine forall_configParts.mpr ⟨?_, ?_, ?_⟩
      · intro e he value hvalue hread
        exact plain_of_assign (L := uploadLayout) (uploadEntries_prints c.upload)
          (uploadEntries_tidy c.upload).1 hupload he hvalue hread
      · intro e he value hvalue hread
        exact plain_of_assign (L := uiLayout) (uiEntries_prints c.ui) (uiEntries_tidy c.ui).1 hui he hvalue
          hread
      · intro e he value hvalue hread
        exact plain_of_assign (L := networkLayout) (networkEntries_prints c.network)
          (networkEntries_tidy c.network).1 hnetwork he hvalue hread
    obtain ⟨p, hp, e, he, hnot, value, hvalue, hread⟩ :=
      h.parts_not_plain (configParts_tidy c) (fun hall => hc ((configParts_plain_iff c).mp hall)) hparse
    exact hnot (hplain p hp e he value hvalue hread)

/-- **The round trip**, for every reader of TOML, every configuration exported and every one held before. -/
theorem roundTrip_iff (h : ReadsToml parseStr) (callback : ChangeCallback) (c held : Settings) :
    importFromTomlString parseStr callback (exportToTomlString c) held = (true, c) ↔
      Portable c ∧ (c.upload.excludePatterns = [] → held.upload.excludePatterns = []) ∧
        callback ≠ .throws := by
  constructor
  · intro himport
    have hc := portable_of_roundTrip h himport
    exact ⟨hc, (roundTrip_portable h hc callback held).mp himport⟩
  · rintro ⟨hc, hkept⟩
    exact (roundTrip_portable h hc callback held).mpr hkept

/-- The defaults with a pattern. -/
def withPattern : Settings :=
  { initializeDefaults with upload := { initializeDefaults.upload with excludePatterns := [utf8 "*.tmp"] } }

/-- The defaults with a directory of Windows. -/
def withBackslash : Settings :=
  { initializeDefaults with upload := { initializeDefaults.upload with targetDir := utf8 "C:\\uploads" } }

theorem portable_defaults : Portable initializeDefaults := ⟨by decide, by decide, by decide⟩

theorem roundTrip_pattern :
    importFromTomlString read .none (exportToTomlString withPattern) initializeDefaults =
      (true, withPattern) :=
  (roundTrip_iff read_reads .none withPattern initializeDefaults).mpr
    ⟨⟨by decide, by decide, by decide⟩, fun h => absurd h (List.cons_ne_nil _ _), by decide⟩

/-- The pattern held stays behind the import of the defaults, and a backslash is not read back. -/
theorem roundTrip_fails :
    importFromTomlString read .none (exportToTomlString initializeDefaults) withPattern ≠
        (true, initializeDefaults) ∧
      importFromTomlString read .none (exportToTomlString withBackslash) withBackslash ≠
        (true, withBackslash) := by
  constructor
  · intro h
    have hkept := ((roundTrip_portable read_reads portable_defaults .none withPattern).mp h).1 rfl
    exact absurd hkept (List.cons_ne_nil _ _)
  · intro h
    have hdir := (portable_of_roundTrip read_reads h).upload
      ⟨"target_dir", .string, (·.targetDir), fun v c => { c with targetDir := v }⟩ (by simp [uploadFields])
    have hplain : ¬ Plain (utf8 "C:\\uploads") := by decide
    exact hplain hdir

end LuspUpload.Config
