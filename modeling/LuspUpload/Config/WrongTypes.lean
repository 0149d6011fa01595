import LuspUpload.Config.Manager

/-!
# Config.WrongTypes — keys that are absent or of the wrong type

A key that is read sets its field when the value is of the type of the field, and every other field keeps
its value.  `parseConfigValue` and `parseEnumValue` read the value before they assign it.  `parseStringArray`
clears its target first and fills it element by element: an array with an element that is no string leaves
the elements before that one.
-/

namespace LuspUpload.Config

open Lib Toml

variable {α ρ : Type}

/-- The value is of the type of the field, and `x` is what the field has behind it. -/
def Kind.Typed : Kind α → Value → α → Prop
  | .string, v, x => v = .string x
  | .boolean, v, x => v = .boolean x
  | .int, v, x => ∃ n, v = .integer n ∧ n.toInt32 = x
  | .uint16, v, x => ∃ n, v = .integer n ∧ n.toUInt64.toUInt16 = x
  | .uint32, v, x => ∃ n, v = .integer n ∧ n.toUInt64.toUInt32 = x
  | .uint64, v, x => ∃ n, v = .integer n ∧ n.toUInt64 = x
  | .compression, v, x => ∃ s, v = .string s ∧ stringToCompressionAlgorithm s = some x
  | .checksum, v, x => ∃ s, v = .string s ∧ stringToChecksumAlgorithm s = some x
  | .strings, v, x => v = .array (x.map .string)

/-- A field with the value `x` and a key with the value `found`, if it has one, becomes `y`. -/
def Respects (kind : Kind α) (found : Option Value) (x y : α) : Prop :=
  (∀ v z, found = some v → kind.Typed v z → y = z) ∧
    ((∀ v z, found = some v → ¬ kind.Typed v z) → y = x)

/-- The fields whose keys have values of their types are these values, the other ones are as before. -/
def RespectsIn (fields : List (Field Kind ρ)) (name : String) (data : Entries) (r r' : ρ) : Prop :=
  ∀ f ∈ fields, Respects f.kind (valueAt data name f.key) (f.get r) (f.get r')

/-- The three sections together. -/
def WrongTypesIgnored (data : Entries) (s s' : Settings) : Prop :=
  RespectsIn uploadFields "upload" data s.upload s'.upload ∧ RespectsIn uiFields "ui" data s.ui s'.ui ∧
    RespectsIn networkFields "network" data s.network s'.network

/-- An array is of strings only, or its elements before the first that is no string are `held`. -/
def Unharmed (found : Option Value) (held : List Text) : Prop :=
  ∀ items, found = some (.array items) →
    (∃ ss : List Text, items = ss.map .string) ∨
      ∃ v rest, (∀ s, v ≠ .string s) ∧ items = held.map .string ++ v :: rest

/-! ### One field -/

/-- The kinds whose targets are assigned once. -/
def Kind.Assigned : Kind α → Prop
  | .strings => False
  | _ => True

theorem asString_eq_some {v : Value} {s : Text} : v.asString = some s ↔ v = .string s := by
  cases v <;> simp [Value.asString]

theorem asBoolean_eq_some {v : Value} {b : Bool} : v.asBoolean = some b ↔ v = .boolean b := by
  cases v <;> simp [Value.asBoolean]

theorem asInteger_eq_some {v : Value} {n : Int64} : v.asInteger = some n ↔ v = .integer n := by
  cases v <;> simp [Value.asInteger]

theorem Kind.typed_iff_convert {kind : Kind α} (h : kind.Assigned) (v : Value) (x : α) :
    kind.Typed v x ↔ kind.convert v = some x := by
  cases kind with
  | string => exact asString_eq_some.symm
  | boolean => exact asBoolean_eq_some.symm
  | int => simp only [Kind.Typed, Kind.convert, Option.map_eq_some_iff, asInteger_eq_some]
  | uint16 => simp only [Kind.Typed, Kind.convert, Option.map_eq_some_iff, asInteger_eq_some]
  | uint32 => simp only [Kind.Typed, Kind.convert, Option.map_eq_some_iff, asInteger_eq_some]
  | uint64 => simp only [Kind.Typed, Kind.convert, Option.map_eq_some_iff, asInteger_eq_some]
  | compression => simp only [Kind.Typed, Kind.convert, Option.bind_eq_some_iff, asString_eq_some]
  | checksum => simp only [Kind.Typed, Kind.convert, Option.bind_eq_some_iff, asString_eq_some]
  | strings => exact h.elim

/-- A field that is assigned once respects the type of its key. -/
theorem respects_assigned {kind : Kind α} (h : kind.Assigned) (found : Option Value) (x : α) :
    Respects kind found x ((found.bind kind.convert).getD x) := by
  constructor
  · rintro v z rfl htyped
    rw [Option.bind_some, (kind.typed_iff_convert h v z).mp htyped, Option.getD_some]
  · intro huntyped
    cases hfound : found.bind kind.convert with
    | none => rfl
    | some z =>
      obtain ⟨v, rfl, hz⟩ := Option.bind_eq_some_iff.mp hfound
      exact absurd ((kind.typed_iff_convert h v z).mpr hz) (huntyped v z rfl)

/-- An array with an element that is no string leaves the elements before. -/
theorem respects_strings_iff (found : Option Value) (held : List Text) :
    Respects .strings found held ((found.bind (Kind.convert .strings)).getD held) ↔ Unharmed found held := by
  constructor
  · rintro ⟨-, hkeep⟩ items rfl
    rcases leadingStrings_split items with hall | ⟨v, rest, hv, hsplit⟩
    · exact Or.inl ⟨_, hall.symm⟩
    · refine Or.inr ⟨v, rest, hv, ?_⟩
      have hheld : leadingStrings items = held := by
        refine hkeep ?_
        rintro w z hw rfl
        -- an array of strings only has no such element
        have hmem : v ∈ z.map Value.string := by
          rw [← Value.array.inj (Option.some.inj hw), hsplit]
          simp
        obtain ⟨s, -, hs⟩ := List.mem_map.mp hmem
        exact hv s hs.symm
      rwa [hheld] at hsplit
  · intro hunharmed
    constructor
    · rintro v z rfl rfl
      exact leadingStrings_map z
    · intro huntyped
      cases hfound : found.bind (Kind.convert .strings) with
      | none => rfl
      | some z =>
        obtain ⟨v, rfl, hz⟩ := Option.bind_eq_some_iff.mp hfound
        cases v with
        | array items =>
          obtain rfl : leadingStrings items = z := Option.some.inj hz
          rcases hunharmed items rfl with ⟨ss, rfl⟩ | ⟨v, rest, hv, rfl⟩
          · exact absurd rfl (huntyped _ ss rfl)
          · exact leadingStrings_append hv held rest
        | _ => cases hz

/-! ### The sections -/

theorem respectsIn_assign_iff (L : Layout Kind ρ) (data : Entries) (name : String) (r : ρ) :
    RespectsIn L.fields name data r (assign (readAt data name) L.fields r) ↔
      ∀ f ∈ L.fields, Respects f.kind (valueAt data name f.key) (f.get r)
        (((valueAt data name f.key).bind f.kind.convert).getD (f.get r)) := by
  refine forall₂_congr fun f hf => ?_
  rw [L.get_assign _ hf]
  rfl

/-- The patterns are the only field that is not assigned once. -/
theorem respectsIn_upload_iff (data : Entries) (c : UploadConfig) :
    RespectsIn uploadFields "upload" data c (assign (readAt data "upload") uploadFields c) ↔
      Unharmed (valueAt data "upload" "exclude_patterns") c.excludePatterns := by
  refine (respectsIn_assign_iff uploadLayout data "upload" c).trans ?_
  constructor
  · intro h
    exact (respects_strings_iff _ _).mp (h _ patternsField_mem)
  · intro h
    refine List.forall_iff_forall_mem.mp ?_
    show uploadFields.Forall _
    unfold uploadFields
    repeat' first
      | exact trivial
      | (apply respects_assigned; exact trivial)
      | apply forall_cons
    exact (respects_strings_iff _ _).mpr h

theorem respectsIn_of_assigned (L : Layout Kind ρ) (h : L.fields.Forall fun f => f.kind.Assigned)
    (data : Entries) (name : String) (r : ρ) :
    RespectsIn L.fields name data r (assign (readAt data name) L.fields r) := by
  rw [respectsIn_assign_iff]
  intro f hf
  exact respects_assigned (List.forall_iff_forall_mem.mp h f hf) _ _

theorem uiFields_assigned : uiFields.Forall fun f => f.kind.Assigned := by
  unfold uiFields
  repeat' first
    | exact trivial
    | apply forall_cons

theorem networkFields_assigned : networkFields.Forall fun f => f.kind.Assigned := by
  unfold networkFields
  repeat' first
    | exact trivial
    | apply forall_cons

/-- **Wrong types.**  An import sets the fields whose keys have values of their types and no others exactly
when the patterns are unharmed. -/
theorem wrongTypesIgnored_iff {parseStr : Text → Option Entries} {text : Text} {data : Entries}
    (h : parseStr text = some data) (hupload : Readable data "upload") (hui : Readable data "ui")
    (hnetwork : Readable data "network") (callback : ChangeCallback) (s : Settings) :
    WrongTypesIgnored data s (importFromTomlString parseStr callback text s).2 ↔
      Unharmed (valueAt data "upload" "exclude_patterns") s.upload.excludePatterns := by
  have himport : (importFromTomlString parseStr callback text s).2 =
      readNetwork data (readUI data (readUpload data s)) := by
    rw [importFromTomlString, parseFullTomlConfig_eq h, if_pos hupload, if_pos hui, if_pos hnetwork]
  rw [himport, ← respectsIn_upload_iff]
  constructor
  · intro hignored
    exact hignored.1
  · intro hpatterns
    exact ⟨hpatterns, respectsIn_of_assigned uiLayout uiFields_assigned data "ui" s.ui,
      respectsIn_of_assigned networkLayout networkFields_assigned data "network" s.network⟩

/-- A document whose patterns are a string and a number. -/
def mixedPatterns : Text := utf8 "[upload]\nexclude_patterns = [\"*.tmp\", 5]\n"

/-- The tables of this document. -/
def mixedTables : Entries :=
  [("upload", .table [("exclude_patterns", .array [.string (utf8 "*.tmp"), .integer 5])])]

/-- The reader at this document. -/
def readMixed (text : Text) : Option Entries := if text = mixedPatterns then some mixedTables else none

theorem wrongTypesIgnored_mixed :
    WrongTypesIgnored mixedTables initializeDefaults
        (importFromTomlString readMixed .none mixedPatterns initializeDefaults).2 ↔
      Unharmed (valueAt mixedTables "upload" "exclude_patterns") [] :=
  wrongTypesIgnored_iff (if_pos rfl) (by decide) (by decide) (by decide) .none initializeDefaults

/-- The import succeeds and the string has become a pattern. -/
theorem mixed_patterns_changed :
    (importFromTomlString readMixed .none mixedPatterns initializeDefaults).1 = true ∧
      (importFromTomlString readMixed .none mixedPatterns initializeDefaults).2.upload.excludePatterns =
        [utf8 "*.tmp"] ∧
      ¬ WrongTypesIgnored mixedTables initializeDefaults
        (importFromTomlString readMixed .none mixedPatterns initializeDefaults).2 := by
  have hread : readMixed mixedPatterns = some mixedTables := if_pos rfl
  have himport : importFromTomlString readMixed .none mixedPatterns initializeDefaults =
      (true, { initializeDefaults with
        upload := { initializeDefaults.upload with excludePatterns := [utf8 "*.tmp"] } }) := by
    rw [importFromTomlString, parseFullTomlConfig, hread]
    rfl
  rw [himport]
  refine ⟨rfl, rfl, ?_⟩
  intro h
  have hkept : [utf8 "*.tmp"] = ([] : List Text) := by
    refine (h.1 _ patternsField_mem).2 ?_
    intro v z hv htyped
    obtain rfl := Option.some.inj hv
    -- 5 is no string
    have hfive : Value.integer 5 ∈ z.map Value.string := by
      rw [← Value.array.inj htyped]
      simp
    obtain ⟨p, -, hp⟩ := List.mem_map.mp hfive
    cases hp
  cases hkept

end LuspUpload.Config
