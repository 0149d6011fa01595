import LuspUpload.Config.Manager

/-!
# Config.FailedImport — failed imports and the configuration held

`parseFullTomlConfig` reads into the live members.  A section that is no table makes it fail, and the
sections before it have been read by then; a change callback that throws makes the import fail behind all
three.  `Harmless` says when such a failure changes nothing.
-/

namespace LuspUpload.Config

open Lib Toml

variable {ρ : Type}

/-- A failure leaves the configuration alone. -/
def Untouched (s : Settings) (r : Bool × Settings) : Prop := r.1 = false → r.2 = s

/-- Every key of the section whose value can be converted has the value that the member holds already. -/
def NothingNew (L : Layout Kind ρ) (data : Entries) (name : String) (r : ρ) : Prop :=
  ∀ f ∈ L.fields, ∀ v x, valueAt data name f.key = some v → f.kind.convert v = some x → x = f.get r

/-- The sections before the first that is no table have nothing new; if the change callback throws, none
has. -/
def Harmless (data : Entries) (s : Settings) (throwing : Prop) : Prop :=
  Readable data "upload" →
    (¬ Readable data "ui" → NothingNew uploadLayout data "upload" s.upload) ∧
    (Readable data "ui" →
      (¬ Readable data "network" →
        NothingNew uploadLayout data "upload" s.upload ∧ NothingNew uiLayout data "ui" s.ui) ∧
      (Readable data "network" → throwing →
        NothingNew uploadLayout data "upload" s.upload ∧ NothingNew uiLayout data "ui" s.ui ∧
          NothingNew networkLayout data "network" s.network))

/-! ### The sections read -/

theorem assign_readAt_eq_iff (L : Layout Kind ρ) (data : Entries) (name : String) (r : ρ) :
    assign (readAt data name) L.fields r = r ↔ NothingNew L data name r := by
  rw [L.assign_eq_iff]
  refine forall₂_congr fun f _ => ?_
  unfold readAt
  constructor
  · intro hsame v x hv hx
    rw [hv, Option.bind_some, hx] at hsame
    exact hsame
  · intro hsame
    cases hx : (valueAt data name f.key).bind f.kind.convert with
    | none => rfl
    | some x =>
      obtain ⟨v, hv, hx⟩ := Option.bind_eq_some_iff.mp hx
      exact hsame v x hv hx

theorem readUpload_eq_iff (data : Entries) (s : Settings) :
    readUpload data s = s ↔ NothingNew uploadLayout data "upload" s.upload := by
  rw [← assign_readAt_eq_iff]
  constructor
  · exact congrArg Settings.upload
  · intro h
    exact congrArg (fun u => { s with upload := u }) h

theorem readUI_readUpload_eq_iff (data : Entries) (s : Settings) :
    readUI data (readUpload data s) = s ↔
      NothingNew uploadLayout data "upload" s.upload ∧ NothingNew uiLayout data "ui" s.ui := by
  rw [← readUpload_eq_iff, ← assign_readAt_eq_iff]
  constructor
  · intro h
    have hui : assign (readAt data "ui") uiLayout.fields s.ui = s.ui := congrArg Settings.ui h
    refine ⟨?_, hui⟩
    have hupload := congrArg Settings.upload h
    exact congrArg (fun u => { s with upload := u }) hupload
  · rintro ⟨hupload, hui⟩
    rw [hupload]
    exact congrArg (fun u => { s with ui := u }) hui

theorem readNetwork_readUI_readUpload_eq_iff (data : Entries) (s : Settings) :
    readNetwork data (readUI data (readUpload data s)) = s ↔
      NothingNew uploadLayout data "upload" s.upload ∧ NothingNew uiLayout data "ui" s.ui ∧
        NothingNew networkLayout data "network" s.network := by
  rw [← and_assoc, ← readUI_readUpload_eq_iff, ← assign_readAt_eq_iff]
  constructor
  · intro h
    have hnetwork : assign (readAt data "network") networkLayout.fields s.network = s.network :=
      congrArg Settings.network h
    refine ⟨?_, hnetwork⟩
    have hupload := congrArg Settings.upload h
    have hui := congrArg Settings.ui h
    show Settings.mk _ _ s.network = s
    exact congrArg₂ (fun u i => Settings.mk u i s.network) hupload hui
  · rintro ⟨hbefore, hnetwork⟩
    rw [hbefore]
    exact congrArg (fun n => { s with network := n }) hnetwork

/-- What a failed reading, or a reading behind which the caller fails, leaves. -/
theorem parseFullTomlConfig_untouched_iff (parseStr : Text → Option Entries) (text : Text) (s : Settings)
    (throwing : Prop) :
    (((parseFullTomlConfig parseStr text s).1 = false ∨ throwing) →
        (parseFullTomlConfig parseStr text s).2 = s) ↔
      ∀ data, parseStr text = some data → Harmless data s throwing := by
  cases hparse : parseStr text with
  | none =>
    have hfail : parseFullTomlConfig parseStr text s = (false, s) := by simp only [parseFullTomlConfig, hparse]
    rw [hfail]
    exact ⟨fun _ data h => absurd h (Option.some_ne_none data).symm, fun _ _ => rfl⟩
  | some data =>
    have hdata : (∀ d, some data = some d → Harmless d s throwing) ↔ Harmless data s throwing :=
      ⟨fun h => h data rfl, fun h d hd => Option.some.inj hd ▸ h⟩
    rw [hdata, parseFullTomlConfig_eq hparse]
    unfold Harmless
    by_cases hupload : Readable data "upload"
    · by_cases hui : Readable data "ui"
      · by_cases hnetwork : Readable data "network"
        · simp [hupload, hui, hnetwork, readNetwork_readUI_readUpload_eq_iff]
        · simp [hupload, hui, hnetwork, readUI_readUpload_eq_iff]
      · simp [hupload, hui, readUpload_eq_iff]
    · simp [hupload]

/-- **Failed imports.**  They leave the configuration alone exactly when the failure is harmless: in
`importFromTomlString` with any change callback and in `loadFromFile` of any file. -/
theorem failed_untouched_iff (parseStr : Text → Option Entries) (s : Settings) :
    (∀ callback text, Untouched s (importFromTomlString parseStr callback text s) ↔
      ∀ data, parseStr text = some data → Harmless data s (callback = .throws)) ∧
    (∀ file, Untouched s (loadFromFile parseStr file s) ↔
      ∀ text data, file = .content text → parseStr text = some data → Harmless data s False) := by
  constructor
  · intro callback text
    rw [← parseFullTomlConfig_untouched_iff]
    have hfails : (importFromTomlString parseStr callback text s).1 = false ↔
        (parseFullTomlConfig parseStr text s).1 = false ∨ callback = .throws := by
      rw [importFromTomlString, Bool.and_eq_false_iff, bne_eq_false_iff_eq]
    unfold Untouched
    rw [hfails]
    rfl
  · intro file
    cases file with
    | missing => exact ⟨fun _ _ _ h => absurd h (by simp), fun _ _ => rfl⟩
    | closed => exact ⟨fun _ _ _ h => absurd h (by simp), fun _ _ => rfl⟩
    | content text =>
      have hcontent : (∀ t data, ConfigFile.content text = .content t → parseStr t = some data →
          Harmless data s False) ↔ ∀ data, parseStr text = some data → Harmless data s False :=
        ⟨fun h data => h text data rfl, fun h t data ht => ConfigFile.content.inj ht ▸ h data⟩
      rw [hcontent, ← parseFullTomlConfig_untouched_iff]
      simp only [Untouched, loadFromFile, or_false]

/-- A document whose `ui` is no table. -/
def uiNoTable : Text := utf8 "ui = 5\n[upload]\nserver_port = 1\n"

/-- The reader at this document. -/
def readUINoTable (text : Text) : Option Entries :=
  if text = uiNoTable then some [("ui", .integer 5), ("upload", .table [("server_port", .integer 1)])] else none

/-- Both calls fail and the server port is another one. -/
theorem failed_import_changes_port :
    ¬ Untouched initializeDefaults
        (importFromTomlString readUINoTable .none uiNoTable initializeDefaults) ∧
      ¬ Untouched initializeDefaults
        (loadFromFile readUINoTable (.content uiNoTable) initializeDefaults) := by
  have hread : readUINoTable uiNoTable =
      some [("ui", .integer 5), ("upload", .table [("server_port", .integer 1)])] := if_pos rfl
  have hparse : (parseFullTomlConfig readUINoTable uiNoTable initializeDefaults).1 = false ∧
      (parseFullTomlConfig readUINoTable uiNoTable initializeDefaults).2.upload.serverPort = 1 := by
    rw [parseFullTomlConfig, hread]
    exact ⟨by decide, by decide⟩
  have hport : (parseFullTomlConfig readUINoTable uiNoTable initializeDefaults).2 ≠ initializeDefaults := by
    intro h
    rw [h] at hparse
    exact absurd hparse.2 (by decide)
  refine ⟨fun h => hport (h ?_), fun h => hport (h hparse.1)⟩
  rw [importFromTomlString, hparse.1]
  rfl

end LuspUpload.Config
