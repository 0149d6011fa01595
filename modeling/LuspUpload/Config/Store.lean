import LuspUpload.Config.Narrowing
import LuspUpload.Config.RoundTrip
import LuspUpload.Lib.Runs

/-!
# Config.Store — the configuration and its files over the life of the program

`ClientConfigManager` holds one configuration that is edited in place, reset, read from texts and files, and
saved to files; others may change the files.  Whatever the order: a field has the value of the last of them
that sets it, an import that fails included (`run_last_setting`), and what was saved comes back where the
configuration is portable (`saved_comes_back`).
-/

namespace LuspUpload.Config

open Lib Toml

variable {α ρ : Type}

/-- How the writing of a file goes: the directory or the file cannot be made, the disk takes so many bytes,
or all of them. -/
inductive Disk where
  | refused
  | full (bytes : ℕ)
  | room
  deriving DecidableEq, Repr

/-- What of a text gets into the file. -/
def Disk.keeps : Disk → Text → Option Text
  | .refused, _ => none
  | .full bytes, text => some (text.take bytes)
  | .room, text => some text

/-- `has_parent_path`: there is a separator of the platform in the path. -/
def hasParentPath (isSeparator : Char → Bool) (configPath : String) : Bool :=
  configPath.toList.any isSeparator

/-- The configuration and the files. -/
structure ConfigStore where
  settings : Settings
  files : String → ConfigFile

/-- A call of the manager, or what happens beside it: `edit` is an assignment through the references that
the getters return, `put` another program that changes a file. -/
inductive StoreOp where
  | edit (settings : Settings)
  | setDefaults
  | importFromTomlString (callback : ChangeCallback) (tomlContent : Text)
  | loadFromFile (configPath : String)
  | saveToFile (configPath : String) (disk : Disk)
  | createDefaultConfigFile (configPath : String) (disk : Disk)
  | put (configPath : String) (file : ConfigFile)

/-- The whole configuration is replaced, a document is read, a call returns. -/
inductive StoreEvent where
  | held (settings : Settings)
  | read (data : Entries)
  | returned (ok : Bool)

namespace ConfigStore

/-- The constructor. -/
def create (files : String → ConfigFile) : ConfigStore := ⟨initializeDefaults, files⟩

def write (s : ConfigStore) (configPath : String) (file : ConfigFile) : ConfigStore :=
  { s with files := fun path => if path = configPath then file else s.files path }

/-- `saveToFile`; a directory is made only where the path has one, and the stream is not looked at after the
text was put into it. -/
def saveToFile (configPath : String) (disk : Disk) (s : ConfigStore) : ConfigStore × List StoreEvent :=
  match disk.keeps (generateFullTomlConfig s.settings) with
  | none => (s, [.returned false])
  | some text => (s.write configPath (.content text), [.returned true])

variable (isSeparator : Char → Bool)

/-- `createDefaultConfigFile`: not the defaults, the configuration as it is.  `create_directories` of an empty
path is an error, and a path without a directory has an empty `parent_path`. -/
def createDefaultConfigFile (configPath : String) (disk : Disk) (s : ConfigStore) :
    ConfigStore × List StoreEvent :=
  if hasParentPath isSeparator configPath then
    match disk.keeps (generateFullTomlConfig s.settings) with
    | none => (s, [.returned false])
    | some text => (s.write configPath (.content text), [.returned true])
  else (s, [.returned false])

variable (parseStr : Text → Option Entries)

/-- The document that a text is, if it is one. -/
def documents (text : Text) : List StoreEvent := ((parseStr text).map StoreEvent.read).toList

/-- The document that is read from a file. -/
def fileDocuments : ConfigFile → List StoreEvent
  | .content text => documents parseStr text
  | _ => []

def step (s : ConfigStore) : StoreOp → ConfigStore × List StoreEvent
  | .edit settings => ({ s with settings := settings }, [.held settings])
  | .setDefaults => ({ s with settings := initializeDefaults }, [.held initializeDefaults])
  | .importFromTomlString callback tomlContent =>
    let r := Config.importFromTomlString parseStr callback tomlContent s.settings
    ({ s with settings := r.2 }, documents parseStr tomlContent ++ [.returned r.1])
  | .loadFromFile configPath =>
    let r := Config.loadFromFile parseStr (s.files configPath) s.settings
    ({ s with settings := r.2 }, fileDocuments parseStr (s.files configPath) ++ [.returned r.1])
  | .saveToFile configPath disk => s.saveToFile configPath disk
  | .createDefaultConfigFile configPath disk => s.createDefaultConfigFile isSeparator configPath disk
  | .put configPath file => (s.write configPath file, [])

/-- The store under a sequence of calls. -/
def store : Machine ConfigStore StoreOp StoreEvent := ⟨fun s op => some (s.step isSeparator parseStr op)⟩

end ConfigStore

/-! ### Sections -/

/-- A section with the part of the configuration it is read into.  `before` are the sections that are read
first; where one of these is no table, the reading ends before this section. -/
structure Section (ρ : Type) where
  name : String
  before : List String
  layout : Layout Kind ρ
  part : Settings → ρ
  reads : ∀ (parseStr : Text → Option Entries) (text : Text) (data : Entries) (s : Settings),
    parseStr text = some data →
      part (parseFullTomlConfig parseStr text s).2 =
        if ∀ n ∈ name :: before, Readable data n then assign (readAt data name) layout.fields (part s)
        else part s

/-- The conditions of `Section.reads` one by one. -/
theorem forall_mem_names {p : String → Prop} :
    ((∀ n ∈ ["upload"], p n) ↔ p "upload") ∧ ((∀ n ∈ ["ui", "upload"], p n) ↔ p "ui" ∧ p "upload") ∧
      ((∀ n ∈ ["network", "upload", "ui"], p n) ↔ p "network" ∧ p "upload" ∧ p "ui") := by
  simp

def uploadSection : Section UploadConfig where
  name := "upload"
  before := []
  layout := uploadLayout
  part := Settings.upload
  reads := by
    intro parseStr text data s hparse
    rw [parseFullTomlConfig_eq hparse]
    simp only [forall_mem_names]
    split_ifs <;> rfl

def uiSection : Section UIConfig where
  name := "ui"
  before := ["upload"]
  layout := uiLayout
  part := Settings.ui
  reads := by
    intro parseStr text data s hparse
    rw [parseFullTomlConfig_eq hparse]
    by_cases hupload : Readable data "upload"
    · simp only [forall_mem_names, hupload, and_true, if_true]
      split_ifs <;> rfl
    · simp only [forall_mem_names, hupload, and_false, if_false]

def networkSection : Section NetworkConfig where
  name := "network"
  before := ["upload", "ui"]
  layout := networkLayout
  part := Settings.network
  reads := by
    intro parseStr text data s hparse
    rw [parseFullTomlConfig_eq hparse]
    by_cases hupload : Readable data "upload"
    · by_cases hui : Readable data "ui"
      · simp only [forall_mem_names, hupload, hui, and_true, if_true]
        split_ifs <;> rfl
      · simp only [forall_mem_names, hupload, hui, and_false, if_true, if_false]
        rfl
    · simp only [forall_mem_names, hupload, false_and, and_false, if_false]

/-- What an event sets a field of a section to. -/
def Section.setting (S : Section ρ) (f : Field Kind ρ) : StoreEvent → Option f.α
  | .held s => some (f.get (S.part s))
  | .read data =>
    if ∀ n ∈ S.name :: S.before, Readable data n then (valueAt data S.name f.key).bind f.kind.convert
    else none
  | _ => none

namespace ConfigStore

variable {isSeparator : Char → Bool} {parseStr : Text → Option Entries} {s s' : ConfigStore}
  {es : List StoreEvent}

/-! ### One call -/

section Step

variable (S : Section ρ) {f : Field Kind ρ} (hf : f ∈ S.layout.fields)

include hf in
/-- Reading a text sets a field as its document says, whether the reading succeeds or not. -/
theorem get_parse (text : Text) (c : Settings) :
    f.get (S.part (parseFullTomlConfig parseStr text c).2) =
      Machine.lastOf (S.setting f) (f.get (S.part c)) (documents parseStr text) := by
  cases hparse : parseStr text with
  | none =>
    rw [parseFullTomlConfig, documents, hparse]
    rfl
  | some data =>
    rw [S.reads parseStr text data c hparse, documents, hparse]
    show _ = Machine.lastOf (S.setting f) _ [.read data]
    rw [Machine.lastOf_singleton, Section.setting]
    split_ifs
    · rw [S.layout.get_assign _ hf]
      rfl
    · rfl

include hf in
theorem get_step (op : StoreOp) : f.get (S.part (s.step isSeparator parseStr op).1.settings) =
    Machine.lastOf (S.setting f) (f.get (S.part s.settings)) (s.step isSeparator parseStr op).2 := by
  cases op with
  | edit settings => rfl
  | setDefaults => rfl
  | importFromTomlString callback tomlContent =>
    show f.get (S.part (parseFullTomlConfig parseStr tomlContent s.settings).2) =
      Machine.lastOf _ _ (documents parseStr tomlContent ++ [_])
    rw [Machine.lastOf_append, ← get_parse S hf]
    rfl
  | loadFromFile configPath =>
    show f.get (S.part (Config.loadFromFile parseStr (s.files configPath) s.settings).2) =
      Machine.lastOf _ _ (fileDocuments parseStr (s.files configPath) ++ [_])
    rw [Machine.lastOf_append]
    cases s.files configPath with
    | missing => rfl
    | closed => rfl
    | content text =>
      rw [fileDocuments, ← get_parse S hf]
      rfl
  | saveToFile configPath disk =>
    cases disk <;> rfl
  | createDefaultConfigFile configPath disk =>
    show f.get (S.part (createDefaultConfigFile isSeparator configPath disk s).1.settings) =
      Machine.lastOf _ _ (createDefaultConfigFile isSeparator configPath disk s).2
    unfold createDefaultConfigFile
    split_ifs
    · cases disk <;> rfl
    · rfl
  | put configPath file => rfl

end Step

/-- A call that may change the file. -/
def Writes (configPath : String) : StoreOp → Prop
  | .saveToFile path _ => path = configPath
  | .createDefaultConfigFile path _ => path = configPath
  | .put path _ => path = configPath
  | _ => False

/-- The other calls leave it alone. -/
theorem files_step {configPath : String} {op : StoreOp} (hop : ¬ Writes configPath op) :
    (s.step isSeparator parseStr op).1.files configPath = s.files configPath := by
  cases op with
  | saveToFile path disk =>
    cases disk with
    | refused => rfl
    | full bytes => exact if_neg (Ne.symm hop)
    | room => exact if_neg (Ne.symm hop)
  | createDefaultConfigFile path disk =>
    show (createDefaultConfigFile isSeparator path disk s).1.files configPath = _
    unfold createDefaultConfigFile
    split_ifs
    · cases disk with
      | refused => rfl
      | full bytes => exact if_neg (Ne.symm hop)
      | room => exact if_neg (Ne.symm hop)
    · rfl
  | put path file => exact if_neg (Ne.symm hop)
  | _ => rfl

theorem files_run {configPath : String} {ops : List StoreOp} (hops : ∀ op ∈ ops, ¬ Writes configPath op)
    (hrun : (store isSeparator parseStr).run s ops = some (s', es)) : s'.files configPath = s.files configPath := by
  refine (Machine.along_of_forall hops s).invariant
    (I := fun t _ => t.files configPath = s.files configPath) (h := []) ?_ rfl hrun
  intro t h op t' es' ht hop hstep
  obtain rfl : (t.step isSeparator parseStr op).1 = t' := congrArg Prod.fst (Option.some.inj hstep)
  exact (files_step hop).trans ht

/-! ### Whole lives -/

/-- **The last setting counts** — after any sequence of calls each field has the value of the last document,
reset or edit that sets it, and the one it had before where there is none.  A document sets the fields of a
section whose keys it has with convertible values, up to the first section that is no table, and whether the
call that reads it succeeds or not. -/
theorem run_last_setting (S : Section ρ) {f : Field Kind ρ} (hf : f ∈ S.layout.fields) {ops : List StoreOp}
    (hrun : (store isSeparator parseStr).run s ops = some (s', es)) :
    f.get (S.part s'.settings) = Machine.lastOf (S.setting f) (f.get (S.part s.settings)) es := by
  refine Machine.run_lastOf (fun t : ConfigStore => f.get (S.part t.settings)) ?_ hrun
  intro t op t' es' hstep
  obtain ⟨rfl, rfl⟩ := Prod.mk.inj (Option.some.inj hstep)
  exact get_step S hf op

def portField : Field Kind UploadConfig :=
  ⟨"server_port", .uint16, UploadConfig.serverPort, fun v c => { c with serverPort := v }⟩

/-- An import that fails because its callback throws sets the port all the same, and a text that is no TOML
does not; a file of the defaults that is to be made without a directory is not made. -/
theorem run_last_setting_port : ∃ s' es,
    (store (· == '/') read).run (create fun _ => .missing) [.importFromTomlString .none (portDocument 8080),
      .importFromTomlString .throws (portDocument 9090), .importFromTomlString .none (utf8 "server_port = "),
      .createDefaultConfigFile "upload_client.toml" .room, .loadFromFile "upload_client.toml"] =
        some (s', es) ∧
    s'.settings.upload.serverPort =
      Machine.lastOf (uploadSection.setting portField) initializeDefaults.upload.serverPort es :=
  ⟨_, _, rfl, @run_last_setting UploadConfig (· == '/') read (create fun _ => .missing) _ _ uploadSection
    portField (List.mem_cons_of_mem _ List.mem_cons_self)
    [.importFromTomlString .none (portDocument 8080), .importFromTomlString .throws (portDocument 9090),
      .importFromTomlString .none (utf8 "server_port = "),
      .createDefaultConfigFile "upload_client.toml" .room, .loadFromFile "upload_client.toml"] rfl⟩

/-- A call that puts the whole configuration into the file. -/
def Saves (isSeparator : Char → Bool) (configPath : String) : StoreOp → Prop
  | .saveToFile path disk => path = configPath ∧ disk = .room
  | .createDefaultConfigFile path disk =>
    path = configPath ∧ disk = .room ∧ hasParentPath isSeparator configPath = true
  | _ => False

theorem files_saves {configPath : String} {save : StoreOp} (hsave : Saves isSeparator configPath save) :
    (s.step isSeparator parseStr save).1.files configPath = .content (exportToTomlString s.settings) ∧
      (s.step isSeparator parseStr save).2 = [.returned true] := by
  cases save with
  | saveToFile path disk =>
    obtain ⟨rfl, rfl⟩ := hsave
    exact ⟨if_pos rfl, rfl⟩
  | createDefaultConfigFile path disk =>
    obtain ⟨rfl, rfl, hparent⟩ := hsave
    show (createDefaultConfigFile isSeparator path .room s).1.files path = _ ∧
      (createDefaultConfigFile isSeparator path .room s).2 = _
    rw [createDefaultConfigFile, if_pos hparent]
    exact ⟨if_pos rfl, rfl⟩
  | _ => exact hsave.elim

/-- A path without a directory: nothing is written, whatever the disk. -/
theorem createDefaultConfigFile_bare {configPath : String} (h : hasParentPath isSeparator configPath = false)
    (disk : Disk) (s : ConfigStore) :
    createDefaultConfigFile isSeparator configPath disk s = (s, [.returned false]) := by
  rw [createDefaultConfigFile, if_neg (by rw [h]; exact Bool.false_ne_true)]

/-- **What was saved comes back** — after a save that the disk has room for, and any calls that leave the
file alone, loading it brings the saved configuration back exactly when that is portable, and no patterns
are held where it has none.  `createDefaultConfigFile` saves under a path with a directory only; under a bare
file name it returns false and changes nothing. -/
theorem saved_comes_back (h : ReadsToml parseStr) {configPath : String} {save : StoreOp}
    (hsave : Saves isSeparator configPath save) {ops : List StoreOp}
    (hops : ∀ op ∈ ops, ¬ Writes configPath op)
    (hrun : (store isSeparator parseStr).run s (save :: ops) = some (s', es)) :
    (Config.loadFromFile parseStr (s'.files configPath) s'.settings = (true, s.settings) ↔
      Portable s.settings ∧
        (s.settings.upload.excludePatterns = [] → s'.settings.upload.excludePatterns = [])) ∧
    (∀ bare disk, hasParentPath isSeparator bare = false →
      s.step isSeparator parseStr (.createDefaultConfigFile bare disk) = (s, [.returned false])) := by
  obtain ⟨s₁, es₁, es₂, hfirst, hrest, rfl⟩ := Machine.run_cons_inv hrun
  have hwritten : s₁.files configPath = .content (exportToTomlString s.settings) := by
    obtain rfl : (s.step isSeparator parseStr save).1 = s₁ := congrArg Prod.fst (Option.some.inj hfirst)
    exact (files_saves hsave).1
  have hload : Config.loadFromFile parseStr (s'.files configPath) s'.settings =
      Config.importFromTomlString parseStr .none (exportToTomlString s.settings) s'.settings := by
    rw [files_run hops hrest, hwritten, Config.importFromTomlString, Config.loadFromFile]
    exact Prod.ext (Bool.and_true _).symm rfl
  rw [hload]
  refine ⟨⟨?_, ?_⟩, fun bare disk hbare => createDefaultConfigFile_bare hbare disk s⟩
  · intro hback
    have hportable := portable_of_roundTrip h hback
    exact ⟨hportable, ((roundTrip_portable h hportable .none _).mp hback).1⟩
  · rintro ⟨hportable, hkept⟩
    exact (roundTrip_portable h hportable .none _).mpr ⟨hkept, by decide⟩

/-- A pattern is saved under a path with a directory, the configuration reset, and the pattern comes back. -/
theorem saved_comes_back_pattern : ∃ s' es,
    (store (· == '/') read).run ⟨withPattern, fun _ => .missing⟩
      [.createDefaultConfigFile "config/upload_client.toml" .room, .setDefaults,
        .saveToFile "defaults.toml" .room] = some (s', es) ∧
    (Config.loadFromFile read (s'.files "config/upload_client.toml") s'.settings = (true, withPattern) ↔
      Portable withPattern ∧
        (withPattern.upload.excludePatterns = [] → s'.settings.upload.excludePatterns = [])) :=
  ⟨_, _, rfl, (@saved_comes_back (· == '/') read ⟨withPattern, fun _ => .missing⟩ _ _ read_reads
    "config/upload_client.toml" (.createDefaultConfigFile "config/upload_client.toml" .room)
    ⟨rfl, rfl, by decide⟩ [.setDefaults, .saveToFile "defaults.toml" .room] (by simp [Writes]) rfl).1⟩

end ConfigStore

end LuspUpload.Config
