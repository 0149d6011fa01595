import LuspUpload.Config.Manager
import LuspUpload.Lib.TomlReader
import Mathlib.Data.Int.Notation
import Mathlib.Algebra.Ring.Int.Defs

/-!
# Config.Narrowing — the integers of an imported document

`parseConfigValue` narrows the 64-bit integers of the document with `static_cast`, before any check sees
them.  An integer arrives as it is exactly when it is in the range of its field; `validateConfig` cannot
tell, for it sees the narrowed value only.
-/

namespace LuspUpload.Config

open Lib Toml

variable {α ρ : Type}

/-- The number that a field of an integer type holds. -/
def Kind.toInt : Kind α → α → Option ℤ
  | .int, x => some x.toInt
  | .uint16, x => some x.toNat
  | .uint32, x => some x.toNat
  | .uint64, x => some x.toNat
  | _, _ => none

/-- The type of the field, if it is an integer type, has this number. -/
def Kind.Holds (n : ℤ) : Kind α → Prop
  | .int => -2 ^ 31 ≤ n ∧ n < 2 ^ 31
  | .uint16 => 0 ≤ n ∧ n < 2 ^ 16
  | .uint32 => 0 ≤ n ∧ n < 2 ^ 32
  | .uint64 => 0 ≤ n ∧ n < 2 ^ 64
  | _ => True

/-- The integer keys that the section has with integers are those integers. -/
def ExactIn (fields : List (Field Kind ρ)) (name : String) (data : Entries) (r : ρ) : Prop :=
  ∀ f ∈ fields, ∀ n, valueAt data name f.key = some (.integer n) →
    ∀ k, f.kind.toInt (f.get r) = some k → k = n.toInt

/-- Every integer key of the three sections is the integer of the document. -/
def Exact (data : Entries) (s : Settings) : Prop :=
  ExactIn uploadFields "upload" data s.upload ∧ ExactIn uiFields "ui" data s.ui ∧
    ExactIn networkFields "network" data s.network

/-- The integers of the section are in the ranges of their fields. -/
def InRangeIn (fields : List (Field Kind ρ)) (name : String) (data : Entries) : Prop :=
  ∀ f ∈ fields, ∀ n, valueAt data name f.key = some (.integer n) → f.kind.Holds n.toInt

/-- The integers of the three sections are in the ranges of their fields. -/
def InRange (data : Entries) : Prop :=
  InRangeIn uploadFields "upload" data ∧ InRangeIn uiFields "ui" data ∧
    InRangeIn networkFields "network" data

/-! ### One field -/

theorem toInt_eq_toUInt64 (n : Int64) :
    n.toInt = if 2 * n.toUInt64.toNat < 2 ^ 64 then (n.toUInt64.toNat : ℤ) else n.toUInt64.toNat - 2 ^ 64 :=
  BitVec.toInt_eq_toNat_cond n.toBitVec

theorem forall_some_iff {a b : ℤ} : (∀ k, some a = some k → k = b) ↔ a = b :=
  ⟨fun h => h a rfl, fun h _ hk => Option.some.inj hk ▸ h⟩

theorem eq_of_none_eq_some {k b : ℤ} (h : none = some k) : k = b := absurd h.symm (Option.some_ne_none k)

/-- An integer that is read arrives exactly if the type of the field has it. -/
theorem convert_exact_iff (kind : Kind α) (n : Int64) (x : α) :
    (∀ k, kind.toInt ((kind.convert (.integer n)).getD x) = some k → k = n.toInt) ↔
      kind.Holds n.toInt := by
  have hn := toInt_eq_toUInt64 n
  have hbound := n.toUInt64.toNat_lt
  cases kind with
  | string => exact ⟨fun _ => trivial, fun _ _ => eq_of_none_eq_some⟩
  | boolean => exact ⟨fun _ => trivial, fun _ _ => eq_of_none_eq_some⟩
  | compression => exact ⟨fun _ => trivial, fun _ _ => eq_of_none_eq_some⟩
  | checksum => exact ⟨fun _ => trivial, fun _ _ => eq_of_none_eq_some⟩
  | strings => exact ⟨fun _ => trivial, fun _ _ => eq_of_none_eq_some⟩
  | int =>
    refine (forall_some_iff (a := n.toInt32.toInt)).trans ?_
    have hlow := n.toInt32.le_toInt
    have hhigh := n.toInt32.toInt_lt
    constructor
    · intro heq
      show -2 ^ 31 ≤ n.toInt ∧ n.toInt < 2 ^ 31
      omega
    · rintro ⟨hle, hlt⟩
      rw [Int64.toInt_toInt32]
      exact Int.bmod_eq_of_le hle hlt
  | uint16 =>
    refine (forall_some_iff (a := n.toUInt64.toUInt16.toNat)).trans ?_
    rw [UInt64.toNat_toUInt16]
    show _ ↔ 0 ≤ n.toInt ∧ n.toInt < 2 ^ 16
    omega
  | uint32 =>
    refine (forall_some_iff (a := n.toUInt64.toUInt32.toNat)).trans ?_
    rw [UInt64.toNat_toUInt32]
    show _ ↔ 0 ≤ n.toInt ∧ n.toInt < 2 ^ 32
    omega
  | uint64 =>
    refine (forall_some_iff (a := n.toUInt64.toNat)).trans ?_
    show _ ↔ 0 ≤ n.toInt ∧ n.toInt < 2 ^ 64
    omega

/-! ### The import -/

theorem assign_exactIn_iff (L : Layout Kind ρ) (data : Entries) (name : String) (r : ρ) :
    ExactIn L.fields name data (assign (readAt data name) L.fields r) ↔ InRangeIn L.fields name data := by
  refine forall₂_congr fun f hf => forall₂_congr fun n hn => ?_
  rw [L.get_assign _ hf]
  unfold readAt
  rw [hn, Option.bind_some]
  exact convert_exact_iff f.kind n (f.get r)

/-- **No silent wrap.**  Behind a successful import the integer keys are the integers of the document exactly
when these are in the ranges of their fields. -/
theorem imported_exact_iff {parseStr : Text → Option Entries} {text : Text} {data : Entries}
    (h : parseStr text = some data) {callback : ChangeCallback} {s : Settings}
    (hok : (importFromTomlString parseStr callback text s).1 = true) :
    Exact data (importFromTomlString parseStr callback text s).2 ↔ InRange data := by
  obtain ⟨-, ⟨-, hupload⟩, ⟨-, hui⟩, -, hnetwork⟩ := (import_eq_iff h callback s _).mp (Prod.ext hok rfl)
  unfold Exact
  rw [← hupload, ← hui, ← hnetwork]
  exact and_congr (assign_exactIn_iff uploadLayout data "upload" s.upload)
    (and_congr (assign_exactIn_iff uiLayout data "ui" s.ui)
      (assign_exactIn_iff networkLayout data "network" s.network))

/-! ### A server port -/

/-- A document with a server port. -/
def portDocument (n : ℤ) : Text := documentText [.header "upload", .entry "server_port" (.integer n)]

theorem read_portDocument {n : ℤ} (hn : (Literal.integer n).Plain) :
    read (portDocument n) = some [("upload", .table [("server_port", .integer (Int64.ofInt n))])] := by
  have hupload : Bare "upload" := by decide
  have hport : Bare "server_port" := by decide
  exact read_documentText ⟨⟨hupload, rfl⟩, ⟨hport, rfl, hn⟩, trivial⟩

theorem import_portDocument {n : ℤ} (hn : (Literal.integer n).Plain) (s : Settings) :
    importFromTomlString read .none (portDocument n) s =
      (true, { s with upload := { s.upload with serverPort := (Int64.ofInt n).toUInt64.toUInt16 } }) := by
  rw [importFromTomlString, parseFullTomlConfig, read_portDocument hn]
  rfl

theorem imported_exact_port :
    Exact [("upload", .table [("server_port", .integer (Int64.ofInt 8080))])]
        (importFromTomlString read .none (portDocument 8080) initializeDefaults).2 ↔
      InRange [("upload", .table [("server_port", .integer (Int64.ofInt 8080))])] := by
  have hplain : (Literal.integer 8080).Plain := by decide
  exact imported_exact_iff (read_portDocument hplain) (by rw [import_portDocument hplain])

/-- The port 73616 is imported as 8080, and the configuration is valid. -/
theorem imported_port_wraps :
    ∃ data, read (portDocument 73616) = some data ∧
      (importFromTomlString read .none (portDocument 73616) initializeDefaults).1 = true ∧
      validateConfig (importFromTomlString read .none (portDocument 73616) initializeDefaults).2 = true ∧
      ¬ Exact data (importFromTomlString read .none (portDocument 73616) initializeDefaults).2 := by
  have hplain : (Literal.integer 73616).Plain := by decide
  refine ⟨_, read_portDocument hplain, ?_⟩
  rw [import_portDocument hplain]
  refine ⟨rfl, by decide, ?_⟩
  intro h
  have hport := h.1 ⟨"server_port", .uint16, (·.serverPort), fun v c => { c with serverPort := v }⟩
    (by simp [uploadFields]) (Int64.ofInt 73616) rfl 8080 rfl
  exact absurd hport (by decide)

end LuspUpload.Config
