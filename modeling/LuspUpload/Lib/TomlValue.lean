import Mathlib.Data.List.Nodup
import Mathlib.Tactic.Common

/-!
# Lib.TomlValue — the values of a TOML document

A document is a table: keys with values, each key once.  Keys are Unicode, strings are bytes.  A member
function that meets a value of another type than it wants throws, which is `none` or an error here.
-/

namespace LuspUpload.Lib

/-- The bytes of a string of the program. -/
abbrev Text := List UInt8

/-- Closed facts about the elements of a list, by evaluation. -/
theorem forall_mem_of_all {α : Type} {l : List α} {p : α → Prop} [DecidablePred p]
    (h : l.all (fun a => p a) = true) : ∀ a ∈ l, p a :=
  fun a ha => of_decide_eq_true (List.all_eq_true.mp h a ha)

/-- A text of the source. -/
def utf8 (s : String) : Text := s.toList.flatMap String.utf8EncodeChar

namespace Toml

/-- A value; floats and date-times are `other`. -/
inductive Value where
  | boolean (b : Bool)
  | integer (n : Int64)
  | string (s : Text)
  | array (items : List Value)
  | table (entries : List (String × Value))
  | other

/-- The keys of a table with their values. -/
abbrev Entries := List (String × Value)

/-- A value is not of the type that a member function wants. -/
inductive BadCast where
  | badCast
  deriving DecidableEq, Repr

namespace Value

/-- `as_string`. -/
def asString : Value → Option Text
  | .string s => some s
  | _ => none

/-- `as_boolean`. -/
def asBoolean : Value → Option Bool
  | .boolean b => some b
  | _ => none

/-- `as_integer`. -/
def asInteger : Value → Option Int64
  | .integer n => some n
  | _ => none

/-- `as_array`. -/
def asArray : Value → Option (List Value)
  | .array items => some items
  | _ => none

/-- `contains` and `at`: the value at the key, if there is one; only a table can be asked. -/
def find (key : String) : Value → Except BadCast (Option Value)
  | .table entries => .ok (entries.lookup key)
  | _ => .error .badCast

end Value

/-- The value at a key of a table of the document. -/
def valueAt (doc : Entries) (name key : String) : Option Value :=
  match doc.lookup name with
  | some (.table entries) => entries.lookup key
  | _ => none

/-! ### Lookups -/

section Lookups

variable {β γ : Type}

theorem lookup_eq_none_of_new {l : List (String × β)} {k : String} (h : k ∉ l.map Prod.fst) :
    l.lookup k = none := by
  rw [List.lookup_eq_none_iff]
  intro e he
  rw [bne_iff_ne]
  rintro rfl
  exact h (List.mem_map_of_mem he)

theorem lookup_of_mem {l : List (String × β)} (h : (l.map Prod.fst).Nodup) {e : String × β} (he : e ∈ l) :
    l.lookup e.1 = some e.2 := by
  obtain ⟨l₁, l₂, rfl⟩ := List.append_of_mem he
  rw [List.map_append, List.map_cons, List.nodup_append] at h
  rw [List.lookup_append, lookup_eq_none_of_new fun hk => h.2.2 e.1 hk e.1 List.mem_cons_self rfl]
  exact List.lookup_cons_self

theorem lookup_reverse {l : List (String × β)} (h : (l.map Prod.fst).Nodup) (k : String) :
    l.reverse.lookup k = l.lookup k := by
  by_cases hk : k ∈ l.map Prod.fst
  · obtain ⟨e, he, rfl⟩ := List.mem_map.mp hk
    rw [lookup_of_mem h he]
    refine lookup_of_mem ?_ (List.mem_reverse.mpr he)
    rw [List.map_reverse]
    exact List.nodup_reverse.mpr h
  · rw [lookup_eq_none_of_new hk, lookup_eq_none_of_new]
    rwa [List.map_reverse, List.mem_reverse]

theorem lookup_map (f : β → γ) (l : List (String × β)) (k : String) :
    (l.map fun e => (e.1, f e.2)).lookup k = (l.lookup k).map f := by
  induction l with
  | nil => rfl
  | cons e l ih =>
    rw [List.map_cons, List.lookup_cons, List.lookup_cons, ih]
    cases k == e.1 with
    | false => rfl
    | true => rfl

theorem lookup_cons_of_new {l : List (String × β)} {k k' : String} {v v' : β}
    (h : l.lookup k = some v) (hnew : l.lookup k' = none) : ((k', v') :: l).lookup k = some v := by
  have hne : k ≠ k' := by
    rintro rfl
    rw [h] at hnew
    cases hnew
  rw [List.lookup_cons, beq_eq_false_iff_ne.mpr hne]
  exact h

end Lookups

end Toml

end LuspUpload.Lib
