import Mathlib.Data.List.Basic

/-!
# Lib.Fields — records that are read field by field

A `Field` of a record type is a getter and a setter under a key, with the kind of its values.  The fields
of a `Layout` do not interfere with each other and determine the record.  `assign` gives the fields new
values one after the other, each made from the old one; in a layout no assignment sees another.
-/

namespace LuspUpload.Lib

/-- A field of the records `ρ`; its kind says what its values are. -/
structure Field (κ : Type → Type) (ρ : Type) where
  key : String
  {α : Type}
  kind : κ α
  get : ρ → α
  set : α → ρ → ρ

variable {κ : Type → Type} {ρ : Type}

/-- Neither field sees that the other one is set. -/
def Field.Apart (f g : Field κ ρ) : Prop :=
  (∀ v r, f.get (g.set v r) = f.get r) ∧ ∀ v r, g.get (f.set v r) = g.get r

/-- The fields one after the other, each with a new value made from the one it has. -/
def assign (new : (f : Field κ ρ) → f.α → f.α) : List (Field κ ρ) → ρ → ρ
  | [], r => r
  | f :: fs, r => assign new fs (f.set (new f (f.get r)) r)

/-- All the fields of a record type. -/
structure Layout (κ : Type → Type) (ρ : Type) where
  fields : List (Field κ ρ)
  get_set : fields.Forall fun f => ∀ v r, f.get (f.set v r) = v
  apart : fields.Pairwise Field.Apart
  ext : ∀ r r', (fields.Forall fun f => f.get r = f.get r') → r = r'

theorem get_assign_of_apart {new : (f : Field κ ρ) → f.α → f.α} {f : Field κ ρ} {fs : List (Field κ ρ)}
    (h : ∀ g ∈ fs, f.Apart g) (r : ρ) : f.get (assign new fs r) = f.get r := by
  induction fs generalizing r with
  | nil => rfl
  | cons g fs ih =>
    obtain ⟨hg, hfs⟩ := List.forall_mem_cons.mp h
    rw [assign, ih hfs, hg.1]

/-- No assignment sees another. -/
theorem get_assign {new : (f : Field κ ρ) → f.α → f.α} {f : Field κ ρ} {fs : List (Field κ ρ)}
    (hset : fs.Forall fun f => ∀ v r, f.get (f.set v r) = v) (hapart : fs.Pairwise Field.Apart)
    (hf : f ∈ fs) (r : ρ) : f.get (assign new fs r) = new f (f.get r) := by
  induction fs generalizing r with
  | nil => cases hf
  | cons g fs ih =>
    rw [List.forall_cons] at hset
    obtain ⟨hg, hfs⟩ := List.pairwise_cons.mp hapart
    rcases List.mem_cons.mp hf with rfl | hf
    · rw [assign, get_assign_of_apart hg, hset.1]
    · rw [assign, ih hset.2 hfs hf, (hg f hf).2]

namespace Layout

variable (L : Layout κ ρ) (new : (f : Field κ ρ) → f.α → f.α)

theorem get_assign {f : Field κ ρ} (hf : f ∈ L.fields) (r : ρ) :
    f.get (assign new L.fields r) = new f (f.get r) :=
  Lib.get_assign L.get_set L.apart hf r

theorem eq_of_get {r r' : ρ} (h : ∀ f ∈ L.fields, f.get r = f.get r') : r = r' :=
  L.ext r r' (List.forall_iff_forall_mem.mpr h)

/-- The record that an assignment gives, field by field. -/
theorem assign_eq_iff {r r' : ρ} :
    assign new L.fields r = r' ↔ ∀ f ∈ L.fields, new f (f.get r) = f.get r' := by
  constructor
  · rintro rfl f hf
    exact (L.get_assign new hf r).symm
  · intro h
    refine L.eq_of_get fun f hf => ?_
    rw [L.get_assign new hf, h f hf]

end Layout

end LuspUpload.Lib
