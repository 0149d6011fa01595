import LuspUpload.Lib.LeBytes

/-!
# Lib.FlatTable — tables addressed through a vtable

A table is a list of stored elements, each at its vtable slot.  A writer leaves out scalars that equal
their default; a reader gives the default for a slot that is absent.  `Reader` is what a reader finds in
a buffer: the first bytes of a scalar at a slot, a text at a slot.  `Encodes` says that a buffer holds a
table; a scalar may be read at any width up to its own, which takes its low bytes.

`wire` is the reader of the binary format: root offset, then the table, which points back to its vtable
of 16-bit offsets; texts are offsets to a length and bytes.
-/

namespace LuspUpload.Lib

/-- A stored element of a table. -/
inductive Element where
  | scalar (width value : ℕ)
  | text (bytes : List UInt8)
  deriving DecidableEq, Repr

/-- The stored elements with their slots. -/
abbrev Table := List (ℕ × Element)

/-- Store a scalar unless it equals the default. -/
def addElement (slot width value default : ℕ) : Table :=
  if value = default then [] else [(slot, .scalar width value)]

/-- Store a text. -/
def addOffset (slot : ℕ) (bytes : List UInt8) : Table := [(slot, .text bytes)]

/-- The element of a slot. -/
def Table.at (t : Table) (slot : ℕ) : Option Element := (t.find? (·.1 = slot)).map (·.2)

/-- The first table that has the slot answers. -/
theorem Table.at_or (t u : Table) (slot : ℕ) : Table.at (t ++ u) slot = (t.at slot).or (u.at slot) := by
  rw [Table.at, Table.at, Table.at, List.find?_append, Option.map_or]

theorem Table.at_addElement_of_ne {slot slot' w v d : ℕ} (h : slot' ≠ slot) :
    (addElement slot' w v d).at slot = none := by
  unfold addElement
  split_ifs
  · rfl
  · simp [Table.at, h]

theorem Table.at_addOffset_of_ne {slot slot' : ℕ} {s : List UInt8} (h : slot' ≠ slot) :
    (addOffset slot' s).at slot = none := by
  simp [addOffset, Table.at, h]

theorem Table.at_addOffset (slot : ℕ) (s : List UInt8) :
    (addOffset slot s).at slot = some (.text s) := by
  simp [addOffset, Table.at]

/-- A reader of buffers; `none`: the vtable has no such slot. -/
structure Reader where
  scalar : List UInt8 → ℕ → ℕ → Option (List UInt8)
  text : List UInt8 → ℕ → Option (List UInt8)

namespace Reader

/-- The widths of scalars. -/
def widths : List ℕ := [1, 2, 4, 8]

/-- The reader finds the element `e` (or nothing) at `slot`. -/
def Finds (R : Reader) (buf : List UInt8) (slot : ℕ) : Option Element → Prop
  | none => (∀ n ∈ widths, R.scalar buf slot n = none) ∧ R.text buf slot = none
  | some (.scalar w v) => ∀ n ∈ widths, n ≤ w → R.scalar buf slot n = some ((leBytes w v).take n)
  | some (.text s) => R.text buf slot = some s

instance (R : Reader) (buf : List UInt8) (slot : ℕ) :
    ∀ e, Decidable (R.Finds buf slot e)
  | none => inferInstanceAs (Decidable (_ ∧ _))
  | some (.scalar w _) => inferInstanceAs (Decidable (∀ n ∈ widths, n ≤ w → _))
  | some (.text _) => inferInstanceAs (Decidable (_ = _))

/-- The buffer holds the table, as far as the slots of the schema go. -/
def Encodes (R : Reader) (slots : List ℕ) (buf : List UInt8) (t : Table) : Prop :=
  ∀ slot ∈ slots, R.Finds buf slot (t.at slot)

instance (R : Reader) (slots : List ℕ) (buf : List UInt8) (t : Table) :
    Decidable (R.Encodes slots buf t) := inferInstanceAs (Decidable (∀ slot ∈ slots, _))

/-- A scalar field, the default when its slot is absent. -/
def getField (R : Reader) (buf : List UInt8) (slot width default : ℕ) : ℕ :=
  ((R.scalar buf slot width).map leNat).getD default

/-- A stored scalar reads back modulo the width it is read at. -/
theorem getField_scalar {R : Reader} {buf : List UInt8} {slot w v n : ℕ}
    (h : R.Finds buf slot (some (.scalar w v))) (hn : n ∈ widths) (hle : n ≤ w) (default : ℕ) :
    R.getField buf slot n default = v % 256 ^ n := by
  have hread : R.scalar buf slot n = some ((leBytes w v).take n) := h n hn hle
  rw [getField, hread, take_leBytes hle, Option.map_some, Option.getD_some, leNat_leBytes]

theorem getField_absent {R : Reader} {buf : List UInt8} {slot n : ℕ} (h : R.Finds buf slot none)
    (hn : n ∈ widths) (default : ℕ) : R.getField buf slot n default = default := by
  have hread : R.scalar buf slot n = none := h.1 n hn
  rw [getField, hread]
  rfl

/-- Elision does not show: a scalar reads back whether or not it is stored. -/
theorem getField_addElement {R : Reader} {buf : List UInt8} {slot w v n default : ℕ}
    (h : R.Finds buf slot ((addElement slot w v default).at slot)) (hn : n ∈ widths) (hle : n ≤ w)
    (hdef : default < 256 ^ n) : R.getField buf slot n default = v % 256 ^ n := by
  by_cases hv : v = default
  · have hnone : R.Finds buf slot none := by simpa [addElement, hv, Table.at] using h
    rw [getField_absent hnone hn, hv, Nat.mod_eq_of_lt hdef]
  · have hsome : R.Finds buf slot (some (.scalar w v)) := by
      simpa [addElement, hv, Table.at] using h
    exact getField_scalar hsome hn hle default

section Encodes

variable {R : Reader} {slots : List ℕ} {buf : List UInt8} {t : Table}

/-- A text is read where it was put. -/
theorem Encodes.text {slot : ℕ} {s : List UInt8} (h : R.Encodes slots buf t) (hslot : slot ∈ slots)
    (hs : t.at slot = some (.text s)) : R.text buf slot = some s := by
  have hfind := h slot hslot
  rw [hs] at hfind
  exact hfind

/-- So is a scalar, at its own width. -/
theorem Encodes.getField {slot w v default : ℕ} (h : R.Encodes slots buf t) (hslot : slot ∈ slots)
    (hw : w ∈ widths) (hv : t.at slot = (addElement slot w v default).at slot) (hlt : v < 256 ^ w)
    (hdef : default < 256 ^ w) : R.getField buf slot w default = v := by
  have hfind := h slot hslot
  rw [hv] at hfind
  rw [getField_addElement hfind hw (Nat.le_refl w) hdef, Nat.mod_eq_of_lt hlt]

end Encodes

/-! ### The binary format -/

/-- The unsigned integer of `width` bytes at `i`. -/
def uintAt (buf : List UInt8) (i width : ℕ) : ℕ := leNat ((buf.drop i).take width)

/-- The place of a field, by the vtable of the root table. -/
def fieldPlace (buf : List UInt8) (slot : ℕ) : Option ℕ :=
  let table := uintAt buf 0 4
  let soffset := uintAt buf table 4
  let vtable := if soffset < 2 ^ 31 then table - soffset else table + (2 ^ 32 - soffset)
  let offset := if slot < uintAt buf vtable 2 then uintAt buf (vtable + slot) 2 else 0
  if offset = 0 then none else some (table + offset)

/-- The reader of the binary format. -/
def wire : Reader where
  scalar buf slot width := (fieldPlace buf slot).map fun i => (buf.drop i).take width
  text buf slot := (fieldPlace buf slot).map fun i =>
    (buf.drop (i + uintAt buf i 4 + 4)).take (uintAt buf (i + uintAt buf i 4) 4)

end Reader

end LuspUpload.Lib
