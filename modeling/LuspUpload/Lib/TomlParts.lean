import LuspUpload.Lib.TomlText

/-!
# Lib.TomlParts — documents made up of tables

A `Part` is a table with its entries and the comments and blank lines before it.  If the parts are `Tidy`
(every name and every key is bare and stands once), then a reader of TOML finds each entry with its value,
provided all values are plain; if one is not, the first such is read in another way than it was printed.
-/

namespace LuspUpload.Lib.Toml

/-- A table and the lines before it. -/
structure Part where
  lead : List Line
  name : String
  entries : List (String × Literal)

/-- Entries under each other. -/
def entryLines (entries : List (String × Literal)) : List Line := entries.map fun e => .entry e.1 e.2

/-- A part up to its entries. -/
def Part.head (p : Part) : List Line := p.lead ++ [.header p.name]

def Part.lines (p : Part) : List Line := p.head ++ entryLines p.entries

/-- The lines of all parts. -/
def partLines (parts : List Part) : List Line := parts.flatMap Part.lines

/-- A comment or a blank line. -/
def Line.Loose : Line → Prop
  | .comment s => ∀ b ∈ utf8 s, ((b = 9 ∨ 0x20 ≤ b) ∧ b ≠ 0x7F) ∧ b ≠ quote
  | .blank => True
  | .header _ => False
  | .entry _ _ => False

/-- Names and keys are bare and distinct. -/
structure Tidy (parts : List Part) : Prop where
  lead : ∀ p ∈ parts, ∀ l ∈ p.lead, l.Loose
  names : (parts.map Part.name).Nodup
  bareName : ∀ p ∈ parts, Bare p.name
  keys : ∀ p ∈ parts, (p.entries.map Prod.fst).Nodup
  bareKey : ∀ p ∈ parts, ∀ e ∈ p.entries, Bare e.1

/-- All values are plain. -/
def Part.Plain (p : Part) : Prop := ∀ e ∈ p.entries, e.2.Plain

/-! ### The tables -/

/-- The entries of a part as they are read. -/
def Part.table (p : Part) : Entries := (p.entries.map fun e => (e.1, e.2.value)).reverse

theorem Part.lookup_table (p : Part) (h : (p.entries.map Prod.fst).Nodup) (key : String) :
    p.table.lookup key = (p.entries.lookup key).map Literal.value := by
  rw [Part.table, lookup_reverse]
  · exact lookup_map _ _ _
  · rw [List.map_map]
    exact h

theorem foldl_entryLines (entries : List (String × Literal)) (name : String) (old : Entries) (st : Sections) :
    (entryLines entries).foldl Sections.extend ((name, old) :: st) =
      (name, (entries.map fun e => (e.1, e.2.value)).reverse ++ old) :: st := by
  induction entries generalizing old with
  | nil => rfl
  | cons e entries ih =>
    show (entryLines entries).foldl Sections.extend ((name, (e.1, e.2.value) :: old) :: st) = _
    rw [ih, List.map_cons, List.reverse_cons, List.append_assoc]
    rfl

theorem foldl_loose {lead : List Line} (h : ∀ l ∈ lead, l.Loose) (st : Sections) :
    lead.foldl Sections.extend st = st := by
  induction lead with
  | nil => rfl
  | cons l lead ih =>
    obtain ⟨hl, hlead⟩ := List.forall_mem_cons.mp h
    have hsame : st.extend l = st := by
      cases l with
      | comment s => cases st <;> rfl
      | blank => cases st <;> rfl
      | header name => exact hl.elim
      | entry key value => exact hl.elim
    rw [List.foldl_cons, hsame]
    exact ih hlead

theorem foldl_head {p : Part} (h : ∀ l ∈ p.lead, l.Loose) (st : Sections) :
    p.head.foldl Sections.extend st = (p.name, []) :: st := by
  rw [Part.head, List.foldl_append, foldl_loose h]
  cases st <;> rfl

theorem foldl_part {p : Part} (h : ∀ l ∈ p.lead, l.Loose) (st : Sections) :
    p.lines.foldl Sections.extend st = (p.name, p.table) :: st := by
  rw [Part.lines, List.foldl_append, foldl_head h, foldl_entryLines, List.append_nil]
  rfl

theorem foldl_parts {parts : List Part} (h : ∀ p ∈ parts, ∀ l ∈ p.lead, l.Loose) (st : Sections) :
    (partLines parts).foldl Sections.extend st = (parts.map fun p => (p.name, p.table)).reverse ++ st := by
  induction parts generalizing st with
  | nil => rfl
  | cons p parts ih =>
    obtain ⟨hp, hparts⟩ := List.forall_mem_cons.mp h
    rw [partLines, List.flatMap_cons, List.foldl_append, foldl_part hp]
    show (partLines parts).foldl Sections.extend _ = _
    rw [ih hparts, List.map_cons, List.reverse_cons, List.append_assoc]
    rfl

/-! ### Well-formed parts -/

theorem wellFormed_append {st : Sections} {lines lines' : List Line} :
    WellFormed st (lines ++ lines') ↔
      WellFormed st lines ∧ WellFormed (lines.foldl Sections.extend st) lines' := by
  induction lines generalizing st with
  | nil => exact (and_iff_right trivial).symm
  | cons l lines ih =>
    show Fits st l ∧ WellFormed (st.extend l) (lines ++ lines') ↔ _
    rw [ih, ← and_assoc]
    rfl

theorem wellFormed_loose {lead : List Line} (h : ∀ l ∈ lead, l.Loose) (st : Sections) :
    WellFormed st lead := by
  induction lead generalizing st with
  | nil => trivial
  | cons l lead ih =>
    obtain ⟨hl, hlead⟩ := List.forall_mem_cons.mp h
    refine ⟨?_, ih hlead _⟩
    cases l with
    | comment s =>
      cases st with
      | nil => exact fun b hb => (hl b hb).1
      | cons s st => exact fun b hb => (hl b hb).1
    | blank => cases st <;> trivial
    | header name => exact hl.elim
    | entry key value => exact hl.elim

theorem wellFormed_entryLines {entries : List (String × Literal)} (hkeys : (entries.map Prod.fst).Nodup)
    (hbare : ∀ e ∈ entries, Bare e.1) (hplain : ∀ e ∈ entries, e.2.Plain) {name : String} {old : Entries}
    (hnew : ∀ e ∈ entries, old.lookup e.1 = none) (st : Sections) :
    WellFormed ((name, old) :: st) (entryLines entries) := by
  induction entries generalizing old with
  | nil => trivial
  | cons e entries ih =>
    obtain ⟨hfresh, hkeys⟩ := List.nodup_cons.mp hkeys
    obtain ⟨hbare, hbares⟩ := List.forall_mem_cons.mp hbare
    obtain ⟨hplain, hplains⟩ := List.forall_mem_cons.mp hplain
    obtain ⟨hnew, hnews⟩ := List.forall_mem_cons.mp hnew
    refine ⟨⟨hbare, hnew, hplain⟩, ih hkeys hbares hplains ?_⟩
    intro e' he'
    have hne : e'.1 ≠ e.1 := by
      intro heq
      exact hfresh (heq ▸ List.mem_map_of_mem he')
    rw [List.lookup_cons, beq_eq_false_iff_ne.mpr hne]
    exact hnews e' he'

/-- The header of a part fits behind other parts. -/
theorem wellFormed_head {p : Part} (hlead : ∀ l ∈ p.lead, l.Loose) (hbare : Bare p.name) {st : Sections}
    (hnew : st.lookup p.name = none) : WellFormed st p.head := by
  rw [Part.head, wellFormed_append, foldl_loose hlead]
  refine ⟨wellFormed_loose hlead st, ?_, trivial⟩
  cases st <;> exact ⟨hbare, hnew⟩

theorem Tidy.sublist {parts parts' : List Part} (h : Tidy parts') (hsub : parts.Sublist parts') :
    Tidy parts where
  lead := fun p hp => h.lead p (hsub.subset hp)
  names := (hsub.map Part.name).nodup h.names
  bareName := fun p hp => h.bareName p (hsub.subset hp)
  keys := fun p hp => h.keys p (hsub.subset hp)
  bareKey := fun p hp => h.bareKey p (hsub.subset hp)

theorem wellFormed_parts {parts : List Part} (h : Tidy parts) (hplain : ∀ p ∈ parts, p.Plain) {st : Sections}
    (hnew : ∀ p ∈ parts, st.lookup p.name = none) : WellFormed st (partLines parts) := by
  induction parts generalizing st with
  | nil => trivial
  | cons p parts ih =>
    have hp : p ∈ p :: parts := List.mem_cons_self
    have hlead := h.lead p hp
    obtain ⟨hfresh, -⟩ := List.nodup_cons.mp h.names
    rw [partLines, List.flatMap_cons, wellFormed_append, foldl_part hlead, Part.lines, wellFormed_append,
      foldl_head hlead]
    refine ⟨⟨wellFormed_head hlead (h.bareName p hp) (hnew p hp), ?_⟩, ?_⟩
    · exact wellFormed_entryLines (h.keys p hp) (h.bareKey p hp) (hplain p hp) (fun _ _ => rfl) st
    · refine ih (h.sublist (List.sublist_cons_self p parts)) (List.forall_mem_cons.mp hplain).2 ?_
      intro p' hp'
      have hne : p'.name ≠ p.name := by
        intro heq
        exact hfresh (heq ▸ List.mem_map_of_mem hp')
      rw [List.lookup_cons, beq_eq_false_iff_ne.mpr hne]
      exact hnew p' (List.mem_cons_of_mem p hp')

theorem Part.keyed {p : Part} (hlead : ∀ l ∈ p.lead, l.Loose) (hbare : Bare p.name)
    (hkeys : ∀ e ∈ p.entries, Bare e.1) : ∀ l ∈ p.lines, l.Keyed := by
  intro l hl
  rcases List.mem_append.mp hl with hl | hl
  · rcases List.mem_append.mp hl with hl | hl
    · have hloose := hlead l hl
      cases l with
      | comment s => exact fun b hb => (hloose b hb).2
      | blank => trivial
      | header name => exact hloose.elim
      | entry key value => exact hloose.elim
    · obtain rfl := List.mem_singleton.mp hl
      exact hbare
  · obtain ⟨e, he, rfl⟩ := List.mem_map.mp hl
    exact hkeys e he

/-! ### One entry -/

theorem lookup_parts {parts : List Part} (h : Tidy parts) {p : Part} (hp : p ∈ parts) :
    ((partLines parts).foldl Sections.extend []).lookup p.name = some p.table := by
  have hnames : (List.map Prod.fst (parts.map fun p => (p.name, p.table))).Nodup := by
    rw [List.map_map]
    exact h.names
  rw [foldl_parts h.lead, List.append_nil, lookup_reverse hnames]
  exact lookup_of_mem hnames (List.mem_map_of_mem (f := fun p : Part => (p.name, p.table)) hp)

theorem lookup_parts_of_new {parts : List Part} (h : Tidy parts) {name : String}
    (hnew : name ∉ parts.map Part.name) : ((partLines parts).foldl Sections.extend []).lookup name = none := by
  rw [foldl_parts h.lead, List.append_nil]
  refine lookup_eq_none_of_new ?_
  rw [List.map_reverse, List.mem_reverse, List.map_map]
  exact hnew

section Entry

variable {before behind : List Part} {p : Part} {es es' : List (String × Literal)} {e : String × Literal}

theorem partLines_split (hentries : p.entries = es ++ e :: es') :
    partLines (before ++ p :: behind) =
      (partLines before ++ (p.head ++ entryLines es)) ++
        .entry e.1 e.2 :: (entryLines es' ++ partLines behind) := by
  simp [partLines, Part.lines, entryLines, hentries]

/-- The lines before an entry are well formed and leave its table open. -/
theorem Tidy.expects (h : Tidy (before ++ p :: behind)) (hentries : p.entries = es ++ e :: es')
    (hbefore : ∀ p ∈ before, p.Plain) (hes : ∀ e ∈ es, e.2.Plain) :
    Expects (partLines before ++ (p.head ++ entryLines es)) p.name e.1 := by
  have hmem : p ∈ before ++ p :: behind := List.mem_append_right before List.mem_cons_self
  have hlead := h.lead p hmem
  have htidy : Tidy before := h.sublist (List.sublist_append_left before _)
  have hkeys := h.keys p hmem
  have hbare := h.bareKey p hmem
  have hnames := h.names
  rw [hentries, List.map_append, List.map_cons, List.nodup_append] at hkeys
  rw [hentries, List.forall_mem_append, List.forall_mem_cons] at hbare
  rw [List.map_append, List.map_cons, List.nodup_append] at hnames
  refine ⟨?_, hbare.2.1, ?_⟩
  · rw [wellFormed_append, wellFormed_append, foldl_head hlead]
    refine ⟨wellFormed_parts htidy hbefore fun _ _ => rfl, ?_, ?_⟩
    · refine wellFormed_head hlead (h.bareName p hmem) (lookup_parts_of_new htidy ?_)
      exact fun hin => hnames.2.2 p.name hin p.name List.mem_cons_self rfl
    · exact wellFormed_entryLines hkeys.1 hbare.1 hes (fun _ _ => rfl) _
  · rw [List.foldl_append, List.foldl_append, foldl_head hlead, foldl_entryLines, List.append_nil]
    refine ⟨_, _, rfl, lookup_eq_none_of_new ?_⟩
    intro hin
    rw [List.map_reverse, List.mem_reverse, List.map_map] at hin
    exact hkeys.2.2 e.1 hin e.1 List.mem_cons_self rfl

theorem Tidy.keyed (h : Tidy (before ++ p :: behind)) (hentries : p.entries = es ++ e :: es') :
    ∀ l ∈ entryLines es' ++ partLines behind, l.Keyed := by
  have hbare := h.bareKey p (List.mem_append_right before List.mem_cons_self)
  rw [hentries, List.forall_mem_append, List.forall_mem_cons] at hbare
  refine List.forall_mem_append.mpr ⟨?_, ?_⟩
  · intro l hl
    obtain ⟨e', he', rfl⟩ := List.mem_map.mp hl
    exact hbare.2.2 e' he'
  · intro l hl
    obtain ⟨p', hp', hl⟩ := List.mem_flatMap.mp hl
    have hmem : p' ∈ before ++ p :: behind := List.mem_append_right before (List.mem_cons_of_mem p hp')
    exact Part.keyed (h.lead p' hmem) (h.bareName p' hmem) (h.bareKey p' hmem) l hl

end Entry

/-! ### Reading -/

variable {parseStr : Text → Option Entries}

/-- **Plain documents** are read with the values they were printed with. -/
theorem ReadsToml.parts (hreads : ReadsToml parseStr) {parts : List Part} (h : Tidy parts)
    (hplain : ∀ p ∈ parts, p.Plain) :
    ∃ doc, parseStr (documentText (partLines parts)) = some doc ∧
      ∀ p ∈ parts, ∃ table, doc.lookup p.name = some (.table table) ∧
        ∀ key, table.lookup key = (p.entries.lookup key).map Literal.value := by
  obtain ⟨doc, hparse, hdoc⟩ := hreads.plain _ (wellFormed_parts h hplain fun _ _ => rfl)
  refine ⟨doc, hparse, ?_⟩
  intro p hp
  obtain ⟨table, htable, hkeys⟩ := hdoc p.name p.table (lookup_parts h hp)
  exact ⟨table, htable, fun key => (hkeys key).trans (p.lookup_table (h.keys p hp) key)⟩

/-- **Other documents**: where one is accepted, some value that is not plain is not read as it was. -/
theorem ReadsToml.parts_not_plain (hreads : ReadsToml parseStr) {parts : List Part} (h : Tidy parts)
    (hplain : ¬ ∀ p ∈ parts, p.Plain) {doc : Entries}
    (hparse : parseStr (documentText (partLines parts)) = some doc) :
    ∃ p ∈ parts, ∃ e ∈ p.entries, ¬ e.2.Plain ∧
      ∃ value, valueAt doc p.name e.1 = some value ∧ e.2.ReadAs value := by
  obtain ⟨before, p, behind, rfl, hbefore, hp⟩ := exists_first_not hplain
  obtain ⟨es, e, es', hentries, hes, he⟩ := exists_first_not hp
  have hmem : e ∈ p.entries := by
    rw [hentries]
    exact List.mem_append_right es List.mem_cons_self
  refine ⟨p, List.mem_append_right before List.mem_cons_self, e, hmem, he, ?_⟩
  rw [partLines_split hentries] at hparse
  exact hreads.readAs (h.expects hentries hbefore hes) (h.keyed hentries) he hparse

end LuspUpload.Lib.Toml
