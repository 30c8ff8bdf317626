import TestBeam.Proofs.Toml.Statements

/-!
# Documents of entries read back

A written configuration is a few fields, then one table with an inner table of settings for each entry.
The statements of such a document are put together to the tree that was written.
-/

namespace TestBeam.Toml

/-! ## Sections -/

def Section.statements (s : Section) : List Statement :=
  .header s.header :: s.assignments.map .assign

theorem groupSections_assign (assignments : List Assignment) (statements : List Statement) :
    groupSections (assignments.map .assign ++ statements) =
      (assignments ++ (groupSections statements).1, (groupSections statements).2) := by
  induction assignments with
  | nil => rfl
  | cons a assignments ih => simp [groupSections, ih]

theorem groupSections_statements (assignments : List Assignment) (sections : List Section) :
    groupSections (assignments.map .assign ++ sections.flatMap Section.statements) =
      (assignments, sections) := by
  induction sections generalizing assignments with
  | nil =>
    rw [groupSections_assign]
    simp [groupSections]
  | cons s sections ih =>
    rw [groupSections_assign, List.flatMap_cons, Section.statements, List.cons_append, groupSections,
      ih s.assignments]
    simp

/-! ## Fields -/

theorem assignAll_plain (fields : Fields) (pairs : List (String × Toml))
    (hnew : ∀ p ∈ pairs, fields.lookup p.1 = none) (hdistinct : (pairs.map Prod.fst).Nodup) :
    assignAll fields (pairs.map fun p => ⟨[p.1], p.2⟩) =
      some (fields ++ pairs.map fun p => (p.1, .value p.2)) := by
  induction pairs generalizing fields with
  | nil => simp [assignAll]
  | cons p pairs ih =>
    rw [List.map_cons] at hdistinct
    obtain ⟨hfresh, htail⟩ := List.nodup_cons.mp hdistinct
    have hassign : assign fields ⟨[p.1], p.2⟩ = some (fields ++ [(p.1, .value p.2)]) := by
      simp [assign, within, addField, hnew p (by simp)]
    have ih := ih (fields ++ [(p.1, .value p.2)]) (fun q hq => by
      have hne : q.1 ≠ p.1 := by
        rintro heq
        exact hfresh (heq ▸ List.mem_map_of_mem hq)
      have hlookup := hnew q (by simp [hq])
      rw [List.lookup_append, hlookup]
      simp [List.lookup_cons, beq_false_of_ne hne]) htail
    unfold assignAll at ih ⊢
    simp [hassign, ih]

/-! ## Entries -/

structure EntryTable where
  name : String
  settings : List (String × Toml)

namespace EntryTable

def settingAssignments (t : EntryTable) : List Assignment :=
  t.settings.map fun p => ⟨[p.1], p.2⟩

/-- The header and the name, then the header of the settings and the settings. -/
def sections (kind : HeaderKind) (title : String) (t : EntryTable) : List Section :=
  [⟨⟨kind, [title]⟩, [⟨["name"], .string t.name⟩]⟩,
    ⟨⟨.table, [title, "settings"]⟩, t.settingAssignments⟩]

def fields (t : EntryTable) : Fields :=
  [("name", .value (.string t.name)),
    ("settings", .table .header (t.settings.map fun p => (p.1, .value p.2)))]

def Distinct (t : EntryTable) : Prop :=
  (t.settings.map Prod.fst).Nodup

variable {fields : Fields} {title : String} {t : EntryTable}

theorem assignAll_name (name : String) :
    assignAll [] [⟨["name"], .string name⟩] = some [("name", .value (.string name))] :=
  rfl

theorem addTable_settings (h : t.Distinct) (origin : Origin) :
    addTable "settings" t.settingAssignments origin [("name", .value (.string t.name))] =
      some t.fields := by
  have hassign := assignAll_plain [] t.settings (by simp) h
  have hnew : List.lookup "settings" [("name", Node.value (.string t.name))] = none := by
    simp [NameMap.lookup_cons_eq_if]
  unfold addTable settingAssignments
  simp only [hassign, hnew]
  simp [EntryTable.fields]

theorem lookup_last (hnew : fields.lookup title = none) (node : Node) :
    (fields ++ [(title, node)]).lookup title = some node := by
  simp [List.lookup_append, hnew]

theorem replaceField_last (hnew : fields.lookup title = none) (old new : Node) :
    replaceField title new (fields ++ [(title, old)]) = fields ++ [(title, new)] := by
  induction fields with
  | nil => simp [replaceField]
  | cons p fields ih =>
    rw [NameMap.lookup_cons_eq_if] at hnew
    split at hnew
    · simp at hnew
    · rename_i hne
      simp [replaceField, Ne.symm hne, ih hnew]

theorem addSections_table (h : t.Distinct) (hnew : fields.lookup title = none) :
    (t.sections .table title).foldlM addSection fields =
      some (fields ++ [(title, .table .header t.fields)]) := by
  have hfirst : addSection fields ⟨⟨.table, [title]⟩, [⟨["name"], .string t.name⟩]⟩ =
      some (fields ++ [(title, .table .header [("name", .value (.string t.name))])]) := by
    simp [addSection, within, addTable, hnew, assignAll_name]
  have hsecond : addSection (fields ++ [(title, .table .header [("name", .value (.string t.name))])])
      ⟨⟨.table, [title, "settings"]⟩, t.settingAssignments⟩ =
      some (fields ++ [(title, .table .header t.fields)]) := by
    simp [addSection, within, lookup_last hnew, addTable_settings h, replaceField_last hnew]
  simp [sections, hfirst, hsecond]

theorem addSections_element (h : t.Distinct) (hnew : fields.lookup title = none)
    (before : List Fields) (start : Fields)
    (hstart : (before = [] ∧ start = fields) ∨ start = fields ++ [(title, .elements before)]) :
    (t.sections .element title).foldlM addSection start =
      some (fields ++ [(title, .elements (before ++ [t.fields]))]) := by
  have hfirst : addSection start ⟨⟨.element, [title]⟩, [⟨["name"], .string t.name⟩]⟩ =
      some (fields ++
        [(title, .elements (before ++ [[("name", .value (.string t.name))]]))]) := by
    rcases hstart with ⟨rfl, rfl⟩ | rfl
    · simp [addSection, within, addElement, hnew, assignAll_name]
    · simp [addSection, within, addElement, lookup_last hnew, assignAll_name,
        replaceField_last hnew]
  have hsecond : addSection (fields ++
        [(title, .elements (before ++ [[("name", .value (.string t.name))]]))])
      ⟨⟨.table, [title, "settings"]⟩, t.settingAssignments⟩ =
      some (fields ++ [(title, .elements (before ++ [t.fields]))]) := by
    simp [addSection, within, lookup_last hnew, addTable_settings h, replaceField_last hnew]
  simp [sections, hfirst, hsecond]

theorem addSections_elements {first : EntryTable} {tables : List EntryTable}
    (h : ∀ t ∈ first :: tables, t.Distinct) (hnew : fields.lookup title = none)
    (before : List Fields) (start : Fields)
    (hstart : (before = [] ∧ start = fields) ∨ start = fields ++ [(title, .elements before)]) :
    ((first :: tables).flatMap (sections .element title)).foldlM addSection start =
      some (fields ++ [(title, .elements (before ++ (first :: tables).map EntryTable.fields))]) := by
  induction tables generalizing first before start with
  | nil =>
    have hlast := addSections_element (h first (by simp)) hnew before start hstart
    simpa using hlast
  | cons next tables ih =>
    have hfirst := addSections_element (h first (by simp)) hnew before start hstart
    have htail : ∀ t ∈ next :: tables, t.Distinct := fun t ht => h t (List.mem_cons_of_mem _ ht)
    have ih := ih htail (before ++ [first.fields]) _ (.inr rfl)
    rw [List.flatMap_cons, List.foldlM_append, hfirst, Option.bind_eq_bind, Option.bind_some, ih]
    simp

end EntryTable

/-! ## Documents -/

/-- Plain fields, an optional table and two lists of tables, which start in this order. -/
structure EntriesDocument where
  root : List (String × Toml)
  global : Option EntryTable
  modules : List EntryTable
  detectors : List EntryTable

namespace EntriesDocument

def sections (d : EntriesDocument) : List Section :=
  d.global.toList.flatMap (EntryTable.sections .table "global") ++
    d.modules.flatMap (EntryTable.sections .element "modules") ++
    d.detectors.flatMap (EntryTable.sections .element "detectors")

/-- A list of tables without elements has no field. -/
def listField (title : String) (tables : List EntryTable) : Fields :=
  if tables.isEmpty then [] else [(title, .elements (tables.map EntryTable.fields))]

def fields (d : EntriesDocument) : Fields :=
  d.root.map (fun p => (p.1, .value p.2)) ++
    d.global.toList.map (fun t => ("global", .table .header t.fields)) ++
    listField "modules" d.modules ++ listField "detectors" d.detectors

structure Distinct (d : EntriesDocument) : Prop where
  root : (d.root.map Prod.fst).Nodup
  tables : ∀ t ∈ d.global.toList ++ d.modules ++ d.detectors, t.Distinct
  global : "global" ∉ d.root.map Prod.fst
  modules : d.modules ≠ [] → "modules" ∉ d.root.map Prod.fst
  detectors : d.detectors ≠ [] → "detectors" ∉ d.root.map Prod.fst

theorem lookup_eq_none_of_not_mem {α : Type} {key : String} {pairs : List (String × α)}
    (h : key ∉ pairs.map Prod.fst) : pairs.lookup key = none := by
  induction pairs with
  | nil => rfl
  | cons p pairs ih =>
    simp only [List.map_cons, List.mem_cons, not_or] at h
    rw [NameMap.lookup_cons_eq_if, if_neg h.1, ih h.2]

theorem addSections_list (title : String) (tables : List EntryTable) {fields : Fields}
    (h : ∀ t ∈ tables, t.Distinct) (hnew : tables ≠ [] → fields.lookup title = none) :
    (tables.flatMap (EntryTable.sections .element title)).foldlM addSection fields =
      some (fields ++ listField title tables) := by
  cases tables with
  | nil => simp [listField]
  | cons first tables =>
    have hadd := EntryTable.addSections_elements h (hnew (by simp)) [] fields (.inl ⟨rfl, rfl⟩)
    simpa [listField] using hadd

theorem assemble_sections {d : EntriesDocument} (h : d.Distinct) :
    assemble (d.root.map fun p => ⟨[p.1], p.2⟩) d.sections = some d.fields := by
  have hroot := assignAll_plain [] d.root (by simp) h.root
  have hkeys (key : String) (hkey : key ∉ d.root.map Prod.fst) :
      (d.root.map fun p => (p.1, Node.value p.2)).lookup key = none :=
    lookup_eq_none_of_not_mem (by simpa using hkey)
  have hglobal : (d.global.toList.flatMap (EntryTable.sections .table "global")).foldlM addSection
      (d.root.map fun p => (p.1, Node.value p.2)) =
      some (d.root.map (fun p => (p.1, .value p.2)) ++
        d.global.toList.map fun t => ("global", .table .header t.fields)) := by
    cases hg : d.global with
    | none => simp
    | some t =>
      have hadd := EntryTable.addSections_table (h.tables t (by simp [hg])) (hkeys _ h.global)
      simpa using hadd
  -- Each list starts behind fields of other names, so its first element finds none.
  have hother (key : String) (hkey : key ∉ d.root.map Prod.fst) (hne : key ≠ "global") :
      (d.root.map (fun p => (p.1, Node.value p.2)) ++
        d.global.toList.map fun t => ("global", Node.table .header t.fields)).lookup key = none := by
    rw [List.lookup_append, hkeys key hkey]
    cases d.global with
    | none => rfl
    | some t => simp [NameMap.lookup_cons_eq_if, hne]
  have hlist : (listField "modules" d.modules).lookup "detectors" = none := by
    unfold listField
    split <;> simp [NameMap.lookup_cons_eq_if]
  have hmodules := addSections_list "modules" d.modules (fun t ht => h.tables t (by simp [ht]))
    fun hne => hother "modules" (h.modules hne) (by decide)
  have hfree (hne : d.detectors ≠ []) :
      (d.root.map (fun p => (p.1, Node.value p.2)) ++
        d.global.toList.map (fun t => ("global", Node.table .header t.fields)) ++
        listField "modules" d.modules).lookup "detectors" = none := by
    rw [List.lookup_append, hother "detectors" (h.detectors hne) (by decide), hlist]
    rfl
  have hdetectors := addSections_list "detectors" d.detectors
    (fun t ht => h.tables t (by simp [ht])) hfree
  rw [List.nil_append] at hroot
  unfold assemble
  simp only [hroot, Option.bind_some, sections, List.foldlM_append, hglobal,
    Option.bind_eq_bind, hmodules, hdetectors]
  rfl

end EntriesDocument

/-! ## Values -/

theorem toFields_eq_map (fields : Fields) :
    toFields fields = fields.map fun p => (p.1, toValue p.2) := by
  induction fields with
  | nil => rfl
  | cons p fields ih => rw [toFields, ih, List.map_cons]

theorem toElements_eq_map (elements : List Fields) :
    toElements elements = elements.map fun fields => .table (toFields fields) := by
  induction elements with
  | nil => rfl
  | cons fields elements ih => rw [toElements, ih, List.map_cons]

theorem revealFields_scalar {fields : List (String × Toml)} (h : ∀ p ∈ fields, p.2.IsScalar) :
    revealFields fields = some fields := by
  induction fields with
  | nil => rfl
  | cons p fields ih =>
    obtain ⟨key, value⟩ := p
    have hvalue : revealDates value = some value := by
      have hscalar := h (key, value) (by simp)
      cases value with
      | array items => exact absurd hscalar id
      | table fields => exact absurd hscalar id
      | datetime d => exact absurd hscalar id
      | string s => rfl
      | integer i => rfl
      | float x => rfl
      | boolean b => rfl
    unfold revealFields
    rw [hvalue, ih fun q hq => h q (by simp [hq])]
    rfl

end TestBeam.Toml
