import TestBeam.Proofs.Entry.Normal
import TestBeam.Proofs.Result
import TestBeam.Proofs.Toml.Assembly

/-!
# Configurations read back

The text of a configuration spells the statements of its document, which are put together to the fields
that the configuration is read from.
-/

namespace TestBeam

/-! ## Settings -/

namespace Setting

variable {v : Setting}

theorem toValue_isScalar (h : v.normalized = v) : v.toValue.IsScalar := by
  cases v with
  | text s => trivial
  | integer i => trivial
  | float x => exact isFinite_of_normalized h
  | boolean b => trivial
  | quantity q => trivial

theorem ofValue_toValue (h : v.normalized = v) : ofValue? v.toValue = some v := by
  cases v with
  | text s => exact congrArg some h
  | integer i => rfl
  | float x => rfl
  | boolean b => rfl
  | quantity q => exact congrArg some h

end Setting

/-! ## Entries -/

namespace Entry

def table (entry : Entry) : Toml.EntryTable where
  name := entry.name
  settings := entry.settings.map fun p => (p.1, p.2.toValue)

variable {entry : Entry}

theorem Normal.table_distinct (h : entry.Normal) : entry.table.Distinct := by
  have hkeys := h.keys
  unfold Toml.EntryTable.Distinct table
  rw [List.map_map]
  exact hkeys

theorem Normal.spells_settings (h : entry.Normal) :
    Toml.Spells (entry.settings.flatMap fun p => printField p.1 p.2.toValue)
      (entry.table.settingAssignments.map .assign) := by
  have hflat : entry.table.settingAssignments.map Toml.Statement.assign =
      entry.settings.flatMap fun p => [.assign ⟨[p.1], p.2.toValue⟩] := by
    simp [table, Toml.EntryTable.settingAssignments, ← List.map_eq_flatMap]
  rw [hflat]
  refine Toml.Spells.flatMap fun p hp => Toml.spells_printField p.1 ?_
  exact (Setting.toValue_isScalar (h.settings p hp)).isPlain

theorem printSection_eq (opening title closing : String) (entry : Entry) :
    entry.printSection opening title closing =
      '\n' :: (((opening.toList ++ title.toList ++ closing.toList) ++ ['\n'] ++
        printField "name" (.string entry.name)) ++
      ('\n' :: (('[' :: (title.toList ++ '.' :: ("settings".toList ++ [']'])) ++ ['\n']) ++
        entry.settings.flatMap fun p => printField p.1 p.2.toValue))) := by
  simp [printSection]

theorem Normal.spells_section (h : entry.Normal) {kind : Toml.HeaderKind}
    {opening title closing : String} (htitle : Toml.IsBare title)
    (hheader : Toml.Spells ((opening.toList ++ title.toList ++ closing.toList) ++ ['\n'])
      [.header ⟨kind, [title]⟩]) :
    Toml.Spells (entry.printSection opening title closing)
      ((entry.table.sections kind title).flatMap Toml.Section.statements) := by
  have hname := Toml.spells_printField "name" (v := .string entry.name) trivial
  have hbare : Toml.IsBare "settings" := ⟨by decide, by decide⟩
  have hsettings := Toml.spells_inner_table htitle hbare
  have hinner := (hsettings.append h.spells_settings).blank
  have houter := ((hheader.append hname).append hinner).blank
  rw [printSection_eq]
  have hsame : entry.table.name = entry.name := rfl
  simpa [Toml.EntryTable.sections, Toml.Section.statements, hsame] using houter

end Entry

/-! ## The document of a configuration -/

namespace Configuration

def emptyField (title : String) (entries : List Entry) : List (String × Toml) :=
  if entries.isEmpty then [(title, .array [])] else []

def document (c : Configuration) : Toml.EntriesDocument where
  root := [("ignore", .array (c.ignored.map .string))] ++ emptyField "modules" c.modules ++
    emptyField "detectors" c.detectors
  global := c.global.map Entry.table
  modules := c.modules.map Entry.table
  detectors := c.detectors.map Entry.table

/-- All entries are normal, and detectors are in order. -/
structure Normal (c : Configuration) : Prop where
  entries : ∀ entry ∈ c.entries, entry.Normal
  sorted : c.Sorted

theorem Built.normal {c : Configuration} (h : c.Built) : c.Normal :=
  ⟨fun entry hentry => (h.entries_built entry hentry).normal, h.sorted⟩

variable {c : Configuration}

theorem Normal.global (h : c.Normal) {entry : Entry} (hentry : c.global = some entry) :
    entry.Normal :=
  h.entries entry (by simp [Configuration.entries, hentry])

theorem Normal.modules (h : c.Normal) {entry : Entry} (hentry : entry ∈ c.modules) :
    entry.Normal :=
  h.entries entry (by simp [Configuration.entries, hentry])

theorem Normal.detectors (h : c.Normal) {entry : Entry} (hentry : entry ∈ c.detectors) :
    entry.Normal :=
  h.entries entry (by simp [Configuration.entries, hentry])

theorem spells_printEmpty (title : String) (entries : List Entry) :
    Toml.Spells (printEmpty title entries)
      ((emptyField title entries).map fun p => .assign ⟨[p.1], p.2⟩) := by
  unfold printEmpty emptyField
  split
  · exact Toml.spells_printField title (v := .array []) (by simp [Toml.IsPlain])
  · exact Toml.spells_nil

theorem spells_elements {title : String} (htitle : Toml.IsBare title) {entries : List Entry}
    (h : ∀ entry ∈ entries, entry.Normal) :
    Toml.Spells (entries.flatMap (Entry.printSection "[[" title "]]"))
      (((entries.map Entry.table).flatMap (Toml.EntryTable.sections .element title)).flatMap
        Toml.Section.statements) := by
  have hheader : Toml.Spells (("[[".toList ++ title.toList ++ "]]".toList) ++ ['\n'])
      [.header ⟨.element, [title]⟩] := by
    simpa using Toml.spells_element htitle
  have hall := Toml.Spells.flatMap fun entry hentry => (h entry hentry).spells_section htitle hheader
  simpa [List.flatMap_map, List.flatMap_assoc] using hall

theorem Normal.spells_print (h : c.Normal) :
    Toml.Spells c.print.toList
      (c.document.root.map (fun p => .assign ⟨[p.1], p.2⟩) ++
        c.document.sections.flatMap Toml.Section.statements) := by
  have hignored : Toml.Spells (printField "ignore" (.array (c.ignored.map .string)))
      [.assign ⟨["ignore"], .array (c.ignored.map .string)⟩] := by
    apply Toml.spells_printField "ignore"
    intro v hv
    obtain ⟨name, -, rfl⟩ := List.mem_map.mp hv
    trivial
  have hroot := (hignored.append (spells_printEmpty "modules" c.modules)).append
    (spells_printEmpty "detectors" c.detectors)
  have hglobal : Toml.Spells (c.global.toList.flatMap (Entry.printSection "[" "global" "]"))
      ((c.document.global.toList.flatMap (Toml.EntryTable.sections .table "global")).flatMap
        Toml.Section.statements) := by
    cases hentry : c.global with
    | none => simpa [document, hentry] using Toml.spells_nil
    | some entry =>
      have hbare : Toml.IsBare "global" := ⟨by decide, by decide⟩
      have hheader : Toml.Spells (("[".toList ++ "global".toList ++ "]".toList) ++ ['\n'])
          [.header ⟨.table, ["global"]⟩] := Toml.spells_table hbare
      simpa [document, hentry] using (h.global hentry).spells_section hbare hheader
  have hmodules := spells_elements (⟨by decide, by decide⟩ : Toml.IsBare "modules")
    fun entry hentry => h.modules hentry
  have hdetectors := spells_elements (⟨by decide, by decide⟩ : Toml.IsBare "detectors")
    fun entry hentry => h.detectors hentry
  have hall := ((hroot.append hglobal).append hmodules).append hdetectors
  unfold print
  rw [String.toList_ofList]
  simpa [document, Toml.EntriesDocument.sections] using hall

/-! ## The fields of the document -/

theorem Normal.document_distinct (h : c.Normal) : c.document.Distinct := by
  have htables : ∀ t ∈ c.document.global.toList ++ c.document.modules ++ c.document.detectors,
      t.Distinct := by
    intro t ht
    have hentry : ∃ entry ∈ c.entries, entry.table = t := by
      simpa [document, Configuration.entries, or_and_right, exists_or, or_assoc] using ht
    obtain ⟨entry, hmem, rfl⟩ := hentry
    exact (h.entries entry hmem).table_distinct
  have hroot : c.document.root.map Prod.fst =
      ["ignore"] ++ (if c.modules.isEmpty then ["modules"] else []) ++
        (if c.detectors.isEmpty then ["detectors"] else []) := by
    unfold document emptyField
    simp only [List.map_append]
    split <;> split <;> rfl
  refine ⟨?_, htables, ?_, ?_, ?_⟩
  · rw [hroot]
    split <;> split <;> decide
  · rw [hroot]
    split <;> split <;> decide
  · intro hmodules
    have hne : c.modules.isEmpty = false := by simpa [document] using hmodules
    rw [hroot, hne, if_neg Bool.false_ne_true]
    split <;> decide
  · intro hdetectors
    have hne : c.detectors.isEmpty = false := by simpa [document] using hdetectors
    rw [hroot, hne, if_neg Bool.false_ne_true]
    split <;> decide

theorem Normal.parse_print (h : c.Normal) :
    Toml.parse? c.print = some (Toml.toFields c.document.fields) := by
  have hmark : Toml.skipMark c.print.toList = c.print.toList := by
    unfold print
    rw [String.toList_ofList]
    rfl
  have hstatements := h.spells_print.document
  have hassemble := Toml.EntriesDocument.assemble_sections h.document_distinct
  have hroot : c.document.root.map (fun p => Toml.Statement.assign ⟨[p.1], p.2⟩) =
      (c.document.root.map fun p => (⟨[p.1], p.2⟩ : Toml.Assignment)).map .assign := by
    simp
  rw [hroot] at hstatements
  unfold Toml.parse?
  simp only [hmark, hstatements, Option.bind_eq_bind, Option.bind_some,
    Toml.groupSections_statements, hassemble]
  rfl

end Configuration

/-! ## Reading the fields -/

namespace Entry

variable {entry : Entry}

/-- An entry whose settings are still document values, before they are read. -/
def asDocument (entry : Entry) : EntryDocument :=
  ⟨entry.name, entry.table.settings⟩

theorem Normal.ofValue_fields (h : entry.Normal) :
    EntryDocument.ofValue (.table (Toml.toFields entry.table.fields)) = some entry.asDocument := by
  have hfields : Toml.toFields entry.table.fields =
      [("name", .string entry.name), ("settings", .table entry.table.settings)] := by
    simp [Toml.toFields_eq_map, Toml.EntryTable.fields, Toml.toValue, table, Function.comp_def]
  have hscalar : ∀ p ∈ entry.table.settings, p.2.IsScalar := by
    intro p hp
    obtain ⟨q, hq, rfl⟩ := List.mem_map.mp hp
    exact Setting.toValue_isScalar (h.settings q hq)
  rw [hfields]
  change (EntryDocument.settingsOf (.table entry.table.settings)).map _ = _
  rw [EntryDocument.settingsOf, Toml.revealFields_scalar hscalar]
  rfl

theorem Normal.toEntry_asDocument (h : entry.Normal) : entry.asDocument.toEntry = .ok entry := by
  have hsettings : entry.table.settings.mapM (EntryDocument.setting entry.name) =
      .ok (entry.settings.map id) := by
    apply mapM_map_pure
    intro p hp
    unfold EntryDocument.setting
    rw [Setting.ofValue_toValue (h.settings p hp)]
    rfl
  unfold EntryDocument.toEntry
  change (entry.table.settings.mapM (EntryDocument.setting entry.name)).map _ = _
  rw [hsettings, List.map_id]
  exact congrArg Except.ok h.ofPairs_settings

end Entry

namespace Configuration

variable {c : Configuration}

/-- A configuration whose settings are still document values, before they are read. -/
def asDocument (c : Configuration) : ConfigurationDocument where
  ignored := some c.ignored
  global := c.global.map Entry.asDocument
  modules := c.modules.map Entry.asDocument
  detectors := c.detectors.map Entry.asDocument

def elements (entries : List Entry) : Toml :=
  .array (entries.map fun entry => .table (Toml.toFields entry.table.fields))

theorem lookup_ignore (c : Configuration) :
    (Toml.toFields c.document.fields).lookup "ignore" = some (.array (c.ignored.map .string)) :=
  rfl

theorem lookup_global (c : Configuration) :
    (Toml.toFields c.document.fields).lookup "global" =
      c.global.map fun entry => .table (Toml.toFields entry.table.fields) := by
  obtain ⟨global, modules, detectors, ignored⟩ := c
  cases global <;> cases modules <;> cases detectors <;> rfl

theorem lookup_lists (c : Configuration) :
    ((Toml.toFields c.document.fields).lookup "modules").getD (.array []) = elements c.modules ∧
      ((Toml.toFields c.document.fields).lookup "detectors").getD (.array []) =
        elements c.detectors := by
  obtain ⟨global, modules, detectors, ignored⟩ := c
  cases global <;> cases modules <;> cases detectors <;>
    simp [document, Toml.EntriesDocument.fields, emptyField, Toml.EntriesDocument.listField,
      Toml.toFields_eq_map, Toml.toValue, Toml.toElements_eq_map, elements, List.lookup]

theorem listOf_elements {entries : List Entry} (h : ∀ entry ∈ entries, entry.Normal) :
    Toml.listOf? EntryDocument.ofValue (elements entries) = some (entries.map Entry.asDocument) :=
  mapM_map_pure fun entry hentry => (h entry hentry).ofValue_fields

theorem Normal.ofFields_document (h : c.Normal) :
    ConfigurationDocument.ofFields (Toml.toFields c.document.fields) = some c.asDocument := by
  have hignored : (c.ignored.map Toml.string).mapM Toml.string? = some (c.ignored.map id) :=
    mapM_map_pure fun name _ => rfl
  have hglobal : (c.global.map fun entry => Toml.table (Toml.toFields entry.table.fields)).mapM
      EntryDocument.ofValue = some (c.global.map Entry.asDocument) := by
    cases hentry : c.global with
    | none => rfl
    | some entry =>
      have hvalue := (h.global hentry).ofValue_fields
      simp [hvalue]
  have hmodules := listOf_elements fun entry hentry => h.modules hentry
  have hdetectors := listOf_elements fun entry hentry => h.detectors hentry
  rw [ConfigurationDocument.ofFields, lookup_ignore, lookup_global, (lookup_lists c).1,
    (lookup_lists c).2, hglobal, hmodules, hdetectors]
  simp [Toml.listOf?, hignored, asDocument]

theorem Normal.ofDocument_asDocument (h : c.Normal) : ofDocument c.asDocument = .ok c := by
  have hglobal : c.asDocument.global.mapM EntryDocument.toEntry = .ok c.global := by
    cases hentry : c.global with
    | none => simp [asDocument, hentry, pure, Except.pure]
    | some entry =>
      have hread := (h.global hentry).toEntry_asDocument
      simp [asDocument, hentry, hread, Functor.map, Except.map]
  have hentries {entries : List Entry} (hnormal : ∀ entry ∈ entries, entry.Normal) :
      (entries.map Entry.asDocument).mapM EntryDocument.toEntry = .ok entries := by
    have hread := mapM_map_pure fun entry hentry => (hnormal entry hentry).toEntry_asDocument
    rwa [List.map_id'] at hread
  have hmodules := hentries fun entry hentry => h.modules hentry
  have hdetectors := hentries fun entry hentry => h.detectors hentry
  unfold ofDocument
  rw [hglobal]
  simp only [bind, Except.bind, asDocument, hmodules, hdetectors, pure, Except.pure,
    Option.getD_some]
  rw [setDetectors_of_sorted h.sorted]

theorem Normal.parse_print_eq (h : c.Normal) : parse c.print = .ok c := by
  unfold parse
  rw [h.parse_print, Option.bind_some, h.ofFields_document]
  exact h.ofDocument_asDocument

theorem Normal.beq_self (h : c.Normal) : (c == c) = true := by
  have hglobal : (c.global == c.global) = true := by
    cases hentry : c.global with
    | none => rfl
    | some entry => exact (h.global hentry).beq_self
  have hmodules := Entry.beq_self_of_forall fun entry hentry => (h.modules hentry).beq_self
  have hdetectors := Entry.beq_self_of_forall fun entry hentry => (h.detectors hentry).beq_self
  change (c.global == c.global && (c.modules == c.modules && (c.detectors == c.detectors &&
    c.ignored == c.ignored))) = true
  rw [hglobal, hmodules, hdetectors, beq_self_eq_true]
  rfl

/-- Every configuration that can be built is read back from its text, and equals what was written. -/
theorem parse_print_of_built (h : c.Built) : parse c.print = .ok c ∧ (c == c) = true :=
  ⟨h.normal.parse_print_eq, h.normal.beq_self⟩

/-- Names and keys that need quotes, settings of every kind, and names and keys that repeat. -/
def awkward : Configuration :=
  let start : Configuration := {}
  let global : Entry := .ofPairs "a\"b\n\\" [("", .text ""), ("\t", .text "5mm"), ("\t", .float (-0.0))]
  let modules : List Entry :=
    [.ofPairs "Ignore" [("low", .integer Int64.minValue), ("nan", .float (0 / 0)),
      ("inf", .float (-1 / 0)), ("tiny", .float 4.9e-324)], .ofPairs "Ignore" []]
  let detectors : List Entry :=
    [.ofPairs "d" [("x", .quantity ⟨1.5, some "u\x7f\r"⟩)], .ofPairs "D" [("on", .boolean true)],
      .ofPairs "d" []]
  ((start.setGlobal global).setModules modules).setDetectors detectors

theorem parse_print_of_built_awkward :
    awkward.Built ∧ parse awkward.print = .ok awkward ∧ (awkward == awkward) = true := by
  have hbuilt : awkward.Built :=
    .setDetectors (.setModules (.setGlobal .new (.ofPairs _ _)) (by simp [Entry.Built.ofPairs]))
      (by simp [Entry.Built.ofPairs])
  exact ⟨hbuilt, parse_print_of_built hbuilt⟩

end Configuration

end TestBeam
