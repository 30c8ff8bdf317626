import TestBeam.Proofs.Configuration.Document
import TestBeam.Proofs.Configuration.Plan
import TestBeam.Proofs.Configuration.Written
import TestBeam.Proofs.Executor.Blueprints
import TestBeam.Proofs.Toml.Elements

/-!
# The order of detectors

Detectors are sorted by their names, so the order in which they are given does not matter as long as each
has a name of its own: the configuration is the same, and so is all that is made from it.
-/

namespace TestBeam

/-! ## Lists in the order of names -/

section Sorted

variable {α : Type} {name : α → String} {items others : List α}

theorem eq_sortByName (hnames : (items.map name).Nodup) (hperm : others.Perm items)
    (hsorted : others.Pairwise fun a b => name a ≤ name b) : others = sortByName name items := by
  have hsame := sortByName_perm name items
  refine List.Perm.eq_of_pairwise (fun a b ha hb hab hba => ?_) hsorted
    (sortByName_ascending name items) (hperm.trans hsame.symm)
  exact List.inj_on_of_nodup_map hnames (hperm.mem_iff.mp ha) (hsame.mem_iff.mp hb)
    (String.le_antisymm hab hba)

theorem sortByName_of_perm (hnames : (items.map name).Nodup) (hperm : items.Perm others) :
    sortByName name others = sortByName name items :=
  eq_sortByName hnames ((sortByName_perm name others).trans hperm.symm) (sortByName_ascending name others)

theorem find?_name_iff (hnames : (items.map name).Nodup) {key : String} {x : α} :
    items.find? (name · == key) = some x ↔ x ∈ items ∧ name x = key := by
  constructor
  · intro h
    exact ⟨List.mem_of_find?_eq_some h, by simpa using List.find?_some h⟩
  · rintro ⟨hx, rfl⟩
    have hfound : (items.find? (name · == name x)).isSome := by
      rw [List.find?_isSome]
      exact ⟨x, hx, beq_self_eq_true (name x)⟩
    obtain ⟨y, hy⟩ := Option.isSome_iff_exists.mp hfound
    have hname : name y = name x := by simpa using List.find?_some hy
    rw [hy, List.inj_on_of_nodup_map hnames (List.mem_of_find?_eq_some hy) hx hname]

end Sorted

/-! ## The table of detectors -/

namespace DetectorTable

variable {entries others : List Entry} {table : DetectorTable}

theorem entries_eq (hnames : (entries.map Entry.name).Nodup) (h : ofEntries entries = .ok table) :
    table.detectors.map Detector.entry = sortByName Entry.name entries := by
  obtain ⟨hperm, hname⟩ := entries_perm h
  refine eq_sortByName hnames hperm (List.pairwise_map.mpr ?_)
  unfold ofEntries at h
  obtain ⟨read, -, rfl⟩ := exists_of_map_ok h
  refine (sortByName_ascending Detector.name read).imp_of_mem fun {a b} ha hb hle => ?_
  rwa [hname a ha, hname b hb] at hle

theorem names_eq (h : ofEntries entries = .ok table) :
    table.names = (table.detectors.map Detector.entry).map Entry.name := by
  unfold names
  rw [List.map_map]
  exact List.map_congr_left (entries_perm h).2

theorem names_nodup (hnames : (entries.map Entry.name).Nodup) (h : ofEntries entries = .ok table) :
    table.names.Nodup := by
  rw [names_eq h]
  exact ((entries_perm h).1.map Entry.name).nodup_iff.mpr hnames

theorem ofEntries_of_perm (hnames : (entries.map Entry.name).Nodup) (hperm : entries.Perm others)
    (h : ofEntries entries = .ok table) : ofEntries others = .ok table := by
  have hnodup := names_nodup hnames h
  unfold ofEntries at h ⊢
  obtain ⟨read, hread, rfl⟩ := exists_of_map_ok h
  obtain ⟨moved, hmoved, hsame⟩ := mapM_ok_perm hread hperm
  have hdistinct : (read.map Detector.name).Nodup :=
    ((sortByName_perm Detector.name read).map Detector.name).nodup_iff.mp hnodup
  rw [hmoved, ← sortByName_of_perm hdistinct hsame]
  rfl

theorem get?_iff (hnames : (entries.map Entry.name).Nodup) (h : ofEntries entries = .ok table)
    {key : String} {d : Detector} : table.get? key = some d ↔
      ∃ entry ∈ entries, entry.name = key ∧ Detector.ofEntry entry = .ok d := by
  have hfind : table.get? key = some d ↔ d ∈ table.detectors ∧ d.name = key :=
    find?_name_iff (names_nodup hnames h)
  rw [hfind]
  unfold ofEntries at h
  obtain ⟨read, hread, rfl⟩ := exists_of_map_ok h
  have hperm := sortByName_perm Detector.name read
  constructor
  · rintro ⟨hd, rfl⟩
    obtain ⟨entry, hentry, hofEntry⟩ := exists_of_mapM_ok hread (hperm.mem_iff.mp hd)
    exact ⟨entry, hentry, (Detector.ofEntry_ok hofEntry).2.symm, hofEntry⟩
  · rintro ⟨entry, hentry, rfl, hofEntry⟩
    obtain ⟨d', hd', hsame⟩ := exists_read_of_mapM_ok hread hentry
    obtain rfl : d = d' := Except.ok.inj (hofEntry.symm.trans hsame)
    exact ⟨hperm.mem_iff.mpr hd', (Detector.ofEntry_ok hofEntry).2⟩

end DetectorTable

namespace Configuration

variable {c other : Configuration} {detectors others : List Entry}

/-! ## Given detectors -/

/-- The configuration has the given detectors in ascending order, each once and as it is. Its table has them
in the same order, and could as well be made from any other. -/
structure HasDetectors (c : Configuration) (detectors : List Entry) : Prop where
  ascending : c.detectors.Pairwise fun a b => a.name < b.name
  each : c.detectors.Perm detectors
  found : ∀ name entry, c.detector? name = some entry ↔ entry ∈ detectors ∧ entry.name = name
  listed : ∀ table, DetectorTable.ofEntries c.detectors = .ok table →
    table.detectors.map Detector.entry = c.detectors ∧
      table.names = c.detectors.map Entry.name ∧
      ∀ name d, table.get? name = some d ↔
        ∃ entry ∈ detectors, entry.name = name ∧ Detector.ofEntry entry = .ok d
  unordered : ∀ others table, others.Perm detectors →
    (DetectorTable.ofEntries others = .ok table ↔ DetectorTable.ofEntries c.detectors = .ok table)

theorem hasDetectors_of_sorted (hsorted : c.Sorted) (hnames : (c.detectors.map Entry.name).Nodup)
    (hperm : c.detectors.Perm detectors) : c.HasDetectors detectors where
  ascending := strictly_sorted hsorted hnames
  each := hperm
  found name entry := by
    rw [← hperm.mem_iff]
    exact find?_name_iff hnames
  listed table htable := by
    have hsame : sortByName Entry.name c.detectors = c.detectors :=
      (eq_sortByName hnames (.refl _) (List.pairwise_map.mp hsorted)).symm
    have hentries := (DetectorTable.entries_eq hnames htable).trans hsame
    refine ⟨hentries, ?_, fun name d => ?_⟩
    · rw [DetectorTable.names_eq htable, hentries]
    · rw [DetectorTable.get?_iff hnames htable]
      simp only [hperm.mem_iff]
  unordered others table hothers := by
    have hback : c.detectors.Perm others := hperm.trans hothers.symm
    have hdistinct : (others.map Entry.name).Nodup := (hback.map Entry.name).nodup_iff.mp hnames
    exact ⟨DetectorTable.ofEntries_of_perm hdistinct hback.symm,
      DetectorTable.ofEntries_of_perm hnames hback⟩

theorem hasDetectors_setDetectors (c : Configuration) (hnames : (detectors.map Entry.name).Nodup) :
    (c.setDetectors detectors).HasDetectors detectors := by
  have hperm : (c.setDetectors detectors).detectors.Perm detectors := sortByName_perm _ _
  exact hasDetectors_of_sorted (sorted_setDetectors c detectors)
    ((hperm.map Entry.name).nodup_iff.mpr hnames) hperm

theorem setDetectors_of_perm (c : Configuration) (hnames : (detectors.map Entry.name).Nodup)
    (hperm : detectors.Perm others) : c.setDetectors others = c.setDetectors detectors := by
  unfold setDetectors
  rw [sortByName_of_perm hnames hperm]

/-! ## Detectors of a document -/

theorem listOf_of_perm {items moved : List Toml} {es : List EntryDocument}
    (h : Toml.listOf? EntryDocument.ofValue (.array items) = some es) (hperm : items.Perm moved) :
    ∃ others, Toml.listOf? EntryDocument.ofValue (.array moved) = some others ∧ es.Perm others :=
  mapM_some_perm h hperm

theorem ofFields_some {fields : List (String × Toml)} {d : ConfigurationDocument}
    (h : ConfigurationDocument.ofFields fields = some d) :
    (fields.lookup "ignore").mapM (Toml.listOf? Toml.string?) = some d.ignored ∧
      (fields.lookup "global").mapM EntryDocument.ofValue = some d.global ∧
      Toml.listOf? EntryDocument.ofValue ((fields.lookup "modules").getD (.array [])) =
        some d.modules ∧
      Toml.listOf? EntryDocument.ofValue ((fields.lookup "detectors").getD (.array [])) =
        some d.detectors := by
  unfold ConfigurationDocument.ofFields at h
  simp only [Option.bind_eq_bind, Option.pure_def, Option.bind_eq_some_iff, Option.some.injEq] at h
  obtain ⟨ignored, hignored, global, hglobal, modules, hmodules, detectors, hdetectors, rfl⟩ := h
  exact ⟨hignored, hglobal, hmodules, hdetectors⟩

theorem ofFields_of_reordered {fields others : List (String × Toml)} {d : ConfigurationDocument}
    (h : Toml.SameButOrder "detectors" fields others)
    (hd : ConfigurationDocument.ofFields fields = some d) :
    ∃ detectors, d.detectors.Perm detectors ∧
      ConfigurationDocument.ofFields others = some { d with detectors } := by
  obtain ⟨hignored, hglobal, hmodules, hdetectors⟩ := ofFields_some hd
  have hrest (detectors : List EntryDocument)
      (hread : Toml.listOf? EntryDocument.ofValue ((others.lookup "detectors").getD (.array [])) =
        some detectors) :
      ConfigurationDocument.ofFields others = some { d with detectors } := by
    unfold ConfigurationDocument.ofFields
    rw [h.rest "ignore" (by decide), h.rest "global" (by decide), h.rest "modules" (by decide)]
    simp only [hignored, hglobal, hmodules, hread]
    rfl
  rcases h.list with hsame | ⟨items, moved, hitems, hmoved, hperm⟩
  · exact ⟨d.detectors, .refl _, hrest _ (hsame ▸ hdetectors)⟩
  · rw [hitems, Option.getD_some] at hdetectors
    obtain ⟨detectors, hread, hdetectors⟩ := listOf_of_perm hdetectors hperm
    exact ⟨detectors, hdetectors, hrest _ (by rw [hmoved, Option.getD_some, hread])⟩

theorem names_of_ofDocument {d : ConfigurationDocument} (h : ofDocument d = .ok c) :
    (c.detectors.map Entry.name).Perm (d.detectors.map EntryDocument.name) := by
  obtain ⟨global, modules, read, ignored, -, -, hread, rfl⟩ := ofDocument_ok h
  rw [← names_of_mapM_toEntry hread]
  exact (sortByName_perm Entry.name read).map Entry.name

theorem ofDocument_of_perm {d : ConfigurationDocument} {detectors : List EntryDocument}
    (hd : ofDocument d = .ok c) (hnames : (c.detectors.map Entry.name).Nodup)
    (hperm : d.detectors.Perm detectors) : ofDocument { d with detectors } = .ok c := by
  unfold ofDocument at hd
  obtain ⟨global, hglobal, hd⟩ := exists_of_bind_ok hd
  obtain ⟨modules, hmodules, hd⟩ := exists_of_bind_ok hd
  obtain ⟨read, hread, hd⟩ := exists_of_bind_ok hd
  obtain rfl := Except.ok.inj hd
  obtain ⟨moved, hmoved, hsame⟩ := mapM_ok_perm hread hperm
  have hdistinct : (read.map Entry.name).Nodup :=
    ((sortByName_perm Entry.name read).map Entry.name).nodup_iff.mp hnames
  unfold ofDocument
  simp only [hglobal, hmodules, hmoved, bind, Except.bind, pure, Except.pure]
  rw [setDetectors_of_perm _ hdistinct hsame]

theorem parse_of_reordered {text other : String} {root : List Toml.Assignment}
    {sections moved : List Toml.Section} (htext : Toml.sections? text = some (root, sections))
    (hother : Toml.sections? other = some (root, moved))
    (hmoved : Toml.Reordered "detectors" sections moved) (hparse : parse text = .ok c)
    (hnames : (c.detectors.map Entry.name).Nodup) : parse other = .ok c := by
  unfold parse at hparse
  split at hparse
  case h_2 => cases hparse
  case h_1 d hd =>
    obtain ⟨fields, hfields, hd⟩ := Option.bind_eq_some_iff.mp hd
    obtain ⟨others, hothers, hsame⟩ := hmoved.parse htext hother hfields
    obtain ⟨detectors, hperm, hread⟩ := ofFields_of_reordered hsame hd
    rw [parse_eq_ofDocument (by rw [hothers, Option.bind_some, hread])]
    exact ofDocument_of_perm hparse hnames hperm

/-! ## What is made from a configuration -/

/-- The two configurations are planned, written and run alike. -/
structure ActsAlike (c other : Configuration) : Prop where
  plan : ∀ {φ : Type} (registry : Registry φ), other.plan registry = c.plan registry
  validate : ∀ {φ : Type} (registry : Registry φ), other.validate registry = c.validate registry
  print : other.print = c.print
  table : DetectorTable.ofEntries other.detectors = DetectorTable.ofEntries c.detectors
  execute : ∀ {m : Type → Type} [Monad m] {ι : Type} (env : Environment m ι) (runId : RunId),
    env.execute runId other = env.execute runId c

theorem ActsAlike.refl (c : Configuration) : c.ActsAlike c :=
  ⟨fun _ => rfl, fun _ => rfl, rfl, rfl, fun _ _ => rfl⟩

/-! ## Written detectors -/

def printDetectors (detectors : List Entry) : String :=
  String.ofList (detectors.flatMap (Entry.printSection "[[" "detectors" "]]"))

def detectorSections (detectors : List Entry) : List Toml.Section :=
  detectors.flatMap fun entry => entry.table.sections .element "detectors"

theorem sections_printDetectors {first : Entry} {rest : List Entry}
    (h : ∀ entry ∈ first :: rest, entry.Normal) :
    Toml.sections? (printDetectors (first :: rest)) = some ([], detectorSections (first :: rest)) := by
  have hspells := spells_elements (⟨by decide, by decide⟩ : Toml.IsBare "detectors") h
  have hmark : Toml.skipMark (printDetectors (first :: rest)).toList =
      (first :: rest).flatMap (Entry.printSection "[[" "detectors" "]]") := by
    unfold printDetectors
    rw [String.toList_ofList]
    rfl
  rw [List.flatMap_map] at hspells
  unfold Toml.sections?
  simp only [hmark, hspells.document, Option.map_some]
  exact congrArg some (Toml.groupSections_statements [] (detectorSections (first :: rest)))

theorem reordered_detectorSections (hperm : detectors.Perm others) :
    Toml.Reordered "detectors" (detectorSections detectors) (detectorSections others) := by
  have hunder (entries : List Entry) : ∀ s ∈ detectorSections entries,
      s.isUnder "detectors" = true := by
    intro s hs
    obtain ⟨entry, -, hs⟩ := List.mem_flatMap.mp hs
    simp only [Toml.EntryTable.sections, List.mem_cons, List.not_mem_nil, or_false] at hs
    rcases hs with rfl | rfl <;> rfl
  have hnone (entries : List Entry) :
      (detectorSections entries).filter (fun s => !s.isUnder "detectors") = [] :=
    List.filter_eq_nil_iff.mpr fun s hs => by simp [hunder entries s hs]
  let block (entry : Entry) : List Toml.Section := entry.table.sections .element "detectors"
  refine ⟨(hnone detectors).trans (hnone others).symm,
    detectors.map block, others.map block, hperm.map block, fun b hb => ?_, ?_, ?_⟩
  · obtain ⟨entry, -, rfl⟩ := List.mem_map.mp hb
    exact ⟨_, _, rfl, by simp⟩
  · rw [List.filter_eq_self.mpr (hunder detectors), detectorSections, List.flatMap_def]
  · rw [List.filter_eq_self.mpr (hunder others), detectorSections, List.flatMap_def]

/-! ## Any order -/

/--
Detectors with names of their own can be given in any order, by a call or by the sections of a document.
The configuration is the same, it has each of them once and in ascending order, and each is found by its
name.
-/
theorem detector_order_irrelevant :
    (∀ (c : Configuration) (detectors others : List Entry), detectors.Perm others →
      (detectors.map Entry.name).Nodup →
      c.setDetectors others = c.setDetectors detectors ∧
        (c.Built → (∀ entry ∈ detectors, entry.Built) →
          (c.setDetectors others == c.setDetectors detectors) = true) ∧
        (c.setDetectors others).HasDetectors detectors ∧
        (c.setDetectors detectors).ActsAlike (c.setDetectors others)) ∧
    ∀ (text other : String) (root : List Toml.Assignment) (sections moved : List Toml.Section),
      Toml.sections? text = some (root, sections) → Toml.sections? other = some (root, moved) →
      Toml.Reordered "detectors" sections moved →
      ∀ c, parse text = .ok c → (c.detectors.map Entry.name).Nodup →
        parse other = .ok c ∧ c.HasDetectors c.detectors := by
  constructor
  · intro c detectors others hperm hnames
    have hsame := setDetectors_of_perm c hnames hperm
    rw [hsame]
    exact ⟨rfl, fun hc hdetectors => (hc.setDetectors hdetectors).normal.beq_self,
      hasDetectors_setDetectors c hnames, .refl _⟩
  · intro text other root sections moved htext hother hmoved c hparse hnames
    exact ⟨parse_of_reordered htext hother hmoved hparse hnames,
      hasDetectors_of_sorted (Built.parse hparse).sorted hnames (.refl _)⟩

def upstream : Entry :=
  .ofPairs "upstream" [("type", .text "strip")]

def downstream : Entry :=
  .ofPairs "downstream" [("type", .text "pixel")]

theorem detector_order_irrelevant_pair :
    (({} : Configuration).setDetectors [downstream, upstream]).HasDetectors [upstream, downstream] ∧
      ∃ c, parse (printDetectors [upstream, downstream]) = .ok c ∧
        parse (printDetectors [downstream, upstream]) = .ok c := by
  obtain ⟨hset, hdocument⟩ := detector_order_irrelevant
  have hperm : [upstream, downstream].Perm [downstream, upstream] := .swap _ _ _
  obtain ⟨-, -, hhas, -⟩ := hset {} _ _ hperm (by decide)
  have hnormal : ∀ entry ∈ [upstream, downstream], entry.Normal := by
    simp [upstream, downstream, Entry.normal_ofPairs]
  have hread : ((Toml.parse? (printDetectors [upstream, downstream])).bind
      ConfigurationDocument.ofFields).map (fun d => d.detectors.map EntryDocument.name) =
      some ["upstream", "downstream"] := by decide +kernel
  have hloads : (parse (printDetectors [upstream, downstream])).toOption.map (fun _ => ()) =
      some () := by decide +kernel
  obtain ⟨d, hd, hlisted⟩ := Option.map_eq_some_iff.mp hread
  obtain ⟨c, hparse, -⟩ := exists_of_toOption hloads
  have hnames := names_of_ofDocument ((parse_eq_ofDocument hd).symm.trans hparse)
  rw [hlisted] at hnames
  have hother := hdocument _ _ [] _ _ (sections_printDetectors hnormal)
    (sections_printDetectors fun entry hentry => hnormal entry (hperm.mem_iff.mpr hentry))
    (reordered_detectorSections hperm) c hparse (hnames.nodup_iff.mpr (by decide))
  exact ⟨hhas, c, hparse, hother.1⟩

end Configuration

end TestBeam
