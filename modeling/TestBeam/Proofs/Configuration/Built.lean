import TestBeam.Configuration.Document
import TestBeam.Configuration.Override
import TestBeam.Proofs.Result

/-!
# Configurations that can be built

A configuration starts empty or is read from a document, and then changes by setters and by overrides.
Whatever holds of every entry that can be built holds of all entries of such a configuration.
-/

namespace TestBeam

/-- An entry that starts empty or from pairs, and then gets settings. -/
inductive Entry.Built : Entry → Prop where
  | empty (name : String) : Built (.empty name)
  | ofPairs (name : String) (pairs : List (String × Setting)) : Built (.ofPairs name pairs)
  | set {entry : Entry} (h : Built entry) (key : String) (value : Setting) :
      Built (entry.set key value)

namespace Configuration

inductive Built : Configuration → Prop where
  | new : Built {}
  | setGlobal {c : Configuration} (h : Built c) {global : Entry} (hglobal : global.Built) :
      Built (c.setGlobal global)
  | setModules {c : Configuration} (h : Built c) {modules : List Entry}
      (hmodules : ∀ entry ∈ modules, entry.Built) : Built (c.setModules modules)
  | setDetectors {c : Configuration} (h : Built c) {detectors : List Entry}
      (hdetectors : ∀ entry ∈ detectors, entry.Built) : Built (c.setDetectors detectors)
  | setIgnored {c : Configuration} (h : Built c) (ignored : List String) : Built (c.setIgnored ignored)
  | applyModuleOption {c next : Configuration} (h : Built c) {option : String}
      (hnext : c.applyModuleOption option = .ok next) : Built next
  | applyDetectorOption {c next : Configuration} (h : Built c) {option : String}
      (hnext : c.applyDetectorOption option = .ok next) : Built next
  | parse {c : Configuration} {text : String} (hparse : parse text = .ok c) : Built c

/-! ## What an operation changes -/

variable {c next : Configuration} {option : String}

theorem setFirst_names {name key : String} {value : Setting} {entries changed : List Entry}
    (h : setFirst name key value entries = some changed) :
    changed.map Entry.name = entries.map Entry.name := by
  induction entries generalizing changed with
  | nil => simp [setFirst] at h
  | cons entry entries ih =>
    unfold setFirst at h
    split at h
    · obtain rfl := Option.some.inj h
      rfl
    · obtain ⟨rest, hrest, rfl⟩ := Option.map_eq_some_iff.mp h
      simp [ih hrest]

theorem mem_setFirst {name key : String} {value : Setting} {entries changed : List Entry}
    (h : setFirst name key value entries = some changed) {entry : Entry} (hmem : entry ∈ changed) :
    ∃ old ∈ entries, entry = old ∨ entry = old.set key value := by
  induction entries generalizing changed with
  | nil => simp [setFirst] at h
  | cons first entries ih =>
    unfold setFirst at h
    split at h
    · obtain rfl := Option.some.inj h
      rcases List.mem_cons.mp hmem with rfl | hmem
      · exact ⟨first, by simp, .inr rfl⟩
      · exact ⟨entry, by simp [hmem], .inl rfl⟩
    · obtain ⟨rest, hrest, rfl⟩ := Option.map_eq_some_iff.mp h
      rcases List.mem_cons.mp hmem with rfl | hmem
      · exact ⟨entry, by simp, .inl rfl⟩
      · obtain ⟨old, hold, hcases⟩ := ih hrest hmem
        exact ⟨old, by simp [hold], hcases⟩

theorem mem_setEvery {name key : String} {value : Setting} {entries : List Entry} {entry : Entry}
    (h : entry ∈ setEvery name key value entries) :
    ∃ old ∈ entries, entry = old ∨ entry = old.set key value := by
  obtain ⟨old, hold, rfl⟩ := List.mem_map.mp h
  refine ⟨old, hold, ?_⟩
  split
  · exact .inr rfl
  · exact .inl rfl

theorem applyModuleOption_ok (h : c.applyModuleOption option = .ok next) :
    ∃ change, Override.parse option = .ok change ∧
      ((change.target = none ∧ ∃ global, c.global = some global ∧
          next = c.setGlobal (global.set change.key change.value)) ∨
        ∃ name, change.target = some name ∧
          next = c.setModules (setEvery name change.key change.value c.modules)) := by
  unfold applyModuleOption at h
  obtain ⟨change, hparse, h⟩ := exists_of_bind_ok h
  refine ⟨change, hparse, ?_⟩
  split at h
  case h_1 htarget =>
    split at h
    case h_1 => cases h
    case h_2 global hglobal => exact .inl ⟨htarget, global, hglobal, (Except.ok.inj h).symm⟩
  case h_2 name htarget =>
    split at h
    · exact .inr ⟨name, htarget, (Except.ok.inj h).symm⟩
    · cases h

theorem applyDetectorOption_ok (h : c.applyDetectorOption option = .ok next) :
    ∃ change name detectors, Override.parse option = .ok change ∧ change.target = some name ∧
      setFirst name change.key change.value c.detectors = some detectors ∧
      next = { c with detectors } := by
  unfold applyDetectorOption at h
  obtain ⟨change, hparse, h⟩ := exists_of_bind_ok h
  split at h
  case h_1 => cases h
  case h_2 name htarget =>
    split at h
    case h_1 detectors hfirst =>
      exact ⟨change, name, detectors, hparse, htarget, hfirst, (Except.ok.inj h).symm⟩
    case h_2 => cases h

theorem toEntry_built {d : EntryDocument} {entry : Entry} (h : d.toEntry = .ok entry) :
    entry.Built := by
  unfold EntryDocument.toEntry at h
  obtain ⟨settings, -, rfl⟩ := exists_of_map_ok h
  exact .ofPairs d.name settings

theorem mapM_built {ds : List EntryDocument} {entries : List Entry}
    (h : ds.mapM EntryDocument.toEntry = .ok entries) : ∀ entry ∈ entries, entry.Built := by
  intro entry hentry
  obtain ⟨d, -, hread⟩ := exists_of_mapM_ok h hentry
  exact toEntry_built hread

theorem ofDocument_ok {d : ConfigurationDocument} (h : ofDocument d = .ok c) :
    ∃ global modules detectors ignored, d.global.mapM EntryDocument.toEntry = .ok global ∧
      d.modules.mapM EntryDocument.toEntry = .ok modules ∧
      d.detectors.mapM EntryDocument.toEntry = .ok detectors ∧
      c = ({ global, modules, ignored } : Configuration).setDetectors detectors := by
  unfold ofDocument at h
  obtain ⟨global, hglobal, h⟩ := exists_of_bind_ok h
  obtain ⟨modules, hmodules, h⟩ := exists_of_bind_ok h
  obtain ⟨detectors, hdetectors, h⟩ := exists_of_bind_ok h
  exact ⟨global, modules, detectors, _, hglobal, hmodules, hdetectors, (Except.ok.inj h).symm⟩

theorem parse_eq_ofDocument {text : String} {d : ConfigurationDocument}
    (h : (Toml.parse? text).bind ConfigurationDocument.ofFields = some d) :
    parse text = ofDocument d := by
  unfold parse
  rw [h]

theorem parse_ok {text : String} (h : parse text = .ok c) :
    ∃ (global : Option Entry) (modules detectors : List Entry) (ignored : List String),
      (∀ entry ∈ global, entry.Built) ∧ (∀ entry ∈ modules, entry.Built) ∧
        (∀ entry ∈ detectors, entry.Built) ∧
        c = ({ global, modules, ignored } : Configuration).setDetectors detectors := by
  unfold parse at h
  split at h
  case h_2 => cases h
  rename_i d _
  obtain ⟨global, modules, detectors, ignored, hglobal, hmodules, hdetectors, rfl⟩ := ofDocument_ok h
  refine ⟨global, modules, detectors, ignored, ?_, mapM_built hmodules, mapM_built hdetectors, rfl⟩
  cases hd : d.global with
  | none =>
    rw [hd] at hglobal
    obtain rfl : none = global := Except.ok.inj hglobal
    simp
  | some first =>
    rw [hd] at hglobal
    obtain ⟨entry, hread, rfl⟩ := exists_of_map_ok hglobal
    simpa using toEntry_built hread

/-! ## What holds of all that is built -/

def entries (c : Configuration) : List Entry :=
  c.global.toList ++ c.modules ++ c.detectors

theorem Built.entries_built (h : Built c) : ∀ entry ∈ c.entries, entry.Built := by
  have hchanged {old entry : Entry} {key : String} {value : Setting} (hold : old.Built)
      (h : entry = old ∨ entry = old.set key value) : entry.Built := by
    rcases h with rfl | rfl
    · exact hold
    · exact hold.set key value
  unfold entries at *
  simp only [List.mem_append, Option.mem_toList] at *
  -- Each operation keeps all sections but those that it names.
  induction h with
  | new => simp
  | setGlobal h hglobal ih =>
    rintro entry ((hmem | hmem) | hmem)
    · obtain rfl := Option.some.inj hmem
      exact hglobal
    · exact ih entry (.inl (.inr hmem))
    · exact ih entry (.inr hmem)
  | setModules h hmodules ih =>
    rintro entry ((hmem | hmem) | hmem)
    · exact ih entry (.inl (.inl hmem))
    · exact hmodules entry hmem
    · exact ih entry (.inr hmem)
  | setDetectors h hdetectors ih =>
    rintro entry ((hmem | hmem) | hmem)
    · exact ih entry (.inl (.inl hmem))
    · exact ih entry (.inl (.inr hmem))
    · exact hdetectors entry ((sortByName_perm _ _).mem_iff.mp hmem)
  | setIgnored h ignored ih => exact ih
  | applyModuleOption h hnext ih =>
    obtain ⟨change, -, ⟨-, global, hglobal, rfl⟩ | ⟨name, -, rfl⟩⟩ := applyModuleOption_ok hnext
    · rintro entry ((hmem | hmem) | hmem)
      · obtain rfl := Option.some.inj hmem
        exact (ih global (.inl (.inl hglobal))).set change.key change.value
      · exact ih entry (.inl (.inr hmem))
      · exact ih entry (.inr hmem)
    · rintro entry ((hmem | hmem) | hmem)
      · exact ih entry (.inl (.inl hmem))
      · obtain ⟨old, hold, hcases⟩ := mem_setEvery hmem
        exact hchanged (ih old (.inl (.inr hold))) hcases
      · exact ih entry (.inr hmem)
  | applyDetectorOption h hnext ih =>
    obtain ⟨change, name, detectors, -, -, hfirst, rfl⟩ := applyDetectorOption_ok hnext
    rintro entry ((hmem | hmem) | hmem)
    · exact ih entry (.inl (.inl hmem))
    · exact ih entry (.inl (.inr hmem))
    · obtain ⟨old, hold, hcases⟩ := mem_setFirst hfirst hmem
      exact hchanged (ih old (.inr hold)) hcases
  | parse hparse =>
    obtain ⟨global, modules, detectors, ignored, hglobal, hmodules, hdetectors, rfl⟩ :=
      parse_ok hparse
    rintro entry ((hmem | hmem) | hmem)
    · exact hglobal entry hmem
    · exact hmodules entry hmem
    · exact hdetectors entry ((sortByName_perm _ _).mem_iff.mp hmem)

def Sorted (c : Configuration) : Prop :=
  (c.detectors.map Entry.name).Pairwise (· ≤ ·)

theorem sorted_setDetectors (c : Configuration) (detectors : List Entry) :
    (c.setDetectors detectors).Sorted :=
  List.pairwise_map.mpr (sortByName_ascending Entry.name detectors)

theorem setDetectors_of_sorted {detectors : List Entry}
    (h : (detectors.map Entry.name).Pairwise (· ≤ ·)) (c : Configuration) :
    c.setDetectors detectors = { c with detectors } := by
  have hsorted : detectors.Pairwise fun a b => decide (a.name ≤ b.name) = true :=
    (List.pairwise_map.mp h).imp fun hle => by simpa using hle
  unfold setDetectors sortByName
  rw [List.mergeSort_of_pairwise hsorted]

theorem Built.sorted (h : Built c) : c.Sorted := by
  induction h with
  | new => exact List.Pairwise.nil
  | setGlobal h hglobal ih => exact ih
  | setModules h hmodules ih => exact ih
  | setDetectors h hdetectors ih => exact sorted_setDetectors _ _
  | setIgnored h ignored ih => exact ih
  | applyModuleOption h hnext ih =>
    obtain ⟨change, -, ⟨-, global, -, rfl⟩ | ⟨name, -, rfl⟩⟩ := applyModuleOption_ok hnext
    · exact ih
    · exact ih
  | applyDetectorOption h hnext ih =>
    obtain ⟨change, name, detectors, -, -, hfirst, rfl⟩ := applyDetectorOption_ok hnext
    have hnames := setFirst_names hfirst
    unfold Sorted at ih ⊢
    rwa [hnames]
  | parse hparse =>
    obtain ⟨global, modules, detectors, ignored, -, -, -, rfl⟩ := parse_ok hparse
    exact sorted_setDetectors _ _

end Configuration

end TestBeam
