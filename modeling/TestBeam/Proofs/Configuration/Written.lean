import TestBeam.Proofs.Configuration.Candidates
import TestBeam.Proofs.Entry.Reading

/-!
# Documents with overrides

A configuration that is read from a document and changed by overrides holds the entries of the document,
each with the settings that were written last.
-/

namespace TestBeam

namespace Configuration

variable {c next : Configuration} {option : String} {options : List String}

/-! ## Overrides of modules -/

theorem applyModuleOption_entries (h : c.applyModuleOption option = .ok next) :
    next.detectors = c.detectors ∧ next.ignored = c.ignored ∧
      ∀ (i : Nat) (entry : Entry), c.modules[i]? = some entry →
        ∃ changed, next.modules[i]? = some changed ∧ entry.Overridden [option] changed := by
  obtain ⟨change, hparse, hcases⟩ := applyModuleOption_ok h
  have hchanged := Entry.Overridden.of_parse hparse
  rcases hcases with ⟨htarget, global, -, rfl⟩ | ⟨name, htarget, rfl⟩
  · refine ⟨rfl, rfl, fun i entry hi => ⟨entry, hi, ?_⟩⟩
    simpa [htarget] using hchanged entry
  · refine ⟨rfl, rfl, fun i entry hi => ⟨_, ?_, hchanged entry⟩⟩
    change (setEvery name change.key change.value c.modules)[i]? = _
    unfold setEvery
    rw [List.getElem?_map, hi, htarget]
    simp [eq_comm]

theorem applyModuleOptions_entries (h : options.foldlM applyModuleOption c = .ok next) :
    next.detectors = c.detectors ∧ next.ignored = c.ignored ∧
      ∀ (i : Nat) (entry : Entry), c.modules[i]? = some entry →
        ∃ changed, next.modules[i]? = some changed ∧ entry.Overridden options changed := by
  induction options generalizing c with
  | nil =>
    obtain rfl := Except.ok.inj h
    exact ⟨rfl, rfl, fun i entry hi => ⟨entry, hi, .nil entry⟩⟩
  | cons option options ih =>
    cases hfirst : c.applyModuleOption option with
    | error cause =>
      rw [foldlM_cons_error hfirst] at h
      cases h
    | ok first =>
      rw [foldlM_cons_ok hfirst] at h
      obtain ⟨hdetectors, hignored, hmodules⟩ := applyModuleOption_entries hfirst
      obtain ⟨hdetectors', hignored', hmodules'⟩ := ih h
      refine ⟨hdetectors'.trans hdetectors, hignored'.trans hignored, fun i entry hi => ?_⟩
      obtain ⟨changed, hi', hchanged⟩ := hmodules i entry hi
      obtain ⟨last, hlast, hrest⟩ := hmodules' i changed hi'
      exact ⟨last, hlast, hchanged.cons hrest⟩

/-! ## Overrides of detectors -/

theorem mem_of_setFirst {name key : String} {value : Setting} {entries changed : List Entry}
    (h : setFirst name key value entries = some changed) (hnames : (entries.map Entry.name).Nodup)
    {entry : Entry} (hmem : entry ∈ entries) :
    (if entry.name = name then entry.set key value else entry) ∈ changed := by
  induction entries generalizing changed with
  | nil => simp at hmem
  | cons first rest ih =>
    rw [List.map_cons, List.nodup_cons] at hnames
    unfold setFirst at h
    split at h
    · rename_i hname
      obtain rfl := Option.some.inj h
      rcases List.mem_cons.mp hmem with rfl | hmem
      · simp [hname]
      · have hother : entry.name ≠ name := by
          rintro rfl
          exact hnames.1 (hname ▸ List.mem_map_of_mem hmem)
        simp [hother, hmem]
    · rename_i hname
      obtain ⟨changed, hrest, rfl⟩ := Option.map_eq_some_iff.mp h
      rcases List.mem_cons.mp hmem with rfl | hmem
      · simp [hname]
      · exact List.mem_cons_of_mem _ (ih hrest hnames.2 hmem)

theorem applyDetectorOption_entries (h : c.applyDetectorOption option = .ok next)
    (hnames : (c.detectors.map Entry.name).Nodup) :
    next.modules = c.modules ∧ next.ignored = c.ignored ∧
      next.detectors.map Entry.name = c.detectors.map Entry.name ∧
      ∀ entry ∈ c.detectors, ∃ changed ∈ next.detectors, entry.Overridden [option] changed := by
  obtain ⟨change, name, detectors, hparse, htarget, hfirst, rfl⟩ := applyDetectorOption_ok h
  refine ⟨rfl, rfl, setFirst_names hfirst, fun entry hentry => ?_⟩
  have hchanged := Entry.Overridden.of_parse hparse entry
  simp only [htarget, Option.some.injEq, eq_comm (a := name)] at hchanged
  exact ⟨_, mem_of_setFirst hfirst hnames hentry, hchanged⟩

theorem applyDetectorOptions_entries (h : options.foldlM applyDetectorOption c = .ok next)
    (hnames : (c.detectors.map Entry.name).Nodup) :
    next.modules = c.modules ∧ next.ignored = c.ignored ∧
      next.detectors.map Entry.name = c.detectors.map Entry.name ∧
      ∀ entry ∈ c.detectors, ∃ changed ∈ next.detectors, entry.Overridden options changed := by
  induction options generalizing c with
  | nil =>
    obtain rfl := Except.ok.inj h
    exact ⟨rfl, rfl, rfl, fun entry hentry => ⟨entry, hentry, .nil entry⟩⟩
  | cons option options ih =>
    cases hfirst : c.applyDetectorOption option with
    | error cause =>
      rw [foldlM_cons_error hfirst] at h
      cases h
    | ok first =>
      rw [foldlM_cons_ok hfirst] at h
      obtain ⟨hmodules, hignored, hsame, hdetectors⟩ := applyDetectorOption_entries hfirst hnames
      obtain ⟨hmodules', hignored', hsame', hdetectors'⟩ := ih h (hsame ▸ hnames)
      refine ⟨hmodules'.trans hmodules, hignored'.trans hignored, hsame'.trans hsame, ?_⟩
      intro entry hentry
      obtain ⟨changed, hmem, hchanged⟩ := hdetectors entry hentry
      obtain ⟨last, hlast, hrest⟩ := hdetectors' changed hmem
      exact ⟨last, hlast, hchanged.cons hrest⟩

/-! ## Configurations that are loaded -/

variable {d : ConfigurationDocument} {moduleOptions detectorOptions : List String}

def load (d : ConfigurationDocument) (moduleOptions detectorOptions : List String) :
    Except ConfigurationError Configuration :=
  (ofDocument d).bind fun c => c.applyOptions moduleOptions detectorOptions

/-- What a document and overrides say is what the configuration holds. -/
structure Holds (d : ConfigurationDocument) (moduleOptions detectorOptions : List String)
    (c : Configuration) : Prop where
  modules : ∀ (i : Nat) (e : EntryDocument), d.modules[i]? = some e →
    ∃ entry, c.modules[i]? = some entry ∧ entry.name = e.name ∧
      ∀ key, entry.get? key = e.setting? moduleOptions key
  names : (c.detectors.map Entry.name).Perm (d.detectors.map EntryDocument.name)
  detectors : ∀ f ∈ d.detectors, ∃ entry ∈ c.detectors, entry.name = f.name ∧
    ∀ key, entry.get? key = f.setting? detectorOptions key

theorem holds_of_overridden {e : EntryDocument} {entry changed : Entry}
    (hread : e.toEntry = .ok entry) (h : entry.Overridden options changed) :
    changed.name = e.name ∧ ∀ key, changed.get? key = e.setting? options key := by
  obtain ⟨hname, hget⟩ := EntryDocument.toEntry_ok hread
  refine ⟨h.name.trans hname, fun key => ?_⟩
  rw [h.get, hget, hname]
  rfl

theorem names_of_mapM_toEntry {documents : List EntryDocument} {entries : List Entry}
    (h : documents.mapM EntryDocument.toEntry = .ok entries) :
    entries.map Entry.name = documents.map EntryDocument.name := by
  induction mapM_ok_iff.mp h with
  | nil => rfl
  | cons hfirst hrest ih =>
    rw [List.map_cons, List.map_cons, (EntryDocument.toEntry_ok hfirst).1, ih (mapM_ok_iff.mpr hrest)]

theorem holds_of_load (h : load d moduleOptions detectorOptions = .ok c)
    (hnames : (d.detectors.map EntryDocument.name).Nodup) :
    c.Holds d moduleOptions detectorOptions := by
  unfold load applyOptions at h
  obtain ⟨start, hstart, hrest⟩ := exists_of_bind_ok h
  obtain ⟨modified, hmodified, hlast⟩ := exists_of_bind_ok hrest
  obtain ⟨global, modules, read, ignored, -, hmodules, hread, rfl⟩ := ofDocument_ok hstart
  obtain ⟨hsame, -, hoverridden⟩ := applyModuleOptions_entries hmodified
  have hsorted : modified.detectors = sortByName Entry.name read := hsame
  have hperm : (modified.detectors.map Entry.name).Perm (d.detectors.map EntryDocument.name) := by
    rw [hsorted, ← names_of_mapM_toEntry hread]
    exact (sortByName_perm Entry.name read).map Entry.name
  obtain ⟨hkept, -, hkeptNames, hdetectors⟩ :=
    applyDetectorOptions_entries hlast (hperm.nodup_iff.mpr hnames)
  refine ⟨fun i e hi => ?_, hkeptNames ▸ hperm, fun f hf => ?_⟩
  · obtain ⟨entry, hentry, hreadEntry⟩ := getElem_of_mapM_ok hmodules hi
    obtain ⟨changed, hchanged, hoverride⟩ := hoverridden i entry hentry
    exact ⟨changed, hkept ▸ hchanged, holds_of_overridden hreadEntry hoverride⟩
  · obtain ⟨entry, hentry, hreadEntry⟩ := exists_read_of_mapM_ok hread hf
    have hmem : entry ∈ modified.detectors := by
      rw [hsorted]
      exact (sortByName_perm Entry.name read).mem_iff.mpr hentry
    obtain ⟨changed, hchanged, hoverride⟩ := hdetectors entry hmem
    exact ⟨changed, hchanged, holds_of_overridden hreadEntry hoverride⟩

end Configuration

end TestBeam
