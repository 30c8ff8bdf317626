import TestBeam.Proofs.Configuration.Plan
import TestBeam.Proofs.Configuration.Written

/-!
# References to detectors

A module entry refers to detectors by their names or by their models. It targets exactly what it lists if and
only if its list prints as it is written.
-/

namespace TestBeam.Configuration

variable {φ : Type} {c : Configuration} {registry : Registry φ}

/-! ## Unknown detectors -/

theorem checkDetectors_ne_unknown (seen : List String) (detectors : List Entry) (i : Nat)
    (module unknown : String) :
    checkDetectors seen detectors ≠ .error (.unknownDetector i module unknown) := by
  induction detectors generalizing seen with
  | nil => simp [checkDetectors]
  | cons first rest ih =>
    unfold checkDetectors
    by_cases hseen : first.name ∈ seen
    · simp [hseen, bind, Except.bind]
    · cases htype : first.text "type" with
      | error cause => simp [hseen, bind, Except.bind, Except.mapError]
      | ok model => simpa [hseen, htype, bind, Except.bind, Except.mapError] using ih _

theorem addTo_ne_unknown (candidate : Candidate) (candidates : List Candidate) (i : Nat)
    (module unknown : String) :
    candidate.addTo candidates ≠ .error (.unknownDetector i module unknown) := by
  unfold Candidate.addTo
  split
  · simp
  · split
    · simp
    · split <;> simp

theorem addEntry_unknown {candidates : List Candidate} {m : ActiveModule} {i : Nat}
    {module unknown : String}
    (h : c.addEntry registry candidates m = .error (.unknownDetector i module unknown)) :
    m.index = i ∧ unknown ∈ m.entry.names "name" ∧ unknown ∉ c.detectors.map Entry.name := by
  unfold addEntry at h
  rcases error_of_bind h with hresolve | ⟨registration, -, h⟩
  · obtain ⟨cause, -, hcause⟩ := exists_of_mapError_error hresolve
    cases hcause
  rcases error_of_bind h with htarget | ⟨target, -, h⟩
  · unfold Configuration.target at htarget
    simp only at htarget
    split at htarget
    case h_1 name hfind =>
      obtain ⟨rfl, -, rfl⟩ : m.index = i ∧ m.entry.name = module ∧ name = unknown := by
        simpa using htarget
      have hunknown := List.find?_some hfind
      exact ⟨rfl, List.mem_of_find?_eq_some hfind, by simpa using hunknown⟩
    case h_2 => split at htarget <;> simp at htarget
  · obtain ⟨_, candidate, _, reached, -, -, hadd⟩ := (foldlM_eq_error_iff _ _ _).mp h
    exact absurd hadd (addTo_ne_unknown candidate reached i module unknown)

theorem plan_unknown {i : Nat} {module unknown : String}
    (h : c.plan registry = .error (.unknownDetector i module unknown)) :
    ∃ m ∈ c.active, m.index = i ∧ unknown ∈ m.entry.names "name" ∧
      unknown ∉ c.detectors.map Entry.name := by
  unfold plan requireGlobal at h
  rcases error_of_bind h with hglobal | ⟨global, -, h⟩
  · split at hglobal <;> cases hglobal
  rcases error_of_bind h with hsettings | ⟨settings, -, h⟩
  · obtain ⟨cause, -, hcause⟩ := exists_of_mapError_error hsettings
    cases hcause
  rcases error_of_bind h with hdetectors | ⟨done, -, h⟩
  · exact absurd hdetectors (checkDetectors_ne_unknown [] c.detectors i module unknown)
  split at h
  · cases h
  rcases error_of_bind h with hentries | ⟨candidates, -, h⟩
  · obtain ⟨before, m, after, reached, hsplit, -, hadd⟩ := (foldlM_eq_error_iff _ _ _).mp hentries
    exact ⟨m, by simp [hsplit], addEntry_unknown hadd⟩
  · cases h

/-! ## Listed names -/

theorem names_of_get {entry : Entry} {key : String} {w : Written}
    (h : entry.get? key = some w.setting) :
    entry.names key = Text.words w.setting.display := by
  unfold Entry.names
  rw [h]

theorem names_of_kept {entry : Entry} {key : String} {w : Written}
    (h : entry.get? key = some w.setting) (hkept : w.Kept) : entry.names key = w.listed := by
  rw [names_of_get h]
  exact w.words_display_iff.mpr hkept

variable {m : ActiveModule} {w : Written}

/-- The detectors with some names are all that the entry targets. -/
def TargetsExactly (c : Configuration) (m : ActiveModule) (names : List String) : Prop :=
  ∀ detector ∈ c.detectors, m.Targets detector ↔ detector.name ∈ names

theorem targetsExactly_of_kept (hget : m.entry.get? "name" = some w.setting)
    (hlisted : w.listed ≠ []) (hkept : w.Kept) : c.TargetsExactly m w.listed := by
  intro detector _
  unfold ActiveModule.Targets
  rw [names_of_kept hget hkept, if_pos hlisted]

theorem kept_of_targetsExactly (hget : m.entry.get? "name" = some w.setting)
    (hknown : ∀ name ∈ w.listed, name ∈ c.detectors.map Entry.name)
    (h : c.TargetsExactly m w.listed) : w.Kept := by
  rcases w.prints_setting with hsame | htrimmed | ⟨hprinted, hwritten⟩
  · exact .inl hsame
  · exact .inr htrimmed
  -- The list is a single word, and what it prints is one too.
  have hlisted := Written.listed_of_isWord hwritten
  obtain ⟨detector, hmem, hname⟩ := List.mem_map.mp (hknown (Text.trim w.text) (by simp [hlisted]))
  have htargets := (h detector hmem).mpr (by simp [hlisted, hname])
  unfold ActiveModule.Targets at htargets
  rw [names_of_get hget, hprinted.words, if_pos (by simp), List.mem_singleton] at htargets
  exact .inr (htargets.symm.trans hname)

theorem plan_ne_unknown (hm : m ∈ c.active)
    (hknown : ∀ name ∈ m.entry.names "name", name ∈ c.detectors.map Entry.name)
    (module unknown : String) :
    c.plan registry ≠ .error (.unknownDetector m.index module unknown) := by
  intro h
  obtain ⟨a, ha, hindex, hlisted, hunknown⟩ := plan_unknown h
  obtain rfl := eq_of_index ha hm hindex
  exact hunknown (hknown unknown hlisted)

/-! ## Listed models -/

theorem targets_model_iff {detector : Entry} {text : String}
    (hname : m.entry.get? "name" = none) (hget : m.entry.get? "type" = some w.setting)
    (hlisted : w.listed ≠ []) (hkept : w.Kept)
    (htype : detector.get? "type" = some (Setting.ofText text))
    (hprints : (Setting.ofText text).display = text) :
    m.Targets detector ↔ text ∈ w.listed := by
  have hnames : m.entry.names "name" = [] := by simp [Entry.names, hname]
  have hmodel : detector.textOr "type" "" = text := by simp [Entry.textOr, htype, hprints]
  unfold ActiveModule.Targets
  rw [hnames, names_of_kept hget hkept, hmodel, if_neg (by simp), if_pos hlisted]

/-! ## References in a document -/

variable {d : ConfigurationDocument} {moduleOptions detectorOptions : List String}

/--
A list of names stands for the detectors with exactly these names if and only if it prints as it is written.
A list of models stands for the detectors of these models if it prints as it is written and the models of the
detectors do. Names are listed by an array, with commas or by an override in the same way, and no list but that
of a single name prints as another one.
-/
theorem references_as_written (hload : load d moduleOptions detectorOptions = .ok c)
    (hnames : (d.detectors.map EntryDocument.name).Nodup) (registry : Registry φ) {i : Nat}
    {e : EntryDocument} (he : d.modules[i]? = some e) (hactive : e.name ∉ c.ignored) :
    (∀ names : List String, (∀ name ∈ names, Text.IsWord name) →
      (Written.array names).listed = names ∧ (Written.string (",".intercalate names)).listed = names ∧
        (Written.option (",".intercalate names)).listed = names) ∧
    (∀ w : Written, w.listed.length ≠ 1 → w.Kept) ∧
    ∃ m ∈ c.active, m.index = i ∧ m.entry.name = e.name ∧
      (∀ w, e.written? moduleOptions "name" = some w → w.listed ≠ [] →
        (∀ name ∈ w.listed, name ∈ d.detectors.map EntryDocument.name) →
        (w.Kept ↔ c.TargetsExactly m w.listed ∧ ∀ module unknown,
          c.plan registry ≠ .error (.unknownDetector i module unknown))) ∧
      ∀ w, e.Lacks moduleOptions "name" → e.written? moduleOptions "type" = some w →
        w.listed ≠ [] → w.Kept →
        ∀ f ∈ d.detectors, ∀ text, f.written? detectorOptions "type" = some (.string text) →
          (Setting.ofText text).display = text →
          ∀ detector ∈ c.detectors, detector.name = f.name →
            (m.Targets detector ↔ text ∈ w.listed) := by
  have hholds := holds_of_load hload hnames
  obtain ⟨entry, hentry, hname, hget⟩ := hholds.modules i e he
  have hm : ⟨i, entry⟩ ∈ c.active := mem_active.mpr ⟨hentry, hname ▸ hactive⟩
  refine ⟨fun names => Written.listed_names, fun w => Written.kept_of_length, ⟨i, entry⟩, hm, rfl, hname,
    fun w hw hlisted hknown => ?_,
    fun w hlacks hw hlisted hkept f hf text htext hprints detector hmem hsame => ?_⟩
  · have hsetting := (hget "name").trans (EntryDocument.setting_of_written hw)
    have hknown' : ∀ name ∈ w.listed, name ∈ c.detectors.map Entry.name :=
      fun name hmem => hholds.names.mem_iff.mpr (hknown name hmem)
    constructor
    · intro hkept
      refine ⟨targetsExactly_of_kept hsetting hlisted hkept, plan_ne_unknown hm ?_⟩
      rw [names_of_kept hsetting hkept]
      exact hknown'
    · rintro ⟨hexact, -⟩
      exact kept_of_targetsExactly hsetting hknown' hexact
  · obtain ⟨held, hheld, hheldName, hheldGet⟩ := hholds.detectors f hf
    have hdistinct : (c.detectors.map Entry.name).Nodup := hholds.names.nodup_iff.mpr hnames
    obtain rfl : detector = held :=
      List.inj_on_of_nodup_map hdistinct hmem hheld (hsame.trans hheldName.symm)
    have hsetting := (hget "type").trans (EntryDocument.setting_of_written hw)
    have htype := (hheldGet "type").trans (EntryDocument.setting_of_written htext)
    exact targets_model_iff ((hget "name").trans hlacks.setting) hsetting hlisted hkept htype hprints

def pair : ConfigurationDocument where
  ignored := none
  global := some ⟨"run", []⟩
  modules := [⟨"Charge", []⟩]
  detectors := [⟨"a", [("type", .string "strip")]⟩, ⟨"b", [("type", .string "pixel")]⟩]

theorem references_as_written_pair :
    ∃ c, load pair ["Charge.name=b, a"] [] = .ok c ∧ ∃ m ∈ c.active, m.index = 0 ∧
      c.TargetsExactly m ["b", "a"] ∧
      ∀ module unknown, c.plan sampleRegistry ≠ .error (.unknownDetector 0 module unknown) := by
  have hreads : (load pair ["Charge.name=b, a"] []).toOption.any fun c => "Charge" ∉ c.ignored := by
    decide +kernel
  cases hload : load pair ["Charge.name=b, a"] [] with
  | error cause =>
    rw [hload] at hreads
    cases hreads
  | ok c =>
    have hactive : "Charge" ∉ c.ignored := by simpa [hload, Except.toOption] using hreads
    obtain ⟨-, -, m, hm, hindex, -, hnames, -⟩ :=
      references_as_written hload (by decide) sampleRegistry (i := 0) rfl hactive
    obtain ⟨hexact, hplan⟩ := (hnames (.option "b, a") (by decide +kernel) (by decide +kernel)
      (by decide +kernel)).mp (by decide +kernel)
    exact ⟨c, rfl, m, hm, hindex, hexact, hplan⟩

/-- A single name that reads as a number with a unit. -/
def padded : String :=
  "[global]\nname = \"run\"\n\n" ++
    "[[modules]]\nname = \"Charge\"\n[modules.settings]\nname = \"01a\"\n\n" ++
    "[[detectors]]\nname = \"01a\"\n[detectors.settings]\ntype = \"strip\"\n"

/-- The detector that is written is there, but a plan looks for another one. -/
theorem plan_misses_padded_name :
    (parse padded).bind (·.plan sampleRegistry) = .error (.unknownDetector 0 "Charge" "1a") := by
  decide +kernel

end TestBeam.Configuration
