import TestBeam.Proofs.Configuration.Candidates

/-!
# Requests

An entry of the sequence passes its own checks and then asks for instances. The entries before it only
matter through the instances that they asked for.
-/

namespace TestBeam

def Registry.kind? {φ : Type} (registry : Registry φ) (name : String) : Option ModuleKind :=
  (NameMap.get? registry name).map Registration.kind

namespace Configuration

namespace ActiveModule

/-! ## Targets -/

/-- Two for an entry that lists names, one for an entry that lists models. -/
def priority (m : ActiveModule) : Nat :=
  if m.entry.names "name" ≠ [] then 2
  else if m.entry.names "type" ≠ [] then 1
  else 0

/-- An entry targets the detectors it names, or those of the models it lists, or all of them. -/
def Targets (m : ActiveModule) (detector : Entry) : Prop :=
  if m.entry.names "name" ≠ [] then detector.name ∈ m.entry.names "name"
  else if m.entry.names "type" ≠ [] then detector.textOr "type" "" ∈ m.entry.names "type"
  else True

def target (m : ActiveModule) : Target :=
  .ofLists (m.entry.names "name") (m.entry.names "type")

theorem specificity_target (m : ActiveModule) : m.target.specificity = m.priority := by
  unfold target Target.ofLists priority
  by_cases hnames : m.entry.names "name" = []
  · by_cases hmodels : m.entry.names "type" = []
    · simp [hnames, hmodels, Target.specificity]
    · simp [hnames, hmodels, Target.specificity]
  · simp [hnames, Target.specificity]

theorem selects_target (m : ActiveModule) (detector : Entry) :
    m.target.selects detector = true ↔ m.Targets detector := by
  unfold target Target.ofLists Targets
  by_cases hnames : m.entry.names "name" = []
  · by_cases hmodels : m.entry.names "type" = []
    · simp [hnames, hmodels, Target.selects]
    · simp [hnames, hmodels, Target.selects]
  · simp [hnames, Target.selects]

end ActiveModule

theorem mem_active {c : Configuration} {m : ActiveModule} :
    m ∈ c.active ↔ c.modules[m.index]? = some m.entry ∧ m.entry.name ∉ c.ignored := by
  unfold active
  simp only [List.mem_filter, List.mem_map, decide_eq_true_eq, and_congr_left_iff]
  intro _
  constructor
  · rintro ⟨⟨entry, index⟩, hmem, rfl⟩
    exact List.mem_zipIdx_iff_getElem?.mp hmem
  · intro h
    exact ⟨(m.entry, m.index), List.mem_zipIdx_iff_getElem?.mpr h, rfl⟩

theorem active_ascending (c : Configuration) :
    c.active.Pairwise fun a b => a.index < b.index := by
  refine List.Pairwise.filter _ (List.pairwise_map.mpr ?_)
  have hrange : (c.modules.zipIdx.map Prod.snd).Pairwise (· < ·) := by
    rw [List.zipIdx_map_snd]
    exact List.pairwise_lt_range'
  exact List.pairwise_map.mp hrange

/-! ## Requested instances -/

variable {φ : Type} (c : Configuration) (registry : Registry φ)

def requestsOf (m : ActiveModule) : List Candidate :=
  match registry.kind? m.entry.name with
  | some kind => c.candidatesOf m kind m.target
  | none => []

def requests (entries : List ActiveModule) : List Candidate :=
  entries.flatMap (c.requestsOf registry)

/-- An entry of a module with one instance asks for it, any other for one instance a target. -/
inductive Requested (m : ActiveModule) : Candidate → Prop where
  | unique (hkind : registry.kind? m.entry.name = some .unique) :
      Requested m ⟨⟨m.index, ⟨m.entry.name, none⟩, .unique⟩, 0⟩
  | perDetector (hkind : registry.kind? m.entry.name = some .perDetector) {detector : Entry}
      (hmem : detector ∈ c.detectors) (htargets : m.Targets detector) :
      Requested m ⟨⟨m.index, ⟨m.entry.name, some detector.name⟩, .perDetector⟩, m.priority⟩

variable {c registry} {entries : List ActiveModule} {m : ActiveModule} {r : Candidate}

theorem mem_requestsOf : r ∈ c.requestsOf registry m ↔ Requested c registry m r := by
  unfold requestsOf
  cases hkind : registry.kind? m.entry.name with
  | none =>
    constructor
    · intro h
      simp at h
    · rintro (h | h) <;> simp [hkind] at h
  | some kind =>
    cases kind with
    | unique =>
      constructor
      · intro h
        obtain rfl : r = ⟨⟨m.index, ⟨m.entry.name, none⟩, .unique⟩, 0⟩ := by
          simpa [candidatesOf] using h
        exact .unique hkind
      · rintro (h | h)
        · simp [candidatesOf]
        · simp [hkind] at h
    | perDetector =>
      constructor
      · intro h
        obtain ⟨detector, hdetector, rfl⟩ := List.mem_map.mp h
        obtain ⟨hmem, hselects⟩ := List.mem_filter.mp hdetector
        rw [m.specificity_target]
        exact .perDetector hkind hmem ((m.selects_target detector).mp hselects)
      · rintro (h | @⟨h, detector, hmem, htargets⟩)
        · simp [hkind] at h
        · rw [← m.specificity_target]
          exact List.mem_map.mpr ⟨detector,
            List.mem_filter.mpr ⟨hmem, (m.selects_target detector).mpr htargets⟩, rfl⟩

theorem mem_requests :
    r ∈ c.requests registry entries ↔ ∃ m ∈ entries, Requested c registry m r := by
  simp [requests, mem_requestsOf]

theorem requests_append (before : List ActiveModule) (m : ActiveModule) :
    c.requests registry (before ++ [m]) =
      c.requests registry before ++ c.requestsOf registry m := by
  simp [requests]

theorem requestsOf_distinct (hnames : (c.detectors.map Entry.name).Nodup) (registry : Registry φ)
    (m : ActiveModule) :
    ((c.requestsOf registry m).map (·.planned.id)).Nodup := by
  unfold requestsOf
  cases registry.kind? m.entry.name with
  | none => simp
  | some kind =>
    cases kind with
    | unique => simp [candidatesOf]
    | perDetector =>
      have hkept : ((c.detectors.filter m.target.selects).map Entry.name).Nodup :=
        hnames.sublist (List.filter_sublist.map _)
      have hids : ((c.detectors.filter m.target.selects).map Entry.name).map
          (fun name => (⟨m.entry.name, some name⟩ : ModuleId)) =
          (c.candidatesOf m .perDetector m.target).map (·.planned.id) := by
        simp [candidatesOf]
      rw [← hids]
      exact hkept.map fun a b h => by simpa using h

/-! ## Accepted and refused entries -/

/-- An earlier entry of the module is as specific about a detector, and none is more specific. -/
def Contested (before : List ActiveModule) (m : ActiveModule) (detector : Entry) : Prop :=
  (∃ a ∈ before, a.entry.name = m.entry.name ∧ a.Targets detector ∧ a.priority = m.priority) ∧
    ∀ k ∈ before, k.entry.name = m.entry.name → k.Targets detector → k.priority ≤ m.priority

section Checks

variable (c : Configuration) (registry : Registry φ) (before : List ActiveModule) (m : ActiveModule)

def KnowsNames : Prop :=
  ∀ name ∈ m.entry.names "name", name ∈ c.detectors.map Entry.name

structure Accepted : Prop where
  module : (registry.kind? m.entry.name).isSome
  names : c.KnowsNames m
  lists : m.entry.names "name" = [] ∨ m.entry.names "type" = []
  single : registry.kind? m.entry.name = some .unique →
    ∀ a ∈ before, a.entry.name ≠ m.entry.name
  free : registry.kind? m.entry.name = some .perDetector →
    ∀ detector ∈ c.detectors, m.Targets detector → ¬Contested before m detector

/-- The first check that an entry fails behind the entries before it, as the error that names it. -/
inductive Refused : ConfigurationError → Prop where
  | module {cause : LookupError} (hresolve : registry.resolve m.entry.name = .error cause) :
      Refused (.unknownModule m.index cause)
  | names (hmodule : (registry.kind? m.entry.name).isSome) {known rest : List String}
      {unknown : String} (hnames : m.entry.names "name" = known ++ unknown :: rest)
      (hknown : ∀ name ∈ known, name ∈ c.detectors.map Entry.name)
      (hunknown : unknown ∉ c.detectors.map Entry.name) :
      Refused (.unknownDetector m.index m.entry.name unknown)
  | lists (hmodule : (registry.kind? m.entry.name).isSome) (hnames : c.KnowsNames m)
      (hboth : m.entry.names "name" ≠ [] ∧ m.entry.names "type" ≠ []) :
      Refused (.malformedSetting (.invalid m.entry.name "type"
        (", ".intercalate (m.entry.names "type")) "cannot be combined with 'name'"))
  | repeated (hkind : registry.kind? m.entry.name = some .unique) (hnames : c.KnowsNames m)
      (hlists : m.entry.names "name" = [] ∨ m.entry.names "type" = [])
      {a : ActiveModule} (hmem : a ∈ before) (hname : a.entry.name = m.entry.name) :
      Refused (.duplicateModule m.index ⟨m.entry.name, none⟩)
  | contested (hkind : registry.kind? m.entry.name = some .perDetector) (hnames : c.KnowsNames m)
      (hlists : m.entry.names "name" = [] ∨ m.entry.names "type" = [])
      {earlier later : List Entry} {detector : Entry}
      (hsplit : c.detectors = earlier ++ detector :: later)
      (hearlier : ∀ d ∈ earlier, m.Targets d → ¬Contested before m d)
      (htargets : m.Targets detector) (hcontested : Contested before m detector) :
      Refused (.duplicateModule m.index ⟨m.entry.name, some detector.name⟩)

end Checks

variable {before : List ActiveModule} {candidates : List Candidate}

/-! ## Clashes -/

theorem clashes_unique (hkind : registry.kind? m.entry.name = some .unique) :
    Candidate.Clashes (c.requests registry before)
        ⟨⟨m.index, ⟨m.entry.name, none⟩, .unique⟩, 0⟩ ↔
      ∃ a ∈ before, a.entry.name = m.entry.name := by
  constructor
  · rintro ⟨⟨r, hr, hid, -⟩, -⟩
    obtain ⟨a, ha, hrequested⟩ := mem_requests.mp hr
    cases hrequested with
    | unique hkind => exact ⟨a, ha, congrArg ModuleId.name hid⟩
    | perDetector hkind hmem htargets => exact absurd (congrArg ModuleId.detector hid) (by simp)
  · rintro ⟨a, ha, hname⟩
    refine ⟨⟨⟨⟨a.index, ⟨a.entry.name, none⟩, .unique⟩, 0⟩,
      mem_requests.mpr ⟨a, ha, .unique (hname ▸ hkind)⟩, by simp [hname], rfl⟩, ?_⟩
    intro r hr hid
    obtain ⟨b, hb, hrequested⟩ := mem_requests.mp hr
    cases hrequested with
    | unique hkind => exact Nat.le_refl _
    | perDetector hkind hmem htargets => exact absurd (congrArg ModuleId.detector hid) (by simp)

theorem mem_requests_perDetector (hnames : (c.detectors.map Entry.name).Nodup) {detector : Entry}
    (hmem : detector ∈ c.detectors) {name : String} :
    (r ∈ c.requests registry before ∧ r.planned.id = ⟨name, some detector.name⟩) ↔
      registry.kind? name = some .perDetector ∧
        ∃ a ∈ before, a.entry.name = name ∧ a.Targets detector ∧
          r = ⟨⟨a.index, ⟨name, some detector.name⟩, .perDetector⟩, a.priority⟩ := by
  constructor
  · rintro ⟨hr, hid⟩
    obtain ⟨a, ha, hrequested⟩ := mem_requests.mp hr
    cases hrequested with
    | unique hkind => exact absurd (congrArg ModuleId.detector hid) (by simp)
    | @perDetector hkind d hd htargets =>
      obtain ⟨hname, hdetector⟩ : a.entry.name = name ∧ d.name = detector.name := by
        simpa using hid
      obtain rfl := List.inj_on_of_nodup_map hnames hd hmem hdetector
      subst hname
      exact ⟨hkind, a, ha, rfl, htargets, rfl⟩
  · rintro ⟨hkind, a, ha, rfl, htargets, rfl⟩
    exact ⟨mem_requests.mpr ⟨a, ha, .perDetector hkind hmem htargets⟩, rfl⟩

theorem clashes_perDetector (hnames : (c.detectors.map Entry.name).Nodup)
    (hkind : registry.kind? m.entry.name = some .perDetector) {detector : Entry}
    (hmem : detector ∈ c.detectors) :
    Candidate.Clashes (c.requests registry before)
        ⟨⟨m.index, ⟨m.entry.name, some detector.name⟩, .perDetector⟩, m.priority⟩ ↔
      Contested before m detector := by
  have hrequest {r : Candidate} :
      (r ∈ c.requests registry before ∧ r.planned.id = ⟨m.entry.name, some detector.name⟩) ↔ _ :=
    mem_requests_perDetector hnames hmem
  constructor
  · rintro ⟨⟨r, hr, hid, hspecificity⟩, hle⟩
    obtain ⟨-, a, ha, hname, htargets, rfl⟩ := hrequest.mp ⟨hr, hid⟩
    refine ⟨⟨a, ha, hname, htargets, hspecificity⟩, fun k hk hkname hktargets => ?_⟩
    obtain ⟨hmemk, hidk⟩ := hrequest.mpr ⟨hkind, k, hk, hkname, hktargets, rfl⟩
    exact hle _ hmemk hidk
  · rintro ⟨⟨a, ha, hname, htargets, hpriority⟩, hle⟩
    obtain ⟨hmema, hida⟩ := hrequest.mpr ⟨hkind, a, ha, hname, htargets, rfl⟩
    refine ⟨⟨_, hmema, hida, hpriority⟩, fun r hr hid => ?_⟩
    obtain ⟨-, k, hk, hkname, hktargets, rfl⟩ := hrequest.mp ⟨hr, hid⟩
    exact hle k hk hkname hktargets

end Configuration

end TestBeam
