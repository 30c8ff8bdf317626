import TestBeam.Proofs.Configuration.Built
import TestBeam.Proofs.Configuration.Validate

/-!
# Plans

A plan has an instance for each entry of a module with one instance. For each other module it has an
instance for every detector that is targeted, which belongs to the most specific entry.
-/

namespace TestBeam.Configuration

variable {φ : Type} {c : Configuration} {registry : Registry φ} {planned : List PlannedInstance}

/-! ## Order -/

/-- By the position of the entry, and for one entry by the name of the detector. -/
def Precedes (a b : PlannedInstance) : Prop :=
  a.index < b.index ∨ a.index = b.index ∧
    ∃ x y, a.id.detector = some x ∧ b.id.detector = some y ∧ x < y

theorem Requested.index {m : ActiveModule} {r : Candidate} (h : Requested c registry m r) :
    r.planned.index = m.index := by
  cases h <;> rfl

theorem strictly_sorted (hsorted : c.Sorted) (hnames : (c.detectors.map Entry.name).Nodup) :
    c.detectors.Pairwise fun a b => a.name < b.name := by
  have hstrict : (c.detectors.map Entry.name).Pairwise fun a b => a < b := by
    apply (hsorted.and hnames).imp
    rintro a b ⟨hle, hne⟩
    rw [← String.not_le]
    exact fun hge => hne (String.le_antisymm hle hge)
  exact List.pairwise_map.mp hstrict

theorem requests_ordered (hsorted : c.Sorted) (hnames : (c.detectors.map Entry.name).Nodup)
    (registry : Registry φ) :
    (c.requests registry c.active).Pairwise fun a b => Precedes a.planned b.planned := by
  refine List.pairwise_flatMap.mpr ⟨fun m _ => ?_, ?_⟩
  · unfold requestsOf
    cases registry.kind? m.entry.name with
    | none => exact List.Pairwise.nil
    | some kind =>
      cases kind with
      | unique => exact List.pairwise_singleton _ _
      | perDetector =>
        have hkept := (strictly_sorted hsorted hnames).filter m.target.selects
        refine List.pairwise_map.mpr (hkept.imp fun {a b} hlt => ?_)
        exact .inr ⟨rfl, a.name, b.name, rfl, rfl, hlt⟩
  · refine c.active_ascending.imp fun {a b} hlt x hx y hy => .inl ?_
    rw [(mem_requestsOf.mp hx).index, (mem_requestsOf.mp hy).index]
    exact hlt

/-! ## Contents -/

theorem filter_eq_singleton {α : Type} [DecidableEq α] {p : α → Bool} {items : List α} {x : α}
    (hdistinct : items.Nodup) (hx : x ∈ items) (honly : ∀ y ∈ items, p y = true ↔ y = x) :
    items.filter p = [x] := by
  have hsame : items.filter p = items.filter (· == x) :=
    List.filter_congr fun y hy => by
      rw [Bool.eq_iff_iff, beq_iff_eq]
      exact honly y hy
  rw [hsame, List.filter_beq, List.count_eq_one_of_mem hdistinct hx]
  rfl

structure Plans (c : Configuration) (registry : Registry φ) (planned : List PlannedInstance) :
    Prop where
  /-- An entry of a module with one instance has exactly that one. -/
  unique : ∀ m ∈ c.active, registry.kind? m.entry.name = some .unique →
    planned.filter (·.index = m.index) = [⟨m.index, ⟨m.entry.name, none⟩, .unique⟩]
  /-- A targeted detector has exactly one instance, of the entry that is more specific than others. -/
  targeted : ∀ name, registry.kind? name = some .perDetector → ∀ detector ∈ c.detectors,
    (∃ m ∈ c.active, m.entry.name = name ∧ m.Targets detector) →
    ∃ m ∈ c.active, m.entry.name = name ∧ m.Targets detector ∧
      (∀ a ∈ c.active, a.entry.name = name → a.Targets detector →
        a = m ∨ a.priority < m.priority) ∧
      planned.filter (·.id = ⟨name, some detector.name⟩) =
        [⟨m.index, ⟨name, some detector.name⟩, .perDetector⟩]
  /-- A detector that is not targeted has no instance. -/
  untargeted : ∀ name, registry.kind? name = some .perDetector → ∀ detector ∈ c.detectors,
    (∀ m ∈ c.active, m.entry.name = name → ¬m.Targets detector) →
    planned.filter (·.id = ⟨name, some detector.name⟩) = []
  ordered : planned.Pairwise Precedes
  distinct : (planned.map PlannedInstance.id).Nodup
  /-- Instances have the kind of their module, and their entry takes part and has its name. -/
  entries : ∀ p ∈ planned, registry.kind? p.id.name = some p.kind ∧
    ∃ entry, c.modules[p.index]? = some entry ∧ entry.name ∉ c.ignored ∧ entry.name = p.id.name
  /-- Instances are for a detector exactly if their module has one for each detector. -/
  detectors : ∀ p ∈ planned, (p.kind = .unique ∧ p.id.detector = none) ∨
    p.kind = .perDetector ∧ ∃ detector ∈ c.detectors, p.id.detector = some detector.name

variable {candidates : List Candidate}

theorem requested_of_remain {entries : List ActiveModule}
    (h : Candidate.Remain (c.requests registry entries) candidates) {x : Candidate}
    (hx : x ∈ candidates) : ∃ m ∈ entries, Requested c registry m x :=
  mem_requests.mp (h.sublist.subset hx)

theorem unique_mem_of_remain {entries : List ActiveModule}
    (h : Candidate.Remain (c.requests registry entries) candidates) {m : ActiveModule}
    (hm : m ∈ entries) (hkind : registry.kind? m.entry.name = some .unique) :
    ⟨⟨m.index, ⟨m.entry.name, none⟩, .unique⟩, 0⟩ ∈ candidates := by
  obtain ⟨x, hx, hid, hcases⟩ := h.outdone _ (mem_requests.mpr ⟨m, hm, .unique hkind⟩)
  rcases hcases with rfl | hless
  · exact hx
  · obtain ⟨a, -, hrequested⟩ := requested_of_remain h hx
    cases hrequested with
    | unique hkind => simp at hless
    | perDetector hkind hmem htargets => exact absurd (congrArg ModuleId.detector hid) (by simp)

/-- Of the entries that target a detector, one is more specific than all others and keeps it. -/
theorem perDetector_mem_of_remain {entries : List ActiveModule}
    (hnames : (c.detectors.map Entry.name).Nodup)
    (h : Candidate.Remain (c.requests registry entries) candidates) {name : String}
    (hkind : registry.kind? name = some .perDetector) {detector : Entry}
    (hmem : detector ∈ c.detectors)
    (htargeted : ∃ m ∈ entries, m.entry.name = name ∧ m.Targets detector) :
    ∃ m ∈ entries, m.entry.name = name ∧ m.Targets detector ∧
      ⟨⟨m.index, ⟨name, some detector.name⟩, .perDetector⟩, m.priority⟩ ∈ candidates ∧
      ∀ a ∈ entries, a.entry.name = name → a.Targets detector →
        a.index = m.index ∨ a.priority < m.priority := by
  have hrequest {r : Candidate} :
      (r ∈ c.requests registry entries ∧ r.planned.id = ⟨name, some detector.name⟩) ↔ _ :=
    mem_requests_perDetector hnames hmem
  obtain ⟨a, ha, haname, hatargets⟩ := htargeted
  obtain ⟨harequested, haid⟩ := hrequest.mpr ⟨hkind, a, ha, haname, hatargets, rfl⟩
  obtain ⟨x, hx, hxid, -⟩ := h.outdone _ harequested
  obtain ⟨-, m, hm, hname, htargets, rfl⟩ :=
    hrequest.mp ⟨h.sublist.subset hx, hxid.trans haid⟩
  refine ⟨m, hm, hname, htargets, hx, fun b hb hbname hbtargets => ?_⟩
  obtain ⟨hbrequested, hbid⟩ := hrequest.mpr ⟨hkind, b, hb, hbname, hbtargets, rfl⟩
  obtain ⟨y, hy, hyid, hcases⟩ := h.outdone _ hbrequested
  obtain rfl := h.eq_of_id hx hy (hyid.trans hbid).symm
  rcases hcases with heq | hless
  · exact .inl (congrArg (fun r => r.planned.index) heq).symm
  · exact .inr hless

theorem plans_of_remain (hsorted : c.Sorted) (hnames : (c.detectors.map Entry.name).Nodup)
    (h : Candidate.Remain (c.requests registry c.active) candidates) :
    c.Plans registry (candidates.map Candidate.planned) := by
  have hdistinct : ((candidates.map Candidate.planned).map PlannedInstance.id).Nodup := by
    rw [List.map_map]
    exact h.distinct
  have hnodup := hdistinct.of_map
  have hid {p q : PlannedInstance} (hp : p ∈ candidates.map Candidate.planned)
      (hq : q ∈ candidates.map Candidate.planned) (heq : p.id = q.id) : p = q :=
    List.inj_on_of_nodup_map hdistinct hp hq heq
  -- Identities differ, so what is filtered for an entry or a detector is one instance or none.
  refine ⟨?_, ?_, ?_, ?_, hdistinct, ?_, ?_⟩
  · intro m hm hkind
    have hmem := List.mem_map_of_mem (f := Candidate.planned) (unique_mem_of_remain h hm hkind)
    apply filter_eq_singleton hnodup hmem
    intro p hp
    rw [decide_eq_true_eq]
    constructor
    · intro hindex
      obtain ⟨x, hx, rfl⟩ := List.mem_map.mp hp
      obtain ⟨a, ha, hrequested⟩ := requested_of_remain h hx
      obtain rfl := eq_of_index ha hm (hrequested.index.symm.trans hindex)
      cases hrequested with
      | unique _ => rfl
      | perDetector hkind' _ _ => simp [hkind] at hkind'
    · rintro rfl
      rfl
  · intro name hkind detector hdetector htargeted
    obtain ⟨m, hm, hname, htargets, hmem, hless⟩ :=
      perDetector_mem_of_remain hnames h hkind hdetector htargeted
    refine ⟨m, hm, hname, htargets, fun a ha haname hatargets => ?_, ?_⟩
    · exact (hless a ha haname hatargets).imp (eq_of_index ha hm) id
    · have hplanned := List.mem_map_of_mem (f := Candidate.planned) hmem
      apply filter_eq_singleton hnodup hplanned
      intro p hp
      rw [decide_eq_true_eq]
      constructor
      · exact hid hp hplanned
      · rintro rfl
        rfl
  · intro name hkind detector hdetector huntargeted
    apply List.filter_eq_nil_iff.mpr
    intro p hp
    rw [decide_eq_true_eq]
    intro heq
    obtain ⟨x, hx, rfl⟩ := List.mem_map.mp hp
    obtain ⟨-, m, hm, hname, htargets, -⟩ :=
      (mem_requests_perDetector hnames hdetector).mp ⟨h.sublist.subset hx, heq⟩
    exact huntargeted m hm hname htargets
  · exact List.pairwise_map.mpr ((requests_ordered hsorted hnames registry).sublist h.sublist)
  · intro p hp
    obtain ⟨x, hx, rfl⟩ := List.mem_map.mp hp
    obtain ⟨m, hm, hrequested⟩ := requested_of_remain h hx
    obtain ⟨hget, hignored⟩ := mem_active.mp hm
    cases hrequested with
    | unique hkind => exact ⟨hkind, m.entry, hget, hignored, rfl⟩
    | perDetector hkind hmem htargets => exact ⟨hkind, m.entry, hget, hignored, rfl⟩
  · intro p hp
    obtain ⟨x, hx, rfl⟩ := List.mem_map.mp hp
    obtain ⟨m, hm, hrequested⟩ := requested_of_remain h hx
    cases hrequested with
    | unique hkind => exact .inl ⟨rfl, rfl⟩
    | perDetector hkind hmem htargets => exact .inr ⟨rfl, _, hmem, rfl⟩

theorem remain_of_plan (hplan : c.plan registry = .ok planned) :
    ∃ candidates, Candidate.Remain (c.requests registry c.active) candidates ∧
      planned = candidates.map Candidate.planned := by
  have hprepared := prepared_of_plan hplan
  rw [plan_of_prepared hprepared] at hplan
  cases hrun : c.active.foldlM (c.addEntry registry) [] with
  | error cause =>
    rw [hrun] at hplan
    cases hplan
  | ok candidates =>
    have hall := allAccepted_of_addEntries_ok hprepared.detectors hrun
    obtain ⟨candidates', hrun', hremain⟩ := addEntries_ok hprepared.detectors hall
    obtain rfl : candidates = candidates' := by simpa [hrun] using hrun'
    obtain rfl : candidates.map Candidate.planned = planned := by
      simpa [hrun, Except.map] using hplan
    exact ⟨candidates, hremain, rfl⟩

theorem distinct_of_plan (hplan : c.plan registry = .ok planned) :
    (planned.map PlannedInstance.id).Nodup := by
  obtain ⟨candidates, hremain, rfl⟩ := remain_of_plan hplan
  rw [List.map_map]
  exact hremain.distinct

theorem registered_of_plan (hplan : c.plan registry = .ok planned) {p : PlannedInstance}
    (hp : p ∈ planned) : registry.kind? p.id.name = some p.kind := by
  obtain ⟨candidates, hremain, rfl⟩ := remain_of_plan hplan
  obtain ⟨x, hx, rfl⟩ := List.mem_map.mp hp
  obtain ⟨m, -, hrequested⟩ := requested_of_remain hremain hx
  cases hrequested with
  | unique hkind => exact hkind
  | perDetector hkind hmem htargets => exact hkind

/-- A configuration that passes its checks has a plan with the right instances in the right order. -/
theorem plan_plans (hbuilt : c.Built) (hplan : c.plan registry = .ok planned) :
    c.Plans registry planned := by
  have hprepared := prepared_of_plan hplan
  obtain ⟨candidates, hremain, rfl⟩ := remain_of_plan hplan
  exact plans_of_remain hbuilt.sorted hprepared.detectors hremain

/-! ## A sample -/

def sampleRegistry : Registry Unit :=
  .ofList [("Charge", .perDetector, ()), ("Write", .unique, ())]

def sample : Configuration where
  global := some (.empty "run")
  modules := [.empty "Charge", (Entry.empty "Charge").set "name" (.text "b"), .empty "Ignore",
    .empty "Write"]
  detectors := [(Entry.empty "a").set "type" (.text "strip"),
    (Entry.empty "b").set "type" (.text "pixel")]

def samplePlan : List PlannedInstance :=
  [⟨0, ⟨"Charge", some "a"⟩, .perDetector⟩, ⟨1, ⟨"Charge", some "b"⟩, .perDetector⟩,
    ⟨3, ⟨"Write", none⟩, .unique⟩]

theorem sample_built : sample.Built := by
  have hmodules : ∀ entry ∈ sample.modules, entry.Built := by
    unfold sample
    simp only [List.forall_mem_cons]
    exact ⟨.empty _, (Entry.Built.empty _).set _ _, .empty _, .empty _, by simp⟩
  have hdetectors : ∀ entry ∈ sample.detectors, entry.Built := by
    unfold sample
    simp only [List.forall_mem_cons]
    exact ⟨(Entry.Built.empty _).set _ _, (Entry.Built.empty _).set _ _, by simp⟩
  have hbuilt := ((Built.new.setGlobal (.empty "run")).setModules hmodules).setDetectors hdetectors
  rwa [setDetectors_of_sorted (by decide +kernel)] at hbuilt

theorem plan_plans_sample : sample.Built ∧ sample.plan sampleRegistry = .ok samplePlan ∧
    sample.Plans sampleRegistry samplePlan := by
  have hplan : sample.plan sampleRegistry = .ok samplePlan := by decide +kernel
  exact ⟨sample_built, hplan, plan_plans sample_built hplan⟩

end TestBeam.Configuration
