import TestBeam.Proofs.Stage.Environment

/-!
# Instances of the built-in stages

An instance that a run constructs from its plan has the stage that its name says, for the detector that its
name says.
-/

namespace TestBeam

namespace Registry

variable {φ : Type} {name : String} {registration : Registration φ}

theorem mem_of_get?_foldl (modules : List (String × ModuleKind × φ)) (registry : Registry φ)
    (h : NameMap.get? (modules.foldl
      (fun registry (name, kind, factory) => register registry name kind factory) registry) name =
        some registration) :
    (name, registration.kind, registration.factory) ∈ modules ∨
      NameMap.get? registry name = some registration := by
  induction modules generalizing registry with
  | nil => exact .inr h
  | cons first rest ih =>
    rcases ih _ h with hrest | hfirst
    · exact .inl (List.mem_cons_of_mem first hrest)
    · unfold register at hfirst
      rw [NameMap.get?_insert] at hfirst
      split at hfirst
      case isTrue hname =>
        obtain rfl := Option.some.inj hfirst
        exact .inl (by simp [hname])
      case isFalse => exact .inr hfirst

theorem mem_of_resolve {modules : List (String × ModuleKind × φ)}
    (h : (ofList modules).resolve name = .ok registration) :
    (name, registration.kind, registration.factory) ∈ modules := by
  unfold resolve at h
  split at h
  case h_1 found hget =>
    obtain rfl := Except.ok.inj h
    exact (mem_of_get?_foldl modules NameMap.empty hget).resolve_right nofun
  case h_2 => cases h

end Registry

namespace Stage

/-! ## Stages and names -/

/-- A stage is the one that the name of its instance says. -/
inductive Serves (detectors : List String) : ModuleId → Stage → Prop where
  | placing (s : Placing) : Serves detectors ⟨Placing.name, none⟩ (.placing s)
  | magneticField (s : MagneticFieldSource) :
      Serves detectors ⟨MagneticFieldSource.name, none⟩ (.magneticField s)
  | electricField (s : ElectricFieldSource) (h : s.detector ∈ detectors) :
      Serves detectors ⟨ElectricFieldSource.name, some s.detector⟩ (.electricField s)
  | particleSource (s : ParticleSource) :
      Serves detectors ⟨ParticleSource.name, none⟩ (.particleSource s)
  | propagation (s : Propagation) (h : s.id = ⟨Propagation.name, some s.detector⟩) :
      Serves detectors ⟨Propagation.name, some s.detector⟩ (.propagation s)
  | transfer (s : Transfer) (h : s.id = ⟨Transfer.name, some s.detector⟩) :
      Serves detectors ⟨Transfer.name, some s.detector⟩ (.transfer s)
  | digitizer (s : Digitizer) (detector : String) (h : s.id = ⟨Digitizer.name, some detector⟩) :
      Serves detectors ⟨Digitizer.name, some detector⟩ (.digitizer s)
  | planeHistogram (s : PlaneHistogram) (h : s.detector ∈ detectors) :
      Serves detectors ⟨PlaneHistogram.name, some s.detector⟩ (.planeHistogram s)

section Setups

variable {setup : Setup}

theorem ElectricFieldSource.ofSetup_ok {stage : ElectricFieldSource} (h : ofSetup setup = .ok stage) :
    ∃ detector, setup.requireDetector = .ok detector ∧ stage.detector = detector.name := by
  unfold ofSetup at h
  obtain ⟨detector, hdetector, h⟩ := exists_of_bind_ok h
  obtain ⟨word, -, h⟩ := exists_of_bind_ok h
  obtain ⟨voltage, -, h⟩ := exists_of_bind_ok h
  obtain ⟨bias, -, h⟩ := exists_of_bind_ok h
  exact ⟨detector, hdetector, Except.ok.inj h ▸ rfl⟩

theorem Propagation.ofSetup_ok {stage : Propagation} (h : ofSetup setup = .ok stage) :
    ∃ detector, setup.requireDetector = .ok detector ∧
      stage.id = setup.id ∧ stage.detector = detector.name := by
  unfold ofSetup at h
  obtain ⟨detector, hdetector, h⟩ := exists_of_bind_ok h
  obtain ⟨settings, -, h⟩ := exists_of_bind_ok h
  exact ⟨detector, hdetector, Except.ok.inj h ▸ ⟨rfl, rfl⟩⟩

theorem Transfer.ofSetup_ok {stage : Transfer} (h : ofSetup setup = .ok stage) :
    ∃ detector, setup.requireDetector = .ok detector ∧
      stage.id = setup.id ∧ stage.detector = detector.name := by
  unfold ofSetup at h
  obtain ⟨distance, -, h⟩ := exists_of_bind_ok h
  obtain ⟨-, -, h⟩ := exists_of_bind_ok h
  obtain ⟨detector, hdetector, h⟩ := exists_of_bind_ok h
  exact ⟨detector, hdetector, Except.ok.inj h ▸ ⟨rfl, rfl⟩⟩

theorem Digitizer.ofSetup_ok {stage : Digitizer} (h : ofSetup setup = .ok stage) :
    ∃ detector, setup.requireDetector = .ok detector ∧ stage.id = setup.id := by
  unfold ofSetup at h
  obtain ⟨detector, hdetector, h⟩ := exists_of_bind_ok h
  obtain ⟨threshold, -, h⟩ := exists_of_bind_ok h
  obtain ⟨noise, -, h⟩ := exists_of_bind_ok h
  obtain ⟨-, -, h⟩ := exists_of_bind_ok h
  obtain ⟨resolution, -, h⟩ := exists_of_bind_ok h
  obtain ⟨-, -, h⟩ := exists_of_bind_ok h
  exact ⟨detector, hdetector, Except.ok.inj h ▸ rfl⟩

theorem PlaneHistogram.ofSetup_ok {stage : PlaneHistogram} (h : ofSetup setup = .ok stage) :
    ∃ detector, setup.requireDetector = .ok detector ∧ stage.detector = detector.name := by
  unfold ofSetup at h
  obtain ⟨detector, hdetector, h⟩ := exists_of_bind_ok h
  obtain ⟨binsX, -, h⟩ := exists_of_bind_ok h
  obtain ⟨binsY, -, h⟩ := exists_of_bind_ok h
  obtain ⟨range, -, h⟩ := exists_of_bind_ok h
  obtain ⟨histogram, -, h⟩ := exists_of_bind_ok h
  exact ⟨detector, hdetector, Except.ok.inj h ▸ rfl⟩

/-- A setup is one for an instance of a module of this kind. -/
structure Suits (detectors : List String) (kind : ModuleKind) (id : ModuleId) (setup : Setup) :
    Prop where
  same : setup.id = id
  unique : kind = .unique → id.detector = none
  perDetector : kind = .perDetector → ∀ detector, setup.requireDetector = .ok detector →
    id.detector = some detector.name ∧ detector.name ∈ detectors

theorem serves_of_mem_table {detectors : List String} {kind : ModuleKind}
    {build : Setup → Except StageError Stage} {id : ModuleId}
    (hmem : (id.name, kind, build) ∈ table) (hsuits : Suits detectors kind id setup) {stage : Stage}
    (h : build setup = .ok stage) : Serves detectors id stage := by
  obtain ⟨hid, hunique, hperDetector⟩ := hsuits
  obtain ⟨name, detector?⟩ := id
  unfold table at hmem
  simp only [List.mem_cons, Prod.mk.injEq, List.not_mem_nil, or_false] at hmem hunique hperDetector
  rcases hmem with ⟨rfl, rfl, rfl⟩ | ⟨rfl, rfl, rfl⟩ | ⟨rfl, rfl, rfl⟩ | ⟨rfl, rfl, rfl⟩ |
    ⟨rfl, rfl, rfl⟩ | ⟨rfl, rfl, rfl⟩ | ⟨rfl, rfl, rfl⟩ | ⟨rfl, rfl, rfl⟩
  all_goals obtain ⟨s, hs, rfl⟩ := exists_of_map_ok h
  · obtain rfl := hunique rfl
    exact .placing s
  · obtain rfl := hunique rfl
    exact .magneticField s
  · obtain ⟨detector, hrequire, hdetector⟩ := ElectricFieldSource.ofSetup_ok hs
    obtain ⟨rfl, hlisted⟩ := hperDetector rfl detector hrequire
    rw [← hdetector] at hlisted ⊢
    exact .electricField s hlisted
  · obtain rfl := hunique rfl
    exact .particleSource s
  · obtain ⟨detector, hrequire, hsame, hdetector⟩ := Propagation.ofSetup_ok hs
    obtain ⟨rfl, -⟩ := hperDetector rfl detector hrequire
    rw [← hdetector] at hid ⊢
    exact .propagation s (hsame.trans hid)
  · obtain ⟨detector, hrequire, hsame, hdetector⟩ := Transfer.ofSetup_ok hs
    obtain ⟨rfl, -⟩ := hperDetector rfl detector hrequire
    rw [← hdetector] at hid ⊢
    exact .transfer s (hsame.trans hid)
  · obtain ⟨detector, hrequire, hsame⟩ := Digitizer.ofSetup_ok hs
    obtain ⟨rfl, -⟩ := hperDetector rfl detector hrequire
    exact .digitizer s detector.name (hsame.trans hid)
  · obtain ⟨detector, hrequire, hdetector⟩ := PlaneHistogram.ofSetup_ok hs
    obtain ⟨rfl, hlisted⟩ := hperDetector rfl detector hrequire
    rw [← hdetector] at hlisted ⊢
    exact .planeHistogram s hlisted

end Setups

/-! ## Construction -/

section Construction

variable {σ : Type} [FileStore (StateM σ)] {c : Configuration} {global : Entry}
  {clock : StateM σ Float} {b : Blueprint (Setup → StateM σ (Except StageError Stage))}

theorem suits_of_fits (h : b.Fits c (environment clock).registry global) :
    Suits (c.detectors.map Entry.name) b.registration.kind b.planned.id b.setup where
  same := h.id
  unique hkind := (h.unique (h.kind.symm.trans hkind)).1
  perDetector hkind found hfound := by
    obtain ⟨detector, hid, hrequire, hentry, hname⟩ := h.perDetector (h.kind.symm.trans hkind)
    obtain rfl : detector = found := Except.ok.inj (hrequire.symm.trans hfound)
    exact ⟨hid, hname ▸ List.mem_map_of_mem hentry⟩

theorem exists_build (h : b.Fits c (environment clock).registry global) :
    ∃ build, (b.planned.id.name, b.registration.kind, build) ∈ table ∧
      b.registration.factory = (fun setup => pure (build setup)) ∧
      ∀ stage, build b.setup = .ok stage → Serves (c.detectors.map Entry.name) b.planned.id stage := by
  have hmem := Registry.mem_of_resolve h.registered
  have hsuits := suits_of_fits h
  obtain ⟨⟨name, kind, build⟩, hbuild, hentry⟩ := List.mem_map.mp hmem
  obtain ⟨rfl, hkind, hfactory⟩ : name = b.planned.id.name ∧ kind = b.registration.kind ∧
      (fun setup => pure (build setup)) = b.registration.factory := by
    simpa using hentry
  rw [hkind] at hbuild
  exact ⟨build, hbuild, hfactory.symm, fun stage hstage => serves_of_mem_table hbuild hsuits hstage⟩

theorem constructAll_run (blueprints : List (Blueprint (Setup → StateM σ (Except StageError Stage))))
    (hfits : ∀ b ∈ blueprints, b.Fits c (environment clock).registry global) (world : σ) :
    (∃ index id cause, (Blueprint.constructAll blueprints).run world =
      (.error (.construction index id cause), world)) ∨
    ∃ instances, (Blueprint.constructAll blueprints).run world = (.ok instances, world) ∧
      instances.map Instance.slot = blueprints.map (fun b => b.planned.slot) ∧
      ∀ i ∈ instances, Serves (c.detectors.map Entry.name) i.id i.module := by
  induction blueprints with
  | nil => exact .inr ⟨[], rfl, rfl, by simp⟩
  | cons b rest ih =>
    obtain ⟨hfirst, hrest⟩ := List.forall_mem_cons.mp hfits
    obtain ⟨build, -, hfactory, hserves⟩ := exists_build hfirst
    rw [Blueprint.constructAll, hfactory, pure_bind]
    cases hbuild : build b.setup with
    | error cause => exact .inl ⟨b.planned.index, b.planned.id, cause, rfl⟩
    | ok stage =>
      simp only [Environment.run_bind_world]
      rcases ih hrest with ⟨index, id, cause, hrun⟩ | ⟨instances, hrun, hslots, hinstances⟩
      · rw [hrun]
        exact .inl ⟨index, id, cause, rfl⟩
      · rw [hrun]
        refine .inr ⟨⟨b.planned.index, b.planned.id, stage, 0⟩ :: instances, rfl, ?_, ?_⟩
        · rw [List.map_cons, List.map_cons, hslots]
          rfl
        · exact List.forall_mem_cons.mpr ⟨hserves stage hbuild, hinstances⟩

end Construction

end Stage

end TestBeam
