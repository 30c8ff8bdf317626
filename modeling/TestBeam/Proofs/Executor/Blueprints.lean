import TestBeam.Proofs.Executor.Run

/-!
# Blueprints

A plan already settles what each of its instances is constructed from. A run of a configuration with a plan
looks all of it up again, and none of these look-ups can fail or find anything else.
-/

namespace TestBeam

structure Blueprint (φ : Type) where
  planned : PlannedInstance
  registration : Registration φ
  setup : Setup

namespace Blueprint

variable {φ ι : Type} {m : Type → Type} [Monad m]

/-- The blueprint holds what the configuration and the registry say about its instance. -/
structure Fits (c : Configuration) (registry : Registry φ) (global : Entry) (b : Blueprint φ) :
    Prop where
  registered : registry.resolve b.planned.id.name = .ok b.registration
  kind : b.registration.kind = b.planned.kind
  id : b.setup.id = b.planned.id
  global : b.setup.global = global
  entry : c.modules[b.planned.index]? = some b.setup.entry
  named : b.setup.entry.name = b.planned.id.name
  unique : b.planned.kind = .unique → b.planned.id.detector = none ∧ b.setup.detector = none
  perDetector : b.planned.kind = .perDetector → ∃ detector,
    b.planned.id.detector = some detector.name ∧ b.setup.requireDetector = .ok detector ∧
      detector.entry ∈ c.detectors ∧ detector.entry.name = detector.name

def constructAll : List (Blueprint (Setup → m (Except StageError ι))) →
    m (Except RunError (List (Instance ι)))
  | [] => return .ok []
  | b :: rest => do
    match ← b.registration.factory b.setup with
    | .error cause => return .error (.construction b.planned.index b.planned.id cause)
    | .ok module =>
      match ← constructAll rest with
      | .error e => return .error e
      | .ok instances => return .ok (⟨b.planned.index, b.planned.id, module, 0⟩ :: instances)

end Blueprint

variable {σ ι φ : Type} {c : Configuration} {registry : Registry φ} {planned : List PlannedInstance}

/-! ## Detectors -/

theorem Detector.ofEntry_ok {entry : Entry} {detector : Detector}
    (h : ofEntry entry = .ok detector) : detector.entry = entry ∧ detector.name = entry.name := by
  unfold ofEntry at h
  obtain ⟨model, -, rfl⟩ := exists_of_map_ok h
  exact ⟨rfl, rfl⟩

theorem DetectorTable.entries_perm {entries : List Entry} {table : DetectorTable}
    (h : ofEntries entries = .ok table) :
    (table.detectors.map Detector.entry).Perm entries ∧
      ∀ d ∈ table.detectors, d.name = d.entry.name := by
  unfold ofEntries at h
  obtain ⟨read, hread, rfl⟩ := exists_of_map_ok h
  have hperm : (sortByName Detector.name read).Perm read := sortByName_perm _ _
  constructor
  · refine (hperm.map _).trans (.of_eq ?_)
    clear h hperm
    rw [mapM_ok_iff] at hread
    induction hread with
    | nil => rfl
    | cons hfirst _ ih => rw [List.map_cons, ih, (Detector.ofEntry_ok hfirst).1]
  · intro d hd
    obtain ⟨source, -, hofEntry⟩ := exists_of_mapM_ok hread (hperm.mem_iff.mp hd)
    obtain ⟨rfl, hname⟩ := Detector.ofEntry_ok hofEntry
    exact hname

theorem DetectorTable.get?_of_mem {entries : List Entry} {table : DetectorTable}
    (h : ofEntries entries = .ok table) {entry : Entry} (hmem : entry ∈ entries) :
    ∃ detector, table.get? entry.name = some detector ∧ detector.name = entry.name ∧
      detector.entry ∈ entries ∧ detector.entry.name = detector.name := by
  obtain ⟨hperm, hnames⟩ := entries_perm h
  have hfound : (table.get? entry.name).isSome := by
    obtain ⟨d, hd, rfl⟩ := List.mem_map.mp (hperm.mem_iff.mpr hmem)
    unfold get?
    rw [List.find?_isSome]
    exact ⟨d, hd, by simp [hnames d hd]⟩
  obtain ⟨detector, hdetector⟩ := Option.isSome_iff_exists.mp hfound
  have hmem := List.mem_of_find?_eq_some hdetector
  have hname := List.find?_some hdetector
  refine ⟨detector, hdetector, by simpa using hname, ?_, (hnames detector hmem).symm⟩
  exact hperm.mem_iff.mp (List.mem_map_of_mem hmem)

/-! ## Blueprints of a plan -/

theorem requested_of_plan (hplan : c.plan registry = .ok planned) {p : PlannedInstance}
    (hp : p ∈ planned) :
    ∃ m ∈ c.active, ∃ r, Configuration.Requested c registry m r ∧ r.planned = p := by
  obtain ⟨candidates, hremain, rfl⟩ := Configuration.remain_of_plan hplan
  obtain ⟨r, hr, rfl⟩ := List.mem_map.mp hp
  obtain ⟨m, hm, hrequested⟩ := Configuration.requested_of_remain hremain hr
  exact ⟨m, hm, r, hrequested, rfl⟩

namespace Environment

theorem setupOf_fits (hplan : c.plan registry = .ok planned) {p : PlannedInstance}
    (hp : p ∈ planned) {table : DetectorTable}
    (htable : DetectorTable.ofEntries c.detectors = .ok table) (global : Entry) (seed : UInt64) :
    ∃ registration, Blueprint.Fits c registry global
      ⟨p, registration, setupOf c global table p seed⟩ := by
  obtain ⟨m, hm, r, hrequested, rfl⟩ := requested_of_plan hplan hp
  have hentry := (Configuration.mem_active.mp hm).1
  cases hrequested with
  | unique hkind =>
    obtain ⟨factory, hresolve⟩ := Configuration.resolve_of_kind hkind
    exact ⟨_, {
      registered := hresolve
      kind := rfl
      id := rfl
      global := rfl
      entry := by simp [setupOf, hentry]
      named := by simp [setupOf, hentry]
      unique := fun _ => ⟨rfl, rfl⟩
      perDetector := by simp }⟩
  | @perDetector hkind entry hmem htargets =>
    obtain ⟨factory, hresolve⟩ := Configuration.resolve_of_kind hkind
    obtain ⟨detector, hget, hname, hsource, hsame⟩ := DetectorTable.get?_of_mem htable hmem
    exact ⟨_, {
      registered := hresolve
      kind := rfl
      id := rfl
      global := rfl
      entry := by simp [setupOf, hentry]
      named := by simp [setupOf, hentry]
      unique := by simp
      perDetector := fun _ =>
        ⟨detector, by rw [hname], by simp [Setup.requireDetector, setupOf, hget], hsource, hsame⟩ }⟩

variable {m : Type → Type} [Monad m] (env : Environment m ι)

/-- Where everything fits, constructing from a plan is constructing from blueprints. -/
theorem construct_eq_constructAll {global : Entry} {table : DetectorTable}
    (hfits : ∀ p ∈ planned, ∀ seed, ∃ registration, Blueprint.Fits c env.registry global
      ⟨p, registration, setupOf c global table p seed⟩) (generator : Generator) :
    ∃ blueprints : List (Blueprint (Setup → m (Except StageError ι))),
      blueprints.map Blueprint.planned = planned ∧
      (∀ b ∈ blueprints, b.Fits c env.registry global) ∧
      env.construct c global table planned generator = Blueprint.constructAll blueprints := by
  induction planned generalizing generator with
  | nil => exact ⟨[], rfl, by simp, rfl⟩
  | cons p rest ih =>
    obtain ⟨registration, hfirst⟩ := hfits p (by simp) generator.next.1
    obtain ⟨blueprints, hplanned, hrest, hconstruct⟩ :=
      ih (fun q hq => hfits q (by simp [hq])) generator.next.2
    refine ⟨⟨p, registration, setupOf c global table p generator.next.1⟩ :: blueprints, ?_, ?_, ?_⟩
    · rw [List.map_cons, hplanned]
    · rw [List.forall_mem_cons]
      exact ⟨hfirst, hrest⟩
    · rw [construct, hfirst.registered]
      simp only [hconstruct]
      rfl

end Environment

/-! ## Refused configurations -/

theorem Step.Ends.ne_configuration {step : Step} {last : List Record} {error : RunError}
    (h : step.Ends last error) (cause : ConfigurationError) : error ≠ .configuration cause := by
  rintro rfl
  cases h

theorem Environment.reads_of_prepare {m : Type → Type} [Monad m] (env : Environment m ι)
    {prepared : Preparation} (h : env.prepare c = .ok prepared) :
    c.global = some prepared.global ∧ RunSettings.read prepared.global = .ok prepared.settings ∧
      DetectorTable.ofEntries c.detectors = .ok prepared.detectors := by
  unfold prepare Configuration.requireGlobal at h
  obtain ⟨planned, -, h⟩ := exists_of_bind_ok h
  obtain ⟨global, hglobal, h⟩ := exists_of_bind_ok h
  obtain ⟨settings, hsettings, h⟩ := exists_of_bind_ok h
  obtain ⟨table, htable, h⟩ := exists_of_bind_ok h
  obtain rfl := Except.ok.inj h
  refine ⟨?_, mapError_ok_iff.mp hsettings, mapError_ok_iff.mp htable⟩
  split at hglobal
  · obtain rfl := Except.ok.inj hglobal
    assumption
  · cases hglobal

theorem Environment.prepare_error (env : Environment (StateM σ) ι) {cause : ConfigurationError}
    (hplan : c.plan env.registry = .error cause) : env.prepare c = .error cause := by
  rw [prepare, hplan]
  rfl

theorem Environment.run_of_plan_error (env : Environment (StateM σ) ι) {cause : ConfigurationError}
    (hplan : c.plan env.registry = .error cause) (runId : RunId) (world : σ) :
    (env.run runId c).run world =
      (.error (.configuration cause), (env.clock.run (env.clock.run world).2).2) := by
  rw [run_run, execute, env.prepare_error hplan]
  rfl

theorem Environment.observed_run_of_plan_error (env : Environment (StateM σ) ι)
    {cause : ConfigurationError} (hplan : c.plan env.registry = .error cause) (runId : RunId)
    (world : σ) (log : List Record) :
    (env.observed.run runId c).run (world, log) =
      (.error (.configuration cause), ((env.clock.run (env.clock.run world).2).2, log)) := by
  have hobserved : c.plan env.observed.registry = .error cause := by
    rw [← hplan]
    exact c.plan_mapFactories observedFactory env.registry
  rcases hstart : env.clock.run world with ⟨start, world₁⟩
  rcases hstop : env.clock.run world₁ with ⟨stop, world₂⟩
  rw [env.observed.run_of_plan_error hobserved, observed_clock_run hstart,
    observed_clock_run hstop]

/-- A run refuses a configuration exactly if it has no plan, and for the same reason. -/
theorem run_configuration_iff (env : Environment (StateM σ) ι) (runId : RunId) (world : σ)
    (cause : ConfigurationError) :
    ((env.run runId c).run world).1 = .error (.configuration cause) ↔
      c.plan env.registry = .error cause := by
  cases hplan : c.plan env.registry with
  | error refused =>
    rw [env.run_run]
    unfold Environment.execute
    rw [env.prepare_error hplan]
    change Except.error (RunError.configuration refused) = _ ↔ _
    simp
  | ok planned =>
    obtain ⟨_, _, result, _, _, _, _, hrun, -, hfollows⟩ := env.run_observed hplan runId world []
    simp only [hrun, reduceCtorEq, iff_false]
    rintro rfl
    cases hfollows with
    | stop hsplit hends => exact hends.ne_configuration cause rfl

/-- What a run of a configuration with a plan looks up again. -/
structure Environment.LooksUp {m : Type → Type} [Monad m] (env : Environment m ι)
    (c : Configuration) (planned : List PlannedInstance) (prepared : Preparation)
    (blueprints : List (Blueprint (Setup → m (Except StageError ι)))) : Prop where
  prepare : env.prepare c = .ok prepared
  plan : prepared.planned = planned
  global : c.global = some prepared.global
  settings : RunSettings.read prepared.global = .ok prepared.settings
  detectors : DetectorTable.ofEntries c.detectors = .ok prepared.detectors
  instances : blueprints.map Blueprint.planned = planned
  fits : ∀ b ∈ blueprints, b.Fits c env.registry prepared.global
  /-- No look-up decides whether the construction goes well, only the factories do. -/
  construct : env.construct c prepared.global prepared.detectors planned
    (Generator.ofSeed prepared.settings.seed) = Blueprint.constructAll blueprints

/--
Validation is complete: a run refuses exactly what has no plan, and with a plan everything that it looks
up again is there and is what the plan says.
-/
theorem run_finds_what_plan_checked (env : Environment (StateM σ) ι) (c : Configuration)
    (runId : RunId) (world : σ) :
    (∀ cause, ((env.run runId c).run world).1 = .error (.configuration cause) ↔
      c.plan env.registry = .error cause) ∧
    ∀ planned, c.plan env.registry = .ok planned →
      ∃ prepared blueprints, env.LooksUp c planned prepared blueprints := by
  refine ⟨run_configuration_iff env runId world, ?_⟩
  intro planned hplan
  obtain ⟨prepared, hprepare, hplanned, -, -⟩ := env.prepare_of_plan hplan
  obtain ⟨hglobal, hsettings, hdetectors⟩ := env.reads_of_prepare hprepare
  obtain ⟨blueprints, hinstances, hfits, hconstruct⟩ := env.construct_eq_constructAll
    (fun p hp seed => Environment.setupOf_fits hplan hp hdetectors prepared.global seed)
    (Generator.ofSeed prepared.settings.seed)
  exact ⟨prepared, blueprints, hprepare, hplanned, hglobal, hsettings, hdetectors, hinstances,
    hfits, hconstruct⟩

theorem run_finds_what_plan_checked_failingSteps :
    Configuration.sample.plan failingSteps.registry = .ok Configuration.samplePlan ∧
      ∃ prepared blueprints,
        failingSteps.LooksUp Configuration.sample Configuration.samplePlan prepared blueprints := by
  have hplan : Configuration.sample.plan failingSteps.registry = .ok Configuration.samplePlan := by
    decide +kernel
  exact ⟨hplan, (run_finds_what_plan_checked failingSteps Configuration.sample ⟨"sample"⟩ ()).2
    Configuration.samplePlan hplan⟩

end TestBeam
