import TestBeam.Proofs.Configuration.Plan
import TestBeam.Proofs.Executor.Observed

/-!
# Runs

A run of a configuration with a plan follows the schedule of the plan, and its result tells where it
stopped.
-/

namespace TestBeam

variable {σ ι α β : Type} {c : Configuration} {planned : List PlannedInstance}

namespace Environment

variable (env : Environment (StateM σ) ι)

/-! ## Preparation -/

theorem ofEntries_ok {detectors : List Entry} (h : ∀ d ∈ detectors, d.has "type") :
    ∃ table, DetectorTable.ofEntries detectors = .ok table := by
  have hmap : ∃ table, detectors.mapM Detector.ofEntry = .ok table := by
    induction detectors with
    | nil => exact ⟨[], rfl⟩
    | cons d detectors ih =>
      obtain ⟨rest, hrest⟩ := ih fun d hd => h d (by simp [hd])
      obtain ⟨value, hvalue⟩ := Option.isSome_iff_exists.mp (h d (by simp))
      refine ⟨⟨d.name, value.display, d⟩ :: rest, ?_⟩
      rw [List.mapM_cons, Detector.ofEntry, Entry.text, Entry.require, hvalue, hrest]
      rfl
  obtain ⟨table, htable⟩ := hmap
  exact ⟨⟨sortByName Detector.name table⟩, by rw [DetectorTable.ofEntries, htable]; rfl⟩

theorem prepare_of_plan (hplan : c.plan env.registry = .ok planned) :
    ∃ prepared, env.prepare c = .ok prepared ∧ prepared.planned = planned ∧
      c.global = some prepared.global ∧
      prepared.global.countOr "number_of_events" 1 = .ok prepared.settings.events := by
  have hprepared := Configuration.prepared_of_plan hplan
  obtain ⟨global, hglobal, hcounts⟩ := hprepared.global
  obtain ⟨settings, hsettings⟩ := (readSettings_ok_iff global).mpr hcounts
  obtain ⟨table, htable⟩ := ofEntries_ok hprepared.models
  refine ⟨⟨planned, global, settings, table⟩, ?_, rfl, hglobal, ?_⟩
  · unfold prepare
    simp only [hplan, Configuration.requireGlobal, hglobal, bind, Except.bind, hsettings,
      htable, Except.mapError]
    rfl
  · unfold RunSettings.read at hsettings
    cases hevents : global.countOr "number_of_events" 1 with
    | error cause =>
      rw [hevents] at hsettings
      cases hsettings
    | ok events =>
      cases hseed : global.countOr "random_seed" 42 with
      | error cause =>
        rw [hevents, hseed] at hsettings
        cases hsettings
      | ok seed =>
        rw [hevents, hseed] at hsettings
        cases hsettings
        rfl

/-! ## Construction -/

theorem run_bind_world (first : StateM σ α) (next : α → StateM σ β) (world : σ) :
    (first >>= next).run world =
      let (a, world) := first.run world
      (next a).run world :=
  rfl

def setupOf (c : Configuration) (global : Entry) (detectors : DetectorTable)
    (planned : PlannedInstance) (seed : UInt64) : Setup where
  id := planned.id
  entry := c.modules[planned.index]?.getD (Entry.empty planned.id.name)
  global
  detector := planned.id.detector.bind detectors.get?
  seed

theorem construct_cons_run (c : Configuration) (global : Entry) (detectors : DetectorTable)
    {p : PlannedInstance} {registration : Registration (Setup → StateM σ (Except StageError ι))}
    (hresolve : env.registry.resolve p.id.name = .ok registration) (rest : List PlannedInstance)
    (generator : Generator) (world : σ) :
    (env.construct c global detectors (p :: rest) generator).run world =
      match (registration.factory (setupOf c global detectors p generator.next.1)).run world with
      | (.error cause, world) => (.error (.construction p.index p.id cause), world)
      | (.ok module, world) =>
        match (env.construct c global detectors rest generator.next.2).run world with
        | (.error e, world) => (.error e, world)
        | (.ok instances, world) => (.ok (⟨p.index, p.id, module, 0⟩ :: instances), world) := by
  rcases hfactory : (registration.factory (setupOf c global detectors p generator.next.1)).run world
    with ⟨result, next⟩
  rw [construct, hresolve]
  change ((registration.factory (setupOf c global detectors p generator.next.1)) >>= _).run world = _
  rw [run_bind_world, hfactory]
  cases result with
  | error cause => rfl
  | ok module =>
    change ((env.construct c global detectors rest generator.next.2) >>= _).run next = _
    simp only [run_bind_world]
    rcases (env.construct c global detectors rest generator.next.2).run next with ⟨result, last⟩
    cases result <;> rfl

theorem construct_observed (c : Configuration) (global : Entry) (detectors : DetectorTable)
    (planned : List PlannedInstance)
    (hregistered : ∀ p ∈ planned, ∃ registration,
      env.registry.resolve p.id.name = .ok registration)
    (generator : Generator) (world : σ) (log : List Record) :
    ∃ result worldAfter records,
      (env.construct c global detectors planned generator).run world =
        (result.map (·.map Instance.forget), worldAfter) ∧
      (env.observed.construct c global detectors planned generator).run (world, log) =
        (result, (worldAfter, log ++ records)) ∧
      Follows (planned.map fun p => .construct p.slot) records (failure? result) ∧
      ∀ instances, result = .ok instances → (∀ i ∈ instances, i.Tagged) ∧
        instances.map Instance.slot = planned.map PlannedInstance.slot := by
  -- Every construction advances the generator and may change the world, whatever it gives.
  induction planned generalizing generator world log with
  | nil =>
    refine ⟨.ok [], world, [], rfl, ?_, .nil, ?_⟩
    · unfold construct
      rw [List.append_nil]
      rfl
    · rintro instances hinstances
      obtain rfl := Except.ok.inj hinstances
      exact ⟨by simp, rfl⟩
  | cons p rest ih =>
    obtain ⟨registration, hresolve⟩ := hregistered p (by simp)
    rcases hfactory : (registration.factory (setupOf c global detectors p generator.next.1)).run world
      with ⟨result, world₁⟩
    rw [List.map_cons, env.construct_cons_run c global detectors hresolve rest generator world,
      env.observed.construct_cons_run c global detectors (observed_resolve hresolve) rest generator
        (world, log)]
    simp only [hfactory, observedFactory_run hfactory]
    cases result with
    | error cause =>
      refine ⟨_, world₁, [.constructed p.id (some cause)], rfl, rfl,
        .stop_first (.construct p.slot cause) _, ?_⟩
      rintro instances hinstances
      cases hinstances
    | ok module =>
      obtain ⟨result, world₂, records, hplain, hobserved, hfollows, hinstances⟩ :=
        ih (fun q hq => hregistered q (by simp [hq])) generator.next.2 world₁
          (log ++ [.constructed p.id none])
      unfold Except.map failure?
      simp only [hplain, setupOf, hobserved]
      cases result with
      | error e =>
        refine ⟨.error e, world₂, [.constructed p.id none] ++ records, rfl, ?_,
          hfollows.cons (.construct p.slot), ?_⟩
        · rw [← List.append_assoc]
        · rintro instances hinstances
          cases hinstances
      | ok instances =>
        obtain ⟨htagged, hslots⟩ := hinstances instances rfl
        refine ⟨.ok (⟨p.index, p.id, (p.id, module), 0⟩ :: instances), world₂,
          [.constructed p.id none] ++ records, rfl, ?_, hfollows.cons (.construct p.slot), ?_⟩
        · rw [← List.append_assoc]
        · rintro all hall
          obtain rfl := Except.ok.inj hall
          refine ⟨?_, ?_⟩
          · rw [List.forall_mem_cons]
            exact ⟨rfl, htagged⟩
          · rw [List.map_cons, hslots]
            rfl

/-! ## Whole runs -/

theorem execute_run {prepared : Preparation} (hprepare : env.prepare c = .ok prepared)
    (runId : RunId) (world : σ) :
    (env.execute runId c).run world =
      match (env.construct c prepared.global prepared.detectors prepared.planned
        (Generator.ofSeed prepared.settings.seed)).run world with
      | (.error e, world) => (.error e, world)
      | (.ok instances, world) =>
        match ((env.runPhases ⟨prepared.global, prepared.detectors, runId, none⟩
          prepared.settings.events instances).run Bus.empty).run world with
        | (((.error e, _), _), world) => (.error e, world)
        | (((.ok (), instances), bus), world) =>
          (.ok ⟨prepared.settings.events, instances, bus⟩, world) := by
  unfold execute
  rw [hprepare]
  simp only [run_bind_world]
  rcases (env.construct c prepared.global prepared.detectors prepared.planned
    (Generator.ofSeed prepared.settings.seed)).run world with ⟨result, next⟩
  cases result with
  | error e => rfl
  | ok instances =>
    simp only [run_bind_world]
    rcases ((env.runPhases ⟨prepared.global, prepared.detectors, runId, none⟩
      prepared.settings.events instances).run Bus.empty).run next with ⟨⟨⟨result, after⟩, bus⟩, last⟩
    cases result <;> rfl

/-- What a run of observed modules leaves behind, without the names that they carry. -/
def Completion.forget (done : Completion (ModuleId × ι)) : Completion ι :=
  ⟨done.events, done.instances.map Instance.forget, done.bus⟩

theorem prepare_observed (c : Configuration) : env.observed.prepare c = env.prepare c := by
  rw [prepare, prepare, observed, Configuration.plan_mapFactories]

theorem execute_observed (hplan : c.plan env.registry = .ok planned) (runId : RunId) (world : σ)
    (log : List Record) :
    ∃ global events result worldAfter records,
      c.global = some global ∧ global.countOr "number_of_events" 1 = .ok events ∧
      (env.execute runId c).run world = (result.map Completion.forget, worldAfter) ∧
      (env.observed.execute runId c).run (world, log) = (result, (worldAfter, log ++ records)) ∧
      Follows (schedule (planned.map PlannedInstance.slot) events) records (failure? result) := by
  obtain ⟨prepared, hprepare, rfl, hglobal, hevents⟩ := env.prepare_of_plan hplan
  have hregistered : ∀ p ∈ prepared.planned, ∃ registration,
      env.registry.resolve p.id.name = .ok registration := by
    intro p hp
    obtain ⟨factory, hresolve⟩ :=
      Configuration.resolve_of_kind (Configuration.registered_of_plan hplan hp)
    exact ⟨_, hresolve⟩
  obtain ⟨result, world₁, records, hplain, hobserved, hfollows, hinstances⟩ :=
    env.construct_observed c prepared.global prepared.detectors prepared.planned hregistered
      (Generator.ofSeed prepared.settings.seed) world log
  have hsteps : schedule (prepared.planned.map PlannedInstance.slot) prepared.settings.events =
      prepared.planned.map (fun p => .construct p.slot) ++
        callSteps (prepared.planned.map PlannedInstance.slot) prepared.settings.events := by
    simp [schedule, callSteps, eventSteps, Function.comp_def]
  refine ⟨prepared.global, prepared.settings.events, ?_⟩
  rw [execute_run env hprepare, execute_run env.observed ((env.prepare_observed c).trans hprepare),
    hplain, hobserved, hsteps]
  cases result with
  | error e =>
    exact ⟨.error e, world₁, records, hglobal, hevents, rfl, rfl, hfollows.append_of_error _⟩
  | ok instances =>
    obtain ⟨htagged, hslots⟩ := hinstances instances rfl
    obtain ⟨result, after, bus, world₂, records₂, hplain, hobserved, hfollows₂⟩ :=
      env.runPhases_observed ⟨prepared.global, prepared.detectors, runId, none⟩
        prepared.settings.events instances htagged Bus.empty world₁ (log ++ records)
    rw [hslots] at hfollows₂
    unfold Except.map
    simp only [hplain, hobserved]
    cases result with
    | error e =>
      refine ⟨.error e, world₂, records ++ records₂, hglobal, hevents, rfl, ?_,
        hfollows.append hfollows₂⟩
      rw [← List.append_assoc]
    | ok done =>
      refine ⟨.ok ⟨prepared.settings.events, after, bus⟩, world₂, records ++ records₂, hglobal,
        hevents, rfl, ?_, hfollows.append hfollows₂⟩
      rw [← List.append_assoc]

theorem run_run (runId : RunId) (world : σ) :
    (env.run runId c).run world =
      let (start, world) := env.clock.run world
      let (result, world) := (env.execute runId c).run world
      let (stop, world) := env.clock.run world
      (result.map fun done => done.summary runId (stop - start), world) :=
  rfl

theorem summary_forget (done : Completion (ModuleId × ι)) (runId : RunId) (elapsed : Float) :
    done.forget.summary runId elapsed = done.summary runId elapsed := by
  simp [Completion.summary, Completion.forget, Instance.report, Instance.forget, Function.comp_def]

theorem run_observed (hplan : c.plan env.registry = .ok planned) (runId : RunId) (world : σ)
    (log : List Record) :
    ∃ global events result worldAfter records,
      c.global = some global ∧ global.countOr "number_of_events" 1 = .ok events ∧
      (env.run runId c).run world = (result, worldAfter) ∧
      (env.observed.run runId c).run (world, log) = (result, (worldAfter, log ++ records)) ∧
      Follows (schedule (planned.map PlannedInstance.slot) events) records (failure? result) := by
  rcases hstart : env.clock.run world with ⟨start, world₁⟩
  obtain ⟨global, events, result, world₂, records, hglobal, hevents, hplain, hobserved, hfollows⟩ :=
    env.execute_observed hplan runId world₁ log
  rcases hstop : env.clock.run world₂ with ⟨stop, world₃⟩
  refine ⟨global, events, result.map fun done => done.summary runId (stop - start), world₃, records,
    hglobal, hevents, ?_, ?_, ?_⟩
  · rw [run_run, hstart]
    simp only [hplain, hstop]
    cases result with
    | error e => rfl
    | ok done => simp only [Except.map, summary_forget]
  · rw [run_run, observed_clock_run hstart]
    simp only [hobserved, observed_clock_run hstop]
  · cases result <;> exact hfollows

end Environment

/-! ## Results -/

theorem slot_mem_of_mem_schedule {slots : List Slot} {events : Nat} {slot : Slot} {phase : Phase}
    (h : Step.call slot phase ∈ schedule slots events) : slot ∈ slots := by
  unfold schedule at h
  simp only [List.mem_append, List.mem_map, List.mem_flatMap] at h
  rcases h with ⟨_, _, h⟩ | ⟨p, hp, h⟩ | ⟨_, _, p, hp, h⟩ | ⟨p, hp, h⟩
  · cases h
  · cases h
    exact hp
  · cases h
    exact hp
  · cases h
    exact hp

theorem before_construct {slots : List Slot} {events : Nat} {slot : Slot} {before after : List Step}
    (h : schedule slots events = before ++ .construct slot :: after) :
    ∃ first rest, slots = first ++ slot :: rest ∧ before = first.map .construct := by
  have hnot : Step.construct slot ∉ Environment.callSteps slots events := by
    simp [Environment.callSteps, Environment.eventSteps]
  change slots.map .construct ++ Environment.callSteps slots events = _ at h
  rcases List.append_eq_append_iff.mp h with ⟨more, rfl, htail⟩ | ⟨more, hmap, htail⟩
  · exact absurd (by simp [htail]) hnot
  · cases more with
    | nil =>
      rw [List.nil_append] at htail
      exact absurd (htail ▸ List.mem_cons_self) hnot
    | cons step more =>
      obtain ⟨rfl, -⟩ : Step.construct slot = step ∧ _ := by simpa using htail
      obtain ⟨first, rest, rfl, rfl, hrest⟩ := List.map_eq_append_iff.mp hmap
      obtain ⟨slot', rest, rfl, hslot, -⟩ := List.map_eq_cons_iff.mp hrest
      obtain rfl := Step.construct.inj hslot
      exact ⟨first, rest, rfl, rfl⟩

/-- How the records and the result of a run belong to its schedule. -/
structure Obeys (slots : List Slot) (events : Nat) (log : List Record)
    (result : Except RunError RunSummary) : Prop where
  follows : Follows (schedule slots events) log (failure? result)
  /-- What is done is a first part of the schedule. -/
  acts : log.filterMap Record.act? <+: (schedule slots events).map Step.act
  /-- A run succeeds exactly if it does everything, nothing fails and no abort is seen. -/
  complete : (∃ summary, result = .ok summary) ↔
    log.filterMap Record.act? = (schedule slots events).map Step.act ∧
      ∀ record ∈ log, record.GoesOn
  /-- A construction that fails ends the run before anything is called. -/
  construction : ∀ id cause, .constructed id (some cause) ∈ log →
    ∃ before slot after, slots = before ++ slot :: after ∧ slot.id = id ∧
      result = .error (.construction slot.index id cause) ∧
      log = before.map (fun p => .constructed p.id none) ++ [.constructed id (some cause)]
  /-- A call that fails is the last one. -/
  call : ∀ id hook event cause, .called id hook event (some cause) ∈ log →
    ∃ slot ∈ slots, ∃ phase, slot.id = id ∧ phase.hook = hook ∧ phase.event? = event ∧
      result = .error (.call slot.index id phase cause) ∧
      log.getLast? = some (.called id hook event (some cause))
  /-- An abort that is seen prevents the next call. -/
  abort : .checked true ∈ log →
    ∃ slot ∈ slots, ∃ phase, result = .error (.aborted slot.index slot.id phase) ∧
      log.getLast? = some (.checked true) ∧
      log.filterMap Record.act? ++ [.call slot.id phase.hook phase.event?] <+:
        (schedule slots events).map Step.act

theorem eq_error_of_failure {ε γ : Type} {result : Except ε γ} {error : ε}
    (h : failure? result = some error) : result = .error error := by
  cases result with
  | ok value => cases h
  | error e => exact congrArg Except.error (Option.some.inj h)

theorem failure_eq_none_iff {ε γ : Type} {result : Except ε γ} :
    failure? result = none ↔ ∃ value, result = .ok value := by
  cases result <;> simp [failure?]

theorem obeys_of_follows {slots : List Slot} {events : Nat} {log : List Record}
    {result : Except RunError RunSummary}
    (h : Follows (schedule slots events) log (failure? result)) : Obeys slots events log result := by
  -- A record behind which a run cannot go on is the last one, and its step ends the run.
  refine ⟨h, h.acts, failure_eq_none_iff.symm.trans h.none_iff, ?_, ?_, ?_⟩
  · intro id cause hmem
    obtain ⟨before, step, after, last, error, hsplit, hends, rfl, hfailure, hlast⟩ :=
      h.ends_of_mem hmem (by simp [Record.GoesOn])
    have hresult := eq_error_of_failure hfailure
    cases hends with
    | construct slot cause' =>
      obtain ⟨rfl, rfl⟩ : slot.id = id ∧ cause' = cause := by simpa using hlast
      obtain ⟨first, rest, rfl, rfl⟩ := before_construct hsplit
      refine ⟨first, slot, rest, rfl, rfl, hresult, ?_⟩
      rw [List.flatMap_map]
      simp [Step.records, ← List.map_eq_flatMap]
    | call slot phase cause' => simp at hlast
    | abort slot phase => simp at hlast
  · intro id hook event cause hmem
    obtain ⟨before, step, after, last, error, hsplit, hends, rfl, hfailure, hlast⟩ :=
      h.ends_of_mem hmem (by simp [Record.GoesOn])
    have hresult := eq_error_of_failure hfailure
    cases hends with
    | construct slot cause' => simp at hlast
    | call slot phase cause' =>
      obtain ⟨rfl, rfl, rfl, rfl⟩ :
          slot.id = id ∧ phase.hook = hook ∧ phase.event? = event ∧ cause' = cause := by
        simpa using hlast
      have hstep : Step.call slot phase ∈ schedule slots events := by simp [hsplit]
      exact ⟨slot, slot_mem_of_mem_schedule hstep, phase, rfl, rfl, rfl, hresult, by simp⟩
    | abort slot phase => simp at hlast
  · intro hmem
    obtain ⟨before, step, after, last, error, hsplit, hends, rfl, hfailure, hlast⟩ :=
      h.ends_of_mem hmem (by simp [Record.GoesOn])
    have hresult := eq_error_of_failure hfailure
    cases hends with
    | construct slot cause' => simp at hlast
    | call slot phase cause' => simp at hlast
    | abort slot phase =>
      have hstep : Step.call slot phase ∈ schedule slots events := by simp [hsplit]
      refine ⟨slot, slot_mem_of_mem_schedule hstep, phase, hresult, by simp, ?_⟩
      refine ⟨after.map Step.act, ?_⟩
      rw [hsplit, List.filterMap_append, Follows.acts_flatMap]
      simp [Record.act?, Step.act]

/--
A run of a configuration with a plan obeys its schedule, whatever its modules do. Observing the run changes
neither its result nor the world that it leaves.
-/
theorem run_obeys_schedule (env : Environment (StateM σ) ι)
    (hplan : c.plan env.registry = .ok planned) (runId : RunId) (world : σ) :
    ∃ global events result worldAfter log,
      c.global = some global ∧ global.countOr "number_of_events" 1 = .ok events ∧
      (env.run runId c).run world = (result, worldAfter) ∧
      (env.observed.run runId c).run (world, []) = (result, (worldAfter, log)) ∧
      Obeys (planned.map PlannedInstance.slot) events log result := by
  obtain ⟨global, events, result, worldAfter, log, hglobal, hevents, hplain, hobserved, hfollows⟩ :=
    env.run_observed hplan runId world []
  exact ⟨global, events, result, worldAfter, log, hglobal, hevents, hplain, hobserved,
    obeys_of_follows hfollows⟩

/-- Modules that can be constructed and initialized but fail when they step. -/
def failingSteps : Environment (StateM Unit) Unit where
  registry := .ofList [("Charge", .perDetector, fun _ => pure (.ok ())),
    ("Write", .unique, fun _ => pure (.ok ()))]
  call _ hook _ := if hook = .step then throw (.other "stepped") else pure ()
  aborted := pure false
  clock := pure 0

theorem run_obeys_schedule_failingSteps :
    Configuration.sample.plan failingSteps.registry = .ok Configuration.samplePlan ∧
      ∃ global events result worldAfter log,
        Configuration.sample.global = some global ∧
        global.countOr "number_of_events" 1 = .ok events ∧
        (failingSteps.run ⟨"sample"⟩ Configuration.sample).run () = (result, worldAfter) ∧
        (failingSteps.observed.run ⟨"sample"⟩ Configuration.sample).run ((), []) =
          (result, (worldAfter, log)) ∧
        Obeys (Configuration.samplePlan.map PlannedInstance.slot) events log result := by
  have hplan : Configuration.sample.plan failingSteps.registry = .ok Configuration.samplePlan := by
    decide +kernel
  exact ⟨hplan, run_obeys_schedule failingSteps hplan ⟨"sample"⟩ ()⟩

end TestBeam
