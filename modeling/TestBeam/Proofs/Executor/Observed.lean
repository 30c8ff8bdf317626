import TestBeam.Proofs.Executor.Schedule

/-!
# Observed runs

An observed run keeps records of what it does, and is otherwise the same run. Each of its parts follows
its part of the schedule.
-/

namespace TestBeam

/-! ## Registries -/

namespace NameMap

variable {α β : Type}

def map (f : α → β) (pairs : NameMap α) : NameMap β :=
  ⟨pairs.toList.map fun p => (p.1, f p.2), by
    apply List.pairwise_map.mpr
    exact pairs.ascending⟩

theorem get?_map (f : α → β) (pairs : NameMap α) (name : String) :
    (pairs.map f).get? name = (pairs.get? name).map f := by
  unfold map
  simp only [get?]
  induction pairs.toList with
  | nil => rfl
  | cons p rest ih =>
    rw [List.map_cons, lookup_cons_eq_if, lookup_cons_eq_if, ih]
    split <;> rfl

theorem map_insert (f : α → β) (pairs : NameMap α) (name : String) (value : α) :
    (pairs.insert name value).map f = (pairs.map f).insert name (f value) := by
  refine mk.congr_simp _ _ ?_ _
  change (insertSorted name value pairs.toList).map (fun p => (p.1, f p.2)) =
    insertSorted name (f value) (pairs.toList.map fun p => (p.1, f p.2))
  induction pairs.toList with
  | nil => rfl
  | cons p rest ih =>
    rw [List.map_cons, insertSorted, insertSorted, ← ih]
    split
    · rfl
    · split <;> rfl

theorem names_map (f : α → β) (pairs : NameMap α) : (pairs.map f).names = pairs.names := by
  simp [map, names]

end NameMap

namespace Registry

variable {φ ψ : Type}

def mapFactories (f : φ → ψ) (registry : Registry φ) : Registry ψ :=
  NameMap.map (fun registration => ⟨registration.kind, f registration.factory⟩) registry

theorem resolve_mapFactories (f : φ → ψ) (registry : Registry φ) (name : String) :
    (registry.mapFactories f).resolve name =
      (registry.resolve name).map fun registration =>
        ⟨registration.kind, f registration.factory⟩ := by
  unfold mapFactories
  rw [resolve, resolve, NameMap.get?_map, NameMap.names_map]
  cases NameMap.get? registry name <;> rfl

theorem mapFactories_ofList (f : φ → ψ) (modules : List (String × ModuleKind × φ)) :
    (ofList modules).mapFactories f =
      ofList (modules.map fun (name, kind, factory) => (name, kind, f factory)) := by
  unfold ofList
  rw [List.foldl_map]
  have hempty : mapFactories f (NameMap.empty : Registry φ) = NameMap.empty := rfl
  rw [← hempty]
  generalize (NameMap.empty : Registry φ) = registry
  induction modules generalizing registry with
  | nil => rfl
  | cons first modules ih =>
    rw [List.foldl_cons, List.foldl_cons, ih]
    unfold register mapFactories
    rw [NameMap.map_insert]

end Registry

namespace Configuration

variable {φ ψ : Type}

theorem addEntry_mapFactories (c : Configuration) (f : φ → ψ) (registry : Registry φ) :
    c.addEntry (registry.mapFactories f) = c.addEntry registry := by
  funext candidates m
  rw [addEntry, addEntry, Registry.resolve_mapFactories]
  cases registry.resolve m.entry.name <;> rfl

theorem plan_mapFactories (c : Configuration) (f : φ → ψ) (registry : Registry φ) :
    c.plan (registry.mapFactories f) = c.plan registry := by
  rw [plan, plan, addEntry_mapFactories]

end Configuration

/-! ## Observation -/

variable {σ ι α β : Type}

/-- Does something in a world and adds records of it. -/
def recording (action : StateM σ α) (records : α → List Record) (result : α → β) :
    StateM (σ × List Record) β :=
  fun (world, log) =>
    let (a, world) := action.run world
    (result a, (world, log ++ records a))

theorem recording_run {action : StateM σ α} {world next : σ} {a : α}
    (h : action.run world = (a, next)) (records : α → List Record) (result : α → β)
    (log : List Record) :
    (recording action records result).run (world, log) = (result a, (next, log ++ records a)) := by
  change (match action.run world with
    | (a, world) => (result a, (world, log ++ records a))) = _
  rw [h]

/-- A construction that is recorded. The module carries the name of its instance. -/
def observedFactory (factory : Setup → StateM σ (Except StageError ι)) (setup : Setup) :
    StateM (σ × List Record) (Except StageError (ModuleId × ι)) :=
  recording (factory setup) (fun result => [.constructed setup.id (failure? result)])
    fun result => result.map fun module => (setup.id, module)

def Environment.observed (env : Environment (StateM σ) ι) :
    Environment (StateM (σ × List Record)) (ModuleId × ι) where
  registry := env.registry.mapFactories observedFactory
  call := fun (id, module) hook context => ExceptT.mk fun bus =>
    recording ((env.call module hook context).run.run bus)
      (fun (result, _) => [.called id hook context.event (failure? result)])
      fun (result, bus) => (result.map fun module => (id, module), bus)
  aborted := recording env.aborted (fun aborted => [.checked aborted]) id
  clock := recording env.clock (fun _ => []) id

/-- An instance without the name that its module carries. -/
def Instance.forget (i : Instance (ModuleId × ι)) : Instance ι :=
  ⟨i.index, i.id, i.module.2, i.elapsedSeconds⟩

/-- The module of an instance carries its name. -/
def Instance.Tagged (i : Instance (ModuleId × ι)) : Prop :=
  i.module.1 = i.id

namespace Environment

/-! ## Steps in a world -/

theorem run_bind (first : StateT RunBus (StateM σ) α) (next : α → StateT RunBus (StateM σ) β)
    (bus : RunBus) (world : σ) :
    ((first >>= next).run bus).run world =
      let ((a, bus), world) := (first.run bus).run world
      ((next a).run bus).run world :=
  rfl

theorem run_lift (action : StateM σ α) (bus : RunBus) (world : σ) :
    ((liftM action : StateT RunBus (StateM σ) α).run bus).run world =
      let (a, world) := action.run world
      ((a, bus), world) :=
  rfl

section Steps

variable (env : Environment (StateM σ) ι) (context : Context) (phase : Phase)

theorem callInstance_run (i : Instance ι) (bus : RunBus) (world : σ) :
    ((env.callInstance context phase i).run bus).run world =
      let (start, world) := env.clock.run world
      let ((result, bus), world) := ((env.call i.module phase.hook
        { context with event := phase.event? }).run.run bus).run world
      let (stop, world) := env.clock.run world
      ((result.map fun module =>
        { i with module, elapsedSeconds := i.elapsedSeconds + (stop - start) }, bus), world) :=
  rfl

theorem runPhase_cons_run (i : Instance ι) (rest : List (Instance ι)) (bus : RunBus) (world : σ) :
    ((env.runPhase context phase (i :: rest)).run bus).run world =
      let (aborted, world) := env.aborted.run world
      if aborted then (((.error (.aborted i.index i.id phase), i :: rest), bus), world)
      else
        match ((env.callInstance context phase i).run bus).run world with
        | ((.error cause, bus), world) =>
          (((.error (.call i.index i.id phase cause), i :: rest), bus), world)
        | ((.ok called, bus), world) =>
          let (((result, rest), bus), world) := ((env.runPhase context phase rest).run bus).run world
          (((result, called :: rest), bus), world) := by
  rcases haborted : env.aborted.run world with ⟨aborted, next⟩
  rcases hcall : ((env.callInstance context phase i).run bus).run next with ⟨⟨result, busAfter⟩, last⟩
  rw [runPhase, run_bind, run_lift, haborted]
  cases aborted with
  | true => rfl
  | false =>
    change ((env.callInstance context phase i >>= _).run bus).run next = _
    simp only [run_bind, hcall]
    cases result with
    | error cause => rfl
    | ok called => rfl

end Steps

/-! ## What is recorded -/

section Recorded

variable {env : Environment (StateM σ) ι} {world next : σ}

theorem observed_resolve {registration : Registration (Setup → StateM σ (Except StageError ι))}
    {name : String} (h : env.registry.resolve name = .ok registration) :
    env.observed.registry.resolve name =
      .ok ⟨registration.kind, observedFactory registration.factory⟩ := by
  unfold observed
  rw [Registry.resolve_mapFactories, h]
  rfl

theorem observedFactory_run {factory : Setup → StateM σ (Except StageError ι)} {setup : Setup}
    {result : Except StageError ι} (h : (factory setup).run world = (result, next))
    (log : List Record) :
    (observedFactory factory setup).run (world, log) =
      (result.map fun module => (setup.id, module),
        (next, log ++ [.constructed setup.id (failure? result)])) :=
  recording_run h (fun result => [.constructed setup.id (failure? result)])
    (fun result => result.map fun module => (setup.id, module)) log

theorem observed_clock_run {time : Float} (h : env.clock.run world = (time, next))
    (log : List Record) : env.observed.clock.run (world, log) = (time, (next, log)) := by
  have hrun := recording_run h (fun _ => []) id log
  rwa [List.append_nil] at hrun

theorem observed_aborted_run {aborted : Bool} (h : env.aborted.run world = (aborted, next))
    (log : List Record) :
    env.observed.aborted.run (world, log) = (aborted, (next, log ++ [.checked aborted])) :=
  recording_run h (fun aborted => [.checked aborted]) id log

theorem observed_call_run {module : ι} {hook : Hook} {context : Context} {bus busAfter : RunBus}
    {result : Except StageError ι}
    (h : ((env.call module hook context).run.run bus).run world = ((result, busAfter), next))
    (id : ModuleId) (log : List Record) :
    ((env.observed.call (id, module) hook context).run.run bus).run (world, log) =
      ((result.map fun module => (id, module), busAfter),
        (next, log ++ [.called id hook context.event (failure? result)])) :=
  recording_run h (fun r => [.called id hook context.event (failure? r.1)])
    (fun r => (r.1.map fun module => (id, module), r.2)) log

end Recorded

/-! ## Phases -/

section Phases

variable (env : Environment (StateM σ) ι) (context : Context) (phase : Phase)

theorem callInstance_observed {i : Instance (ModuleId × ι)} (hi : i.Tagged) (bus : RunBus)
    (world : σ) (log : List Record) :
    ∃ result busAfter worldAfter,
      ((env.callInstance context phase i.forget).run bus).run world =
        ((result.map Instance.forget, busAfter), worldAfter) ∧
      ((env.observed.callInstance context phase i).run bus).run (world, log) =
        ((result, busAfter),
          (worldAfter, log ++ [.called i.id phase.hook phase.event? (failure? result)])) ∧
      ∀ called, result = .ok called → called.Tagged ∧ called.slot = i.slot := by
  obtain ⟨index, id, ⟨tag, module⟩, elapsed⟩ := i
  obtain rfl : tag = id := hi
  rcases hstart : env.clock.run world with ⟨start, world₁⟩
  rcases hcall : ((env.call module phase.hook { context with event := phase.event? }).run.run bus).run
    world₁ with ⟨⟨result, busAfter⟩, world₂⟩
  rcases hstop : env.clock.run world₂ with ⟨stop, world₃⟩
  refine ⟨result.map fun m => ⟨index, tag, (tag, m), elapsed + (stop - start)⟩, busAfter, world₃,
    ?_, ?_, ?_⟩
  · rw [callInstance_run, hstart]
    unfold Instance.forget
    simp only [hcall, hstop]
    cases result <;> rfl
  · rw [callInstance_run, observed_clock_run hstart]
    simp only [observed_call_run hcall, observed_clock_run hstop]
    cases result <;> rfl
  · intro called hcalled
    cases result with
    | error cause => cases hcalled
    | ok m =>
      obtain rfl := Except.ok.inj hcalled
      exact ⟨rfl, rfl⟩

/-- A phase follows its calls, and observing it changes nothing else. -/
theorem runPhase_observed (instances : List (Instance (ModuleId × ι)))
    (htagged : ∀ i ∈ instances, i.Tagged) (bus : RunBus) (world : σ) (log : List Record) :
    ∃ result after busAfter worldAfter records,
      ((env.runPhase context phase (instances.map Instance.forget)).run bus).run world =
        (((result, after.map Instance.forget), busAfter), worldAfter) ∧
      ((env.observed.runPhase context phase instances).run bus).run (world, log) =
        (((result, after), busAfter), (worldAfter, log ++ records)) ∧
      Follows (instances.map fun i => .call i.slot phase) records (failure? result) ∧
      (∀ i ∈ after, i.Tagged) ∧ after.map Instance.slot = instances.map Instance.slot := by
  induction instances generalizing bus world log with
  | nil =>
    refine ⟨.ok (), [], bus, world, [], rfl, ?_, .nil, by simp, rfl⟩
    unfold runPhase
    rw [List.append_nil]
    rfl
  | cons i rest ih =>
    have hi := htagged i (by simp)
    have hrest : ∀ i ∈ rest, i.Tagged := fun i hi => htagged i (by simp [hi])
    rcases haborted : env.aborted.run world with ⟨aborted, world₁⟩
    have haborted' := observed_aborted_run haborted log
    rw [List.map_cons, List.map_cons, List.map_cons, runPhase_cons_run, runPhase_cons_run]
    simp only [haborted, haborted']
    cases aborted with
    | true =>
      exact ⟨_, i :: rest, bus, world₁, [.checked true], rfl, rfl,
        .stop_first (.abort i.slot phase) _, htagged, rfl⟩
    | false =>
      obtain ⟨result, bus₂, world₂, hplain, hobserved, hcalled⟩ :=
        env.callInstance_observed context phase hi bus world₁ (log ++ [.checked false])
      simp only [hplain, hobserved, Bool.false_eq_true, if_false]
      cases result with
      | error cause =>
        exact ⟨_, i :: rest, bus₂, world₂,
          [.checked false, .called i.id phase.hook phase.event? (some cause)], rfl,
          by rw [List.append_assoc]; rfl, .stop_first (.call i.slot phase cause) _, htagged, rfl⟩
      | ok called =>
        obtain ⟨hcalledTagged, hcalledSlot⟩ := hcalled called rfl
        obtain ⟨result, after, bus₃, world₃, records, hplain, hobserved, hfollows, hafter, hslots⟩ :=
          ih hrest bus₂ world₂
            (log ++ [.checked false] ++ [.called i.id phase.hook phase.event? none])
        refine ⟨result, called :: after, bus₃, world₃,
          [.checked false, .called i.id phase.hook phase.event? none] ++ records, ?_, ?_,
          hfollows.cons (.call i.slot phase), ?_, ?_⟩
        · unfold Except.map
          simp only [hplain]
          rfl
        · unfold failure?
          simp only [hobserved]
          simp
        · simpa [hcalledTagged] using hafter
        · rw [List.map_cons, hcalledSlot, hslots]

def eventSteps (slots : List Slot) (event remaining : Nat) : List Step :=
  (List.range' event remaining).flatMap fun event => slots.map (.call · (.event event))

theorem runEvents_observed (remaining event : Nat) (instances : List (Instance (ModuleId × ι)))
    (htagged : ∀ i ∈ instances, i.Tagged) (bus : RunBus) (world : σ) (log : List Record) :
    ∃ result after busAfter worldAfter records,
      ((env.runEvents context remaining event (instances.map Instance.forget)).run bus).run world =
        (((result, after.map Instance.forget), busAfter), worldAfter) ∧
      ((env.observed.runEvents context remaining event instances).run bus).run (world, log) =
        (((result, after), busAfter), (worldAfter, log ++ records)) ∧
      Follows (eventSteps (instances.map Instance.slot) event remaining) records
        (failure? result) ∧
      (∀ i ∈ after, i.Tagged) ∧ after.map Instance.slot = instances.map Instance.slot := by
  induction remaining generalizing event instances bus world log with
  | zero =>
    refine ⟨.ok (), instances, bus, world, [], rfl, ?_, .nil, htagged, rfl⟩
    unfold runEvents
    rw [List.append_nil]
    rfl
  | succ remaining ih =>
    obtain ⟨result, after, bus₁, world₁, records, hplain, hobserved, hfollows, hafter, hslots⟩ :=
      env.runPhase_observed context (.event event) instances htagged bus world log
    have hsteps : eventSteps (instances.map Instance.slot) event (remaining + 1) =
        instances.map (fun i => .call i.slot (.event event)) ++
          eventSteps (instances.map Instance.slot) (event + 1) remaining := by
      simp [eventSteps, List.range'_succ, Function.comp_def]
    rw [runEvents, runEvents, run_bind, run_bind, hplain, hobserved, hsteps]
    cases result with
    | error e =>
      exact ⟨_, after, bus₁, world₁, records, rfl, rfl, hfollows.append_of_error _, hafter, hslots⟩
    | ok done =>
      obtain ⟨result, after₂, bus₂, world₂, records₂, hplain, hobserved, hfollows₂, hafter₂,
        hslots₂⟩ := ih (event + 1) after hafter bus₁ world₁ (log ++ records)
      refine ⟨result, after₂, bus₂, world₂, records ++ records₂, hplain, ?_, ?_, hafter₂,
        hslots₂.trans hslots⟩
      · rw [← List.append_assoc]
        exact hobserved
      · rw [hslots] at hfollows₂
        exact hfollows.append hfollows₂

def callSteps (slots : List Slot) (events : Nat) : List Step :=
  slots.map (.call · .init) ++ (eventSteps slots 1 events ++ slots.map (.call · .finalize))

theorem runPhases_observed (events : Nat) (instances : List (Instance (ModuleId × ι)))
    (htagged : ∀ i ∈ instances, i.Tagged) (bus : RunBus) (world : σ) (log : List Record) :
    ∃ result after busAfter worldAfter records,
      ((env.runPhases context events (instances.map Instance.forget)).run bus).run world =
        (((result, after.map Instance.forget), busAfter), worldAfter) ∧
      ((env.observed.runPhases context events instances).run bus).run (world, log) =
        (((result, after), busAfter), (worldAfter, log ++ records)) ∧
      Follows (callSteps (instances.map Instance.slot) events) records (failure? result) := by
  have hcalls (instances : List (Instance (ModuleId × ι))) (phase : Phase) :
      (instances.map Instance.slot).map (Step.call · phase) =
        instances.map fun i => .call i.slot phase := by
    simp [Function.comp_def]
  obtain ⟨result, after, bus₁, world₁, records, hplain, hobserved, hfollows, hafter, hslots⟩ :=
    env.runPhase_observed context .init instances htagged bus world log
  rw [runPhases, runPhases, run_bind, run_bind, hplain, hobserved, callSteps, hcalls]
  cases result with
  | error e =>
    exact ⟨_, after, bus₁, world₁, records, rfl, rfl, hfollows.append_of_error _⟩
  | ok done =>
    obtain ⟨result, after₂, bus₂, world₂, records₂, hplain, hobserved, hfollows₂, hafter₂,
      hslots₂⟩ := env.runEvents_observed context events 1 after hafter bus₁ world₁ (log ++ records)
    rw [hslots] at hfollows₂
    simp only [run_bind, hplain, hobserved]
    cases result with
    | error e =>
      refine ⟨_, after₂, bus₂, world₂, records ++ records₂, rfl, ?_,
        hfollows.append (hfollows₂.append_of_error _)⟩
      rw [← List.append_assoc]
      rfl
    | ok done =>
      obtain ⟨result, after₃, bus₃, world₃, records₃, hplain, hobserved, hfollows₃, -, -⟩ :=
        env.runPhase_observed context .finalize after₂ hafter₂ bus₂ world₂
          (log ++ records ++ records₂)
      rw [← hcalls, hslots₂, hslots, hcalls] at hfollows₃
      refine ⟨result, after₃, bus₃, world₃, records ++ (records₂ ++ records₃), hplain, ?_, ?_⟩
      · rw [← List.append_assoc, ← List.append_assoc]
        exact hobserved
      · rw [hcalls]
        exact hfollows.append (hfollows₂.append hfollows₃)

end Phases

end Environment

end TestBeam
