import TestBeam.Proofs.Executor.Calls
import TestBeam.Proofs.Executor.Run

/-!
# Sightings

A run can be watched at its bus: each call leaves a sighting with the bus in front of it and behind it.
Watching changes nothing else, and the sightings of a run are a trace of its calls.
-/

namespace TestBeam

structure Sighting (ι : Type) where
  hook : Hook
  event : Option Nat
  /-- The module that is called. -/
  module : ι
  before : RunBus
  result : Except StageError ι
  after : RunBus

variable {σ ι α : Type}

/-- Does something in a world and adds sightings of it. -/
def noting (action : StateM σ α) (sightings : α → List (Sighting ι)) :
    StateM (σ × List (Sighting ι)) α :=
  fun (world, log) =>
    let (a, world) := action.run world
    (a, (world, log ++ sightings a))

theorem noting_run {action : StateM σ α} {world next : σ} {a : α}
    (h : action.run world = (a, next)) (sightings : α → List (Sighting ι))
    (log : List (Sighting ι)) :
    (noting action sightings).run (world, log) = (a, (next, log ++ sightings a)) := by
  change (match action.run world with
    | (a, world) => (a, (world, log ++ sightings a))) = _
  rw [h]

namespace Environment

/-- The same modules in a world that keeps sightings of their calls. -/
def watched (env : Environment (StateM σ) ι) : Environment (StateM (σ × List (Sighting ι))) ι where
  registry := env.registry.mapFactories fun factory setup => noting (factory setup) fun _ => []
  call := fun module hook context => ExceptT.mk fun bus =>
    noting ((env.call module hook context).run.run bus) fun (result, after) =>
      [⟨hook, context.event, module, bus, result, after⟩]
  aborted := noting env.aborted fun _ => []
  clock := noting env.clock fun _ => []

/-! ## What is seen -/

section Seen

variable {env : Environment (StateM σ) ι} {world next : σ}

theorem watched_resolve {registration : Registration (Setup → StateM σ (Except StageError ι))}
    {name : String} (h : env.registry.resolve name = .ok registration) :
    env.watched.registry.resolve name =
      .ok ⟨registration.kind, fun setup => noting (registration.factory setup) fun _ => []⟩ := by
  unfold watched
  rw [Registry.resolve_mapFactories, h]
  rfl

theorem noting_nothing_run {action : StateM σ α} {a : α} (h : action.run world = (a, next))
    (log : List (Sighting ι)) : (noting action fun _ => []).run (world, log) = (a, (next, log)) := by
  have hrun := noting_run h (fun _ => []) log
  rwa [List.append_nil] at hrun

theorem watched_call_run {module : ι} {hook : Hook} {context : Context} {bus busAfter : RunBus}
    {result : Except StageError ι}
    (h : (env.call module hook context).outcome bus world = ((result, busAfter), next))
    (log : List (Sighting ι)) :
    ((env.watched.call module hook context).run.run bus).run (world, log) =
      ((result, busAfter),
        (next, log ++ [⟨hook, context.event, module, bus, result, busAfter⟩])) :=
  noting_run h (fun r => [⟨hook, context.event, module, bus, r.1, r.2⟩]) log

end Seen

/-! ## Traces -/

section Traces

variable (env : Environment (StateM σ) ι) (context : Context)

/-- What the calls of a phase do: the instances, the bus and the sightings until the phase ends. -/
inductive PhaseTrace (phase : Phase) :
    List (Instance ι) → RunBus → List (Sighting ι) → Except RunError Unit → List (Instance ι) →
      RunBus → Prop where
  | nil (bus : RunBus) : PhaseTrace phase [] bus [] (.ok ()) [] bus
  | aborted (i : Instance ι) (rest : List (Instance ι)) (bus : RunBus) :
      PhaseTrace phase (i :: rest) bus [] (.error (.aborted i.index i.id phase)) (i :: rest) bus
  | failed {i : Instance ι} {rest : List (Instance ι)} {bus busAfter : RunBus} {world next : σ}
      {cause : StageError}
      (h : (env.call i.module phase.hook { context with event := phase.event? }).outcome bus world =
        ((.error cause, busAfter), next)) :
      PhaseTrace phase (i :: rest) bus
        [⟨phase.hook, phase.event?, i.module, bus, .error cause, busAfter⟩]
        (.error (.call i.index i.id phase cause)) (i :: rest) busAfter
  | called {i : Instance ι} {rest after : List (Instance ι)} {bus busAfter busLast : RunBus}
      {world next : σ} {module : ι} {log : List (Sighting ι)} {result : Except RunError Unit}
      (h : (env.call i.module phase.hook { context with event := phase.event? }).outcome bus world =
        ((.ok module, busAfter), next))
      (elapsedSeconds : Float) (hrest : PhaseTrace phase rest busAfter log result after busLast) :
      PhaseTrace phase (i :: rest) bus
        (⟨phase.hook, phase.event?, i.module, bus, .ok module, busAfter⟩ :: log) result
        ({ i with module, elapsedSeconds } :: after) busLast

inductive EventsTrace :
    (remaining event : Nat) → List (Instance ι) → RunBus → List (Sighting ι) →
      Except RunError Unit → List (Instance ι) → RunBus → Prop where
  | done (event : Nat) (instances : List (Instance ι)) (bus : RunBus) :
      EventsTrace 0 event instances bus [] (.ok ()) instances bus
  | failed {remaining event : Nat} {instances after : List (Instance ι)} {bus busAfter : RunBus}
      {log : List (Sighting ι)} {e : RunError}
      (h : PhaseTrace env context (.event event) instances bus log (.error e) after busAfter) :
      EventsTrace (remaining + 1) event instances bus log (.error e) after busAfter
  | next {remaining event : Nat} {instances after last : List (Instance ι)}
      {bus busAfter busLast : RunBus} {log more : List (Sighting ι)} {result : Except RunError Unit}
      (h : PhaseTrace env context (.event event) instances bus log (.ok ()) after busAfter)
      (hrest : EventsTrace remaining (event + 1) after busAfter more result last busLast) :
      EventsTrace (remaining + 1) event instances bus (log ++ more) result last busLast

inductive RunTrace (events : Nat) (instances : List (Instance ι)) :
    List (Sighting ι) → Except RunError Unit → List (Instance ι) → RunBus → Prop where
  | initFailed {log : List (Sighting ι)} {e : RunError} {after : List (Instance ι)} {bus : RunBus}
      (h : PhaseTrace env context .init instances Bus.empty log (.error e) after bus) :
      RunTrace events instances log (.error e) after bus
  | eventFailed {log more : List (Sighting ι)} {e : RunError} {after last : List (Instance ι)}
      {bus busLast : RunBus}
      (hinit : PhaseTrace env context .init instances Bus.empty log (.ok ()) after bus)
      (hevents : EventsTrace env context events 1 after bus more (.error e) last busLast) :
      RunTrace events instances (log ++ more) (.error e) last busLast
  | finalized {log more final : List (Sighting ι)} {result : Except RunError Unit}
      {after stepped last : List (Instance ι)} {bus busStepped busLast : RunBus}
      (hinit : PhaseTrace env context .init instances Bus.empty log (.ok ()) after bus)
      (hevents : EventsTrace env context events 1 after bus more (.ok ()) stepped busStepped)
      (hfinalize : PhaseTrace env context .finalize stepped busStepped final result last busLast) :
      RunTrace events instances (log ++ more ++ final) result last busLast

/-- What a whole run does, from the construction of its instances. -/
inductive ExecutionTrace (c : Configuration) (prepared : Preparation) (runId : RunId) (world : σ) :
    List (Sighting ι) → Except RunError (Completion ι) → Prop where
  | unconstructed {e : RunError}
      (h : ((env.construct c prepared.global prepared.detectors prepared.planned
        (Generator.ofSeed prepared.settings.seed)).run world).1 = .error e) :
      ExecutionTrace c prepared runId world [] (.error e)
  | constructed {instances after : List (Instance ι)} {log : List (Sighting ι)}
      {result : Except RunError Unit} {bus : RunBus}
      (h : ((env.construct c prepared.global prepared.detectors prepared.planned
        (Generator.ofSeed prepared.settings.seed)).run world).1 = .ok instances)
      (htrace : RunTrace env ⟨prepared.global, prepared.detectors, runId, none⟩
        prepared.settings.events instances log result after bus) :
      ExecutionTrace c prepared runId world log
        (result.map fun _ => ⟨prepared.settings.events, after, bus⟩)

end Traces

/-! ## What a trace shows -/

/-- A sighting shows what its call did. -/
def Shows (env : Environment (StateM σ) ι) (context : Context) (s : Sighting ι) : Prop :=
  ∃ world, ((env.call s.module s.hook { context with event := s.event }).outcome s.before world).1 =
    (s.result, s.after)

section Shown

variable {env : Environment (StateM σ) ι} {context : Context} {instances after : List (Instance ι)}
  {bus busAfter : RunBus} {log : List (Sighting ι)} {result : Except RunError Unit}

theorem PhaseTrace.shows {phase : Phase}
    (h : PhaseTrace env context phase instances bus log result after busAfter) :
    ∀ s ∈ log, s.hook = phase.hook ∧ s.event = phase.event? ∧ Shows env context s := by
  induction h with
  | nil bus => simp
  | aborted i rest bus => simp
  | @failed i rest bus busAfter world next cause hcall =>
    rw [List.forall_mem_singleton]
    exact ⟨rfl, rfl, world, congrArg Prod.fst hcall⟩
  | @called i rest after bus busAfter busLast world next module log result hcall elapsed hrest ih =>
    exact List.forall_mem_cons.mpr ⟨⟨rfl, rfl, world, congrArg Prod.fst hcall⟩, ih⟩

theorem PhaseTrace.getLast {phase : Phase}
    (h : PhaseTrace env context phase instances bus log result after busAfter) :
    ((log.getLast?.map Sighting.after).getD bus) = busAfter := by
  induction h with
  | nil bus => rfl
  | aborted i rest bus => rfl
  | failed hcall => rfl
  | @called i rest after bus busAfter busLast world next module log result hcall elapsed hrest ih =>
    rw [List.getLast?_cons]
    cases hlast : log.getLast? with
    | none => simpa [hlast] using ih
    | some s => simpa [hlast] using ih

theorem EventsTrace.shows {remaining event : Nat}
    (h : EventsTrace env context remaining event instances bus log result after busAfter) :
    ∀ s ∈ log, s.hook = .step ∧ Shows env context s := by
  induction h with
  | done event instances bus => simp
  | failed hphase => exact fun s hs => ⟨(hphase.shows s hs).1, (hphase.shows s hs).2.2⟩
  | next hphase hrest ih =>
    intro s hs
    rcases List.mem_append.mp hs with hs | hs
    · exact ⟨(hphase.shows s hs).1, (hphase.shows s hs).2.2⟩
    · exact ih s hs

theorem RunTrace.shows {events : Nat}
    (h : RunTrace env context events instances log result after busAfter) :
    ∀ s ∈ log, Shows env context s := by
  intro s hs
  cases h with
  | initFailed hinit => exact (hinit.shows s hs).2.2
  | eventFailed hinit hevents =>
    rcases List.mem_append.mp hs with hs | hs
    · exact (hinit.shows s hs).2.2
    · exact (hevents.shows s hs).2
  | finalized hinit hevents hfinalize =>
    rcases List.mem_append.mp hs with hs | hs
    · rcases List.mem_append.mp hs with hs | hs
      · exact (hinit.shows s hs).2.2
      · exact (hevents.shows s hs).2
    · exact (hfinalize.shows s hs).2.2

/-! ## Invariants of the bus -/

variable (holds : RunBus → Prop)

/-- What every call of a phase preserves holds behind each of them and at the end. -/
theorem PhaseTrace.invariant {phase : Phase}
    (h : PhaseTrace env context phase instances bus log result after busAfter)
    (hcall : ∀ s : Sighting ι, s.hook = phase.hook → Shows env context s → holds s.before →
      holds s.after) (hbus : holds bus) : (∀ s ∈ log, holds s.after) ∧ holds busAfter := by
  induction h with
  | nil bus => exact ⟨by simp, hbus⟩
  | aborted i rest bus => exact ⟨by simp, hbus⟩
  | @failed i rest bus busAfter world next cause hfirst =>
    have hnext := hcall ⟨phase.hook, phase.event?, i.module, bus, .error cause, busAfter⟩ rfl
      ⟨world, congrArg Prod.fst hfirst⟩ hbus
    exact ⟨by simpa using hnext, hnext⟩
  | @called i rest after bus busAfter busLast world next module log result hfirst elapsed hrest ih =>
    have hnext := hcall ⟨phase.hook, phase.event?, i.module, bus, .ok module, busAfter⟩ rfl
      ⟨world, congrArg Prod.fst hfirst⟩ hbus
    obtain ⟨hall, hlast⟩ := ih hnext
    exact ⟨List.forall_mem_cons.mpr ⟨hnext, hall⟩, hlast⟩

theorem EventsTrace.invariant {remaining event : Nat}
    (h : EventsTrace env context remaining event instances bus log result after busAfter)
    (hcall : ∀ s : Sighting ι, s.hook = .step → Shows env context s → holds s.before → holds s.after)
    (hbus : holds bus) : (∀ s ∈ log, holds s.after) ∧ holds busAfter := by
  induction h with
  | done event instances bus => exact ⟨by simp, hbus⟩
  | failed hphase => exact hphase.invariant holds hcall hbus
  | next hphase hrest ih =>
    obtain ⟨hfirst, hnext⟩ := hphase.invariant holds hcall hbus
    obtain ⟨hmore, hlast⟩ := ih hnext
    exact ⟨List.forall_mem_append.mpr ⟨hfirst, hmore⟩, hlast⟩

end Shown

/-! ## Watched phases -/

section Phases

variable (env : Environment (StateM σ) ι) (context : Context)

theorem runPhase_watched (phase : Phase) (instances : List (Instance ι)) (bus : RunBus) (world : σ)
    (log : List (Sighting ι)) :
    ∃ result after busAfter worldAfter seen,
      ((env.runPhase context phase instances).run bus).run world =
        (((result, after), busAfter), worldAfter) ∧
      ((env.watched.runPhase context phase instances).run bus).run (world, log) =
        (((result, after), busAfter), (worldAfter, log ++ seen)) ∧
      PhaseTrace env context phase instances bus seen result after busAfter := by
  induction instances generalizing bus world log with
  | nil =>
    refine ⟨.ok (), [], bus, world, [], rfl, ?_, .nil bus⟩
    unfold runPhase
    rw [List.append_nil]
    rfl
  | cons i rest ih =>
    rcases haborted : env.aborted.run world with ⟨aborted, world₁⟩
    have haborted' : env.watched.aborted.run (world, log) = (aborted, (world₁, log)) :=
      noting_nothing_run haborted log
    rw [runPhase_cons_run, runPhase_cons_run]
    simp only [haborted, haborted']
    cases aborted with
    | true =>
      refine ⟨_, i :: rest, bus, world₁, [], rfl, ?_, .aborted i rest bus⟩
      rw [List.append_nil]
      rfl
    | false =>
      rcases hstart : env.clock.run world₁ with ⟨start, world₂⟩
      rcases hcall : (env.call i.module phase.hook
        { context with event := phase.event? }).outcome bus world₂ with ⟨⟨result, busAfter⟩, world₃⟩
      rcases hstop : env.clock.run world₃ with ⟨stop, world₄⟩
      have hstart' : env.watched.clock.run (world₁, log) = (start, (world₂, log)) :=
        noting_nothing_run hstart log
      have hcall' := watched_call_run hcall log
      have hstop' (log : List (Sighting ι)) :
          env.watched.clock.run (world₃, log) = (stop, (world₄, log)) :=
        noting_nothing_run hstop log
      have hplain := hcall
      unfold Call.outcome at hplain
      simp only [callInstance_run, hstart, hstart', hplain, hcall', hstop, hstop']
      cases result with
      | error cause => exact ⟨_, i :: rest, busAfter, world₄, _, rfl, rfl, .failed hcall⟩
      | ok module =>
        obtain ⟨result, after, busLast, worldAfter, seen, hrun, hwatched, htrace⟩ :=
          ih busAfter world₄
            (log ++ [⟨phase.hook, phase.event?, i.module, bus, .ok module, busAfter⟩])
        refine ⟨result, _, busLast, worldAfter, _, ?_, ?_,
          .called hcall (i.elapsedSeconds + (stop - start)) htrace⟩
        · simp only [Except.map, hrun]
          rfl
        · simp only [Except.map, hwatched]
          rw [List.append_assoc]
          rfl

theorem runEvents_watched (remaining event : Nat) (instances : List (Instance ι)) (bus : RunBus)
    (world : σ) (log : List (Sighting ι)) :
    ∃ result after busAfter worldAfter seen,
      ((env.runEvents context remaining event instances).run bus).run world =
        (((result, after), busAfter), worldAfter) ∧
      ((env.watched.runEvents context remaining event instances).run bus).run (world, log) =
        (((result, after), busAfter), (worldAfter, log ++ seen)) ∧
      EventsTrace env context remaining event instances bus seen result after busAfter := by
  induction remaining generalizing event instances bus world log with
  | zero =>
    refine ⟨.ok (), instances, bus, world, [], rfl, ?_, .done event instances bus⟩
    unfold runEvents
    rw [List.append_nil]
    rfl
  | succ remaining ih =>
    obtain ⟨result, after, bus₁, world₁, seen, hrun, hwatched, htrace⟩ :=
      env.runPhase_watched context (.event event) instances bus world log
    rw [runEvents, runEvents, run_bind, run_bind, hrun, hwatched]
    cases result with
    | error e => exact ⟨_, after, bus₁, world₁, seen, rfl, rfl, .failed htrace⟩
    | ok done =>
      obtain ⟨result, last, bus₂, world₂, more, hrun₂, hwatched₂, htrace₂⟩ :=
        ih (event + 1) after bus₁ world₁ (log ++ seen)
      refine ⟨result, last, bus₂, world₂, seen ++ more, hrun₂, ?_, .next htrace htrace₂⟩
      rw [← List.append_assoc]
      exact hwatched₂

theorem runPhases_watched (events : Nat) (instances : List (Instance ι)) (world : σ)
    (log : List (Sighting ι)) :
    ∃ result after busAfter worldAfter seen,
      ((env.runPhases context events instances).run Bus.empty).run world =
        (((result, after), busAfter), worldAfter) ∧
      ((env.watched.runPhases context events instances).run Bus.empty).run (world, log) =
        (((result, after), busAfter), (worldAfter, log ++ seen)) ∧
      RunTrace env context events instances seen result after busAfter := by
  obtain ⟨result, after, bus₁, world₁, seen, hrun, hwatched, hinit⟩ :=
    env.runPhase_watched context .init instances Bus.empty world log
  rw [runPhases, runPhases, run_bind, run_bind, hrun, hwatched]
  cases result with
  | error e => exact ⟨_, after, bus₁, world₁, seen, rfl, rfl, .initFailed hinit⟩
  | ok done =>
    obtain ⟨result, stepped, bus₂, world₂, more, hrun₂, hwatched₂, hevents⟩ :=
      env.runEvents_watched context events 1 after bus₁ world₁ (log ++ seen)
    simp only [run_bind, hrun₂, hwatched₂]
    cases result with
    | error e =>
      refine ⟨_, stepped, bus₂, world₂, seen ++ more, rfl, ?_, .eventFailed hinit hevents⟩
      rw [← List.append_assoc]
      rfl
    | ok done =>
      obtain ⟨result, last, bus₃, world₃, final, hrun₃, hwatched₃, hfinalize⟩ :=
        env.runPhase_watched context .finalize stepped bus₂ world₂ (log ++ seen ++ more)
      refine ⟨result, last, bus₃, world₃, seen ++ more ++ final, hrun₃, ?_,
        .finalized hinit hevents hfinalize⟩
      rw [← List.append_assoc, ← List.append_assoc]
      exact hwatched₃

end Phases

/-! ## Watched runs -/

section Runs

variable (env : Environment (StateM σ) ι) {c : Configuration} {planned : List PlannedInstance}

theorem construct_watched (c : Configuration) (global : Entry) (detectors : DetectorTable)
    (planned : List PlannedInstance)
    (hregistered : ∀ p ∈ planned, ∃ registration,
      env.registry.resolve p.id.name = .ok registration)
    (generator : Generator) {world worldAfter : σ}
    {result : Except RunError (List (Instance ι))}
    (h : (env.construct c global detectors planned generator).run world = (result, worldAfter))
    (log : List (Sighting ι)) :
    (env.watched.construct c global detectors planned generator).run (world, log) =
      (result, (worldAfter, log)) := by
  induction planned generalizing generator world worldAfter result with
  | nil =>
    obtain ⟨rfl, rfl⟩ := Prod.mk.inj h
    rfl
  | cons p rest ih =>
    obtain ⟨registration, hresolve⟩ := hregistered p (by simp)
    rw [env.construct_cons_run c global detectors hresolve] at h
    rw [env.watched.construct_cons_run c global detectors (watched_resolve hresolve)]
    rcases hfactory : (registration.factory (setupOf c global detectors p generator.next.1)).run world
      with ⟨made, world₁⟩
    simp only [noting_nothing_run hfactory]
    rw [hfactory] at h
    cases made with
    | error cause =>
      obtain ⟨rfl, rfl⟩ := Prod.mk.inj h
      rfl
    | ok module =>
      rcases hrest : (env.construct c global detectors rest generator.next.2).run world₁
        with ⟨made, world₂⟩
      have hwatched := ih (fun q hq => hregistered q (by simp [hq])) generator.next.2 hrest
      simp only [hrest] at h
      simp only [hwatched]
      cases made with
      | error e =>
        obtain ⟨rfl, rfl⟩ := Prod.mk.inj h
        rfl
      | ok instances =>
        obtain ⟨rfl, rfl⟩ := Prod.mk.inj h
        rfl

theorem prepare_watched (c : Configuration) : env.watched.prepare c = env.prepare c := by
  rw [prepare, prepare, watched, Configuration.plan_mapFactories]

/-- A run that is watched is the same run, and its sightings are a trace of it. -/
theorem execute_watched (hplan : c.plan env.registry = .ok planned) (runId : RunId) (world : σ) :
    ∃ prepared result worldAfter log,
      env.prepare c = .ok prepared ∧ prepared.planned = planned ∧
      (env.execute runId c).run world = (result, worldAfter) ∧
      (env.watched.execute runId c).run (world, []) = (result, (worldAfter, log)) ∧
      ExecutionTrace env c prepared runId world log result := by
  obtain ⟨prepared, hprepare, rfl, -, -⟩ := env.prepare_of_plan hplan
  have hregistered : ∀ p ∈ prepared.planned, ∃ registration,
      env.registry.resolve p.id.name = .ok registration := by
    intro p hp
    obtain ⟨factory, hresolve⟩ :=
      Configuration.resolve_of_kind (Configuration.registered_of_plan hplan hp)
    exact ⟨_, hresolve⟩
  rcases hconstruct : (env.construct c prepared.global prepared.detectors prepared.planned
    (Generator.ofSeed prepared.settings.seed)).run world with ⟨made, world₁⟩
  have hwatched := env.construct_watched c _ _ _ hregistered _ hconstruct []
  rw [execute_run env hprepare, execute_run env.watched ((env.prepare_watched c).trans hprepare),
    hconstruct, hwatched]
  have hmade := congrArg Prod.fst hconstruct
  cases made with
  | error e => exact ⟨prepared, .error e, world₁, [], hprepare, rfl, rfl, rfl, .unconstructed hmade⟩
  | ok instances =>
    obtain ⟨result, after, bus, world₂, seen, hrun, hseen, htrace⟩ :=
      env.runPhases_watched ⟨prepared.global, prepared.detectors, runId, none⟩
        prepared.settings.events instances world₁ []
    simp only [hrun, hseen]
    refine ⟨prepared, _, world₂, seen, hprepare, rfl, ?_, ?_, .constructed hmade htrace⟩
    · cases result <;> rfl
    · cases result <;> rfl

end Runs

end Environment

end TestBeam
