import TestBeam.Files.Tree
import TestBeam.Proofs.Stage.Initialization

/-!
# Runs of the built-in stages

Whether a run of the built-in stages completes is settled by its plan: by the order of the instances, and by
what the detectors say about where they stand.
-/

namespace TestBeam.Stage

/-! ## Readiness -/

/-- The instances that one needs before it is initialised. -/
def needs (id : ModuleId) : List ModuleId :=
  if id.name = Propagation.name then [⟨ElectricFieldSource.name, id.detector⟩]
  else if id.name = Transfer.name then [⟨Propagation.name, id.detector⟩]
  else if id.name ∈ [MagneticFieldSource.name, ElectricFieldSource.name, ParticleSource.name,
    PlaneHistogram.name] then [⟨Placing.name, none⟩]
  else []

/-- An instance comes after those that it needs. Detectors are placed only where all can be placed. -/
def InitReady (c : Configuration) : Readiness := fun before id =>
  (∀ other ∈ needs id, other ∈ before) ∧ (id.name = Placing.name → c.CanPlace)

/-- A histogram comes after the source of the particles that it counts. -/
def EventReady : Readiness := fun before id =>
  id.name = PlaneHistogram.name → ⟨ParticleSource.name, none⟩ ∈ before

section Readiness

variable {c : Configuration} {before : List ModuleId} {name : String} {detector : Option String}

theorem initReady_placing : InitReady c before ⟨Placing.name, none⟩ ↔ c.CanPlace := by
  simp [InitReady, needs, Placing.name, Propagation.name, Transfer.name, MagneticFieldSource.name,
    ElectricFieldSource.name, ParticleSource.name, PlaneHistogram.name]

theorem initReady_digitizer : InitReady c before ⟨Digitizer.name, detector⟩ ↔ True := by
  simp [InitReady, needs, Digitizer.name, Propagation.name, Transfer.name, MagneticFieldSource.name,
    ElectricFieldSource.name, ParticleSource.name, PlaneHistogram.name, Placing.name]

theorem initReady_propagation : InitReady c before ⟨Propagation.name, detector⟩ ↔
    ⟨ElectricFieldSource.name, detector⟩ ∈ before := by
  simp [InitReady, needs, Propagation.name, Placing.name]

theorem initReady_transfer : InitReady c before ⟨Transfer.name, detector⟩ ↔
    ⟨Propagation.name, detector⟩ ∈ before := by
  simp [InitReady, needs, Transfer.name, Propagation.name, Placing.name]

theorem initReady_of_placed (hname : name ∈ [MagneticFieldSource.name, ElectricFieldSource.name,
    ParticleSource.name, PlaneHistogram.name]) :
    InitReady c before ⟨name, detector⟩ ↔ ⟨Placing.name, none⟩ ∈ before := by
  have hother : name ≠ Propagation.name ∧ name ≠ Transfer.name ∧ name ≠ Placing.name := by
    revert name
    decide
  unfold InitReady needs
  rw [if_neg hother.1, if_neg hother.2.1, if_pos hname]
  simp [hother.2.2]

end Readiness

/-! ## Initialisation -/

def Placed : Stage → Prop
  | .planeHistogram s => s.placement.isSome
  | _ => True

structure Initialised (detectors : List String) (id : ModuleId) (stage : Stage) : Prop where
  serves : Serves detectors id stage
  placed : stage.Placed

/-! ## Events -/

/-- The particles on the bus are those of the event if their source had its turn, and older ones if not. -/
structure Supplied (event : Nat) (done : List ModuleId) (bus : RunBus) : Prop where
  current : ⟨ParticleSource.name, none⟩ ∈ done →
    ∃ primaries, bus.get? .primaries = some primaries ∧ primaries.event = event
  past : ⟨ParticleSource.name, none⟩ ∉ done →
    ∀ primaries, bus.get? .primaries = some primaries → primaries.event < event

namespace Supplied

variable {event : Nat} {done : List ModuleId} {bus : RunBus}

theorem of_published {detectors : List String} (h : Published detectors done bus) (event : Nat) :
    Supplied event [] bus where
  current := by simp
  past := by simp [h.primaries]

theorem next (h : Supplied event done bus) : Supplied (event + 1) [] bus where
  current := by simp
  past := by
    rintro - primaries hprimaries
    by_cases hsource : ⟨ParticleSource.name, none⟩ ∈ done
    · obtain ⟨current, hcurrent, hevent⟩ := h.current hsource
      obtain rfl : current = primaries := Option.some.inj (hcurrent.symm.trans hprimaries)
      omega
    · have hpast := h.past hsource primaries hprimaries
      omega

theorem keep (h : Supplied event done bus) {name : String} (hname : name ≠ ParticleSource.name)
    (detector : Option String) : Supplied event (done ++ [⟨name, detector⟩]) bus := by
  have hother : (⟨ParticleSource.name, none⟩ : ModuleId) ∈ done ++ [⟨name, detector⟩] ↔
      ⟨ParticleSource.name, none⟩ ∈ done := by
    simp [Ne.symm hname]
  constructor
  · rw [hother]
    exact h.current
  · rw [hother]
    exact h.past

theorem find_iff (h : Supplied event done bus) :
    ⟨ParticleSource.name, none⟩ ∈ done ↔
      ∃ primaries, bus.get? .primaries = some primaries ∧ primaries.event = event := by
  refine ⟨h.current, ?_⟩
  rintro ⟨primaries, hprimaries, hevent⟩
  by_contra hsource
  have hpast := h.past hsource primaries hprimaries
  omega

end Supplied

section Hinges

variable {σ : Type} {context : Context} {event : Nat} {done : List ModuleId} {bus : RunBus} (world : σ)

theorem ParticleSource.step_hinges (hevent : context.event = some event) (s : ParticleSource) :
    (s.step context : Call (StateM σ) ParticleSource).HingesOn bus world True
      fun _ bus => Supplied event (done ++ [⟨name, none⟩]) bus := by
  refine ⟨fun _ => ?_, fun h => absurd trivial h⟩
  unfold step
  rw [hevent]
  refine ⟨_, _, rfl, fun _ => ⟨_, Bus.get?_put_self bus .primaries _, rfl⟩, ?_⟩
  simp

theorem PlaneHistogram.currentPrimaries_hinges (h : Supplied event done bus) :
    (currentPrimaries event : Call (StateM σ) Primaries).HingesOn bus world
      (⟨ParticleSource.name, none⟩ ∈ done) fun _ busAfter => busAfter = bus := by
  rw [h.find_iff]
  unfold currentPrimaries
  constructor
  · rintro ⟨primaries, hprimaries, hevent⟩
    refine ⟨primaries, bus, ?_, rfl⟩
    rw [Call.outcome_get?_bind, hprimaries]
    simp only [hevent, if_true]
    rfl
  · intro hnot
    rw [Call.outcome_get?_bind]
    cases hprimaries : bus.get? .primaries with
    | none => exact ⟨_, _, rfl⟩
    | some primaries =>
      have hstale : primaries.event ≠ event := fun hevent => hnot ⟨primaries, hprimaries, hevent⟩
      simp only [hstale, if_false]
      exact ⟨_, _, rfl⟩

theorem PlaneHistogram.step_hinges (h : Supplied event done bus) (hevent : context.event = some event)
    (s : PlaneHistogram) (hplaced : s.placement.isSome) :
    (s.step context : Call (StateM σ) PlaneHistogram).HingesOn bus world
      (⟨ParticleSource.name, none⟩ ∈ done)
      fun changed bus => changed.detector = s.detector ∧ changed.placement.isSome ∧
        Supplied event (done ++ [⟨name, some s.detector⟩]) bus := by
  obtain ⟨placement, hplacement⟩ := Option.isSome_iff_exists.mp hplaced
  have hafter := h.keep (show name ≠ ParticleSource.name by decide) (some s.detector)
  unfold step
  rw [hplacement, hevent]
  refine (currentPrimaries_hinges world h).map ?_
  rintro primaries busAfter rfl
  exact ⟨rfl, by simp, hafter⟩

theorem eventReady_of_ne {before : List ModuleId} {name : String} (hname : name ≠ PlaneHistogram.name)
    (detector : Option String) : EventReady before ⟨name, detector⟩ ↔ True := by
  simp [EventReady, hname]

theorem idle_hinges (h : Supplied event done bus) {detectors : List String} {stage : Stage}
    {name : String} {detector : Option String} (hstage : Initialised detectors ⟨name, detector⟩ stage)
    (hname : name ∉ [ParticleSource.name, PlaneHistogram.name]) :
    (pure stage : Call (StateM σ) Stage).HingesOn bus world
      (EventReady done ⟨name, detector⟩)
      fun changed busAfter => Initialised detectors ⟨name, detector⟩ changed ∧
        Supplied event (done ++ [⟨name, detector⟩]) busAfter := by
  simp only [List.mem_cons, List.not_mem_nil, or_false, not_or] at hname
  rw [eventReady_of_ne hname.2]
  exact ⟨fun _ => ⟨stage, bus, rfl, hstage, h.keep hname.1 detector⟩, fun h => absurd trivial h⟩

end Hinges

/-! ## Whole runs -/

section Specs

variable {σ : Type} [FileStore (StateM σ)] {c : Configuration} {context : Context}
  {detectors : List String} (clock : StateM σ Float)

theorem init_spec (htable : DetectorTable.ofEntries c.detectors = .ok context.detectors) :
    (environment clock).PhaseSpec context .init (InitReady c)
      (Published (c.detectors.map Entry.name)) (Serves (c.detectors.map Entry.name))
      (Initialised (c.detectors.map Entry.name)) := by
  intro before id stage bus world hserves h
  cases hserves with
  | placing s =>
    rw [initReady_placing]
    exact (Placing.init_hinges h world htable rfl s).map fun _ _ hafter =>
      ⟨⟨.placing s, trivial⟩, hafter⟩
  | magneticField s =>
    rw [initReady_of_placed (by simp)]
    exact (MagneticFieldSource.init_hinges h world s).map fun _ _ hafter =>
      ⟨⟨.magneticField s, trivial⟩, hafter⟩
  | electricField s hdetector =>
    rw [initReady_of_placed (by simp)]
    exact (ElectricFieldSource.init_hinges h world s hdetector).map fun _ _ hafter =>
      ⟨⟨.electricField s hdetector, trivial⟩, hafter⟩
  | particleSource s =>
    rw [initReady_of_placed (by simp)]
    exact (ParticleSource.init_hinges h world).map fun _ _ hafter =>
      ⟨⟨.particleSource s, trivial⟩, hafter⟩
  | propagation s hid =>
    rw [initReady_propagation]
    exact (Propagation.init_hinges h world s hid).map fun _ _ hafter =>
      ⟨⟨.propagation s hid, trivial⟩, hafter⟩
  | transfer s hid =>
    rw [initReady_transfer]
    exact (Transfer.init_hinges h world s hid).map fun _ _ hafter =>
      ⟨⟨.transfer s hid, trivial⟩, hafter⟩
  | digitizer s detector hid =>
    rw [initReady_digitizer]
    exact (Digitizer.init_hinges h world s hid).map fun _ _ hafter =>
      ⟨⟨.digitizer s detector hid, trivial⟩, hafter⟩
  | planeHistogram s hdetector =>
    rw [initReady_of_placed (by simp)]
    refine (PlaneHistogram.init_hinges h world s hdetector).map ?_
    rintro changed busAfter ⟨hsame, hplaced, hafter⟩
    rw [← hsame] at hdetector hafter ⊢
    exact ⟨⟨.planeHistogram changed hdetector, hplaced⟩, hafter⟩

theorem event_spec (event : Nat) :
    (environment clock).PhaseSpec context (.event event) EventReady (Supplied event)
      (Initialised detectors) (Initialised detectors) := by
  intro before id stage bus world hstage h
  have hserves := hstage.serves
  cases hserves with
  | placing s => exact idle_hinges world h hstage (by decide)
  | magneticField s => exact idle_hinges world h hstage (by decide)
  | electricField s hdetector => exact idle_hinges world h hstage (by decide)
  | particleSource s =>
    rw [eventReady_of_ne (by decide)]
    exact (ParticleSource.step_hinges world rfl s).map fun changed _ hafter =>
      ⟨⟨.particleSource changed, trivial⟩, hafter⟩
  | propagation s hid => exact idle_hinges world h hstage (by decide)
  | transfer s hid => exact idle_hinges world h hstage (by decide)
  | digitizer s detector hid => exact idle_hinges world h hstage (by decide)
  | planeHistogram s hdetector =>
    have hready : EventReady before ⟨PlaneHistogram.name, some s.detector⟩ ↔
        ⟨ParticleSource.name, none⟩ ∈ before := by
      simp [EventReady]
    rw [hready]
    refine (PlaneHistogram.step_hinges world h rfl s hstage.placed).map ?_
    rintro changed busAfter ⟨hsame, hplaced, hafter⟩
    rw [← hsame] at hdetector hafter ⊢
    exact ⟨⟨.planeHistogram changed hdetector, hplaced⟩, hafter⟩

theorem finalize_spec (hdirectory : context.global.get? "output_directory" = none) :
    (environment clock).PhaseSpec context .finalize (fun _ _ => True) (fun _ _ => True)
      (Initialised detectors) fun _ _ => True := by
  intro before id stage bus world _ _
  refine ⟨fun _ => ⟨stage, bus, ?_, trivial, trivial⟩, fun h => absurd trivial h⟩
  change (Stage.finalize _ stage).outcome bus world = _
  cases stage with
  | planeHistogram s =>
    unfold Stage.finalize PlaneHistogram.finalize
    simp only [hdirectory]
    rfl
  | _ => rfl

variable (context) in
theorem run_spec (htable : DetectorTable.ofEntries c.detectors = .ok context.detectors)
    (hdirectory : context.global.get? "output_directory" = none) :
    (environment clock).RunSpec context (InitReady c) EventReady
      (Published (c.detectors.map Entry.name)) Supplied (Serves (c.detectors.map Entry.name))
      (Initialised (c.detectors.map Entry.name)) where
  aborted := rfl
  empty := Published.empty _
  init := init_spec clock htable
  first h := .of_published h 1
  event := event_spec clock
  next h := h.next
  finalize := finalize_spec clock hdirectory

end Specs

section Runs

variable {σ : Type} [FileStore (StateM σ)] {c : Configuration} {planned : List PlannedInstance}
  {global : Entry}

theorem execute_ends {prepared : Environment.Preparation} (clock : StateM σ Float)
    (hprepare : (environment clock).prepare c = .ok prepared)
    (hplan : c.plan (environment clock).registry = .ok prepared.planned)
    (hdirectory : prepared.global.get? "output_directory" = none) (runId : RunId) (world : σ) :
    (∃ index id cause, (((environment clock).execute runId c).run world).1 =
      .error (.construction index id cause)) ∨
    RunEnd (InitReady c) EventReady (prepared.planned.map PlannedInstance.slot)
      prepared.settings.events (((environment clock).execute runId c).run world).1 := by
  obtain ⟨-, -, htable⟩ := (environment clock).reads_of_prepare hprepare
  obtain ⟨blueprints, hplanned, hfits, hconstruct⟩ := (environment clock).construct_eq_constructAll
    (fun p hp seed => Environment.setupOf_fits hplan hp htable prepared.global seed)
    (Generator.ofSeed prepared.settings.seed)
  rw [Environment.execute_run _ hprepare, hconstruct]
  rcases constructAll_run blueprints hfits world with
    ⟨index, id, cause, hrun⟩ | ⟨instances, hrun, hslots, hserves⟩
  · rw [hrun]
    exact .inl ⟨index, id, cause, rfl⟩
  · obtain ⟨result, after, bus, worldAfter, hphases, hend⟩ :=
      (run_spec ⟨prepared.global, prepared.detectors, runId, none⟩ clock htable hdirectory).run
        prepared.settings.events instances hserves world
    have hslots' : instances.map Instance.slot = prepared.planned.map PlannedInstance.slot := by
      rw [hslots, ← hplanned, List.map_map]
      rfl
    rw [hslots'] at hend
    right
    simp only [hrun, hphases]
    cases hend with
    | completed hinit hevents => exact .completed hinit hevents _
    | initFailed hinit cause => exact .initFailed hinit cause
    | eventFailed hinit hevents hevent cause => exact .eventFailed hinit hevents hevent cause

/--
The plan settles whether a run of the built-in stages completes: it does exactly if every instance comes after
those that it needs, and a source of particles comes before the histograms if there are events. Otherwise
the run ends with the first instance that comes too early.
-/
theorem run_decided_by_order (clock : StateM σ Float) (runId : RunId) (world : σ)
    (hplan : c.plan registry = .ok planned) (hglobal : c.global = some global)
    (hdirectory : global.get? "output_directory" = none)
    (hconstructs : ∀ index id cause,
      (((environment clock).run runId c).run world).1 ≠ .error (.construction index id cause)) :
    ∃ events, global.countOr "number_of_events" 1 = .ok events ∧
      ((∃ summary, (((environment clock).run runId c).run world).1 = .ok summary) ↔
        Ordered (InitReady c) (planned.map PlannedInstance.slot) ∧
          (events = 0 ∨ Ordered EventReady (planned.map PlannedInstance.slot))) ∧
      RunEnd (InitReady c) EventReady (planned.map PlannedInstance.slot) events
        (((environment clock).run runId c).run world).1 := by
  have hplan' : c.plan (environment clock).registry = .ok planned := by
    rw [plan_environment, hplan]
  obtain ⟨prepared, hprepare, rfl, hglobal', hevents⟩ := (environment clock).prepare_of_plan hplan'
  obtain rfl : prepared.global = global := Option.some.inj (hglobal'.symm.trans hglobal)
  have hresult : ∃ elapsed worldBefore, (((environment clock).run runId c).run world).1 =
      (((environment clock).execute runId c).run worldBefore).1.map fun done =>
        done.summary runId elapsed :=
    ⟨_, _, rfl⟩
  obtain ⟨elapsed, worldBefore, hresult⟩ := hresult
  rw [hresult] at hconstructs ⊢
  rcases execute_ends clock hprepare hplan' hdirectory runId worldBefore with
    ⟨index, id, cause, hfailed⟩ | hend
  · refine absurd ?_ (hconstructs index id cause)
    rw [hfailed]
    rfl
  · have hend' := hend.map fun done => done.summary runId elapsed
    exact ⟨prepared.settings.events, hevents, hend'.ok_iff, hend'⟩

end Runs

def beamlineGlobal : Entry :=
  Entry.ofPairs "Allpix" [("number_of_events", .integer 2)]

/-- A beam through one detector, whose histogram comes after the source. -/
def beamline : Configuration where
  global := some beamlineGlobal
  modules := [
    Entry.empty Placing.name,
    Entry.ofPairs ParticleSource.name [
      ("particle_type", .text "e-"), ("source_energy", .text "5GeV"),
      ("source_position", .text "0 0 0")],
    Entry.empty PlaneHistogram.name]
  detectors := [Entry.ofPairs "dut" [("type", .text "strip")]]

def beamlinePlan : List PlannedInstance :=
  [⟨0, ⟨Placing.name, none⟩, .unique⟩, ⟨1, ⟨ParticleSource.name, none⟩, .unique⟩,
    ⟨2, ⟨PlaneHistogram.name, some "dut"⟩, .perDetector⟩]

theorem run_decided_by_order_beamline :
    beamline.plan registry = .ok beamlinePlan ∧
      beamlineGlobal.get? "output_directory" = none ∧
      ∃ events, beamlineGlobal.countOr "number_of_events" 1 = .ok events ∧
        ((∃ summary, (((environment (pure 0 : StateM FileTree Float)).run ⟨"id"⟩ beamline).run
            ⟨[], []⟩).1 = .ok summary) ↔
          Ordered (InitReady beamline) (beamlinePlan.map PlannedInstance.slot) ∧
            (events = 0 ∨ Ordered EventReady (beamlinePlan.map PlannedInstance.slot))) ∧
        RunEnd (InitReady beamline) EventReady (beamlinePlan.map PlannedInstance.slot) events
          (((environment (pure 0 : StateM FileTree Float)).run ⟨"id"⟩ beamline).run ⟨[], []⟩).1 := by
  have hplan : beamline.plan registry = .ok beamlinePlan := by decide +kernel
  have hglobal : beamline.global = some beamlineGlobal := rfl
  have hdirectory : beamlineGlobal.get? "output_directory" = none := by decide +kernel
  have hok : (((environment (pure 0 : StateM FileTree Float)).run ⟨"id"⟩ beamline).run
      ⟨[], []⟩).1.isOk := by
    decide +kernel
  have hconstructs (index : Nat) (id : ModuleId) (cause : StageError) :
      (((environment (pure 0 : StateM FileTree Float)).run ⟨"id"⟩ beamline).run ⟨[], []⟩).1 ≠
        .error (.construction index id cause) := by
    intro h
    rw [h] at hok
    cases hok
  exact ⟨hplan, hdirectory, run_decided_by_order (pure 0 : StateM FileTree Float) ⟨"id"⟩ ⟨[], []⟩
    hplan hglobal hdirectory hconstructs⟩

end TestBeam.Stage
