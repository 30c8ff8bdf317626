import TestBeam.Proofs.Stage.Initialization

/-!
# What calls of the built-in stages do

One list for each hook of everything that a successful call does to its stage and to the bus. No call of a
step or at the end of a run touches what was published before the first event.
-/

namespace TestBeam.Stage

/-! ## Effects -/

inductive InitEffect (detectors : List Detector) (bus : RunBus) : Stage → Stage → RunBus → Prop where
  | placing (s : Placing) {placements : List (Placement Float)}
      (h : Placing.placeAll detectors = .ok placements) :
      InitEffect detectors bus (.placing s) (.placing s) (bus.put .geometry ⟨s.margin, placements⟩)
  | magneticField (s : MagneticFieldSource) {layout : DetectorLayout Float}
      (h : bus.get? .geometry = some layout) :
      InitEffect detectors bus (.magneticField s) (.magneticField s)
        (bus.put .magneticField ⟨s.field, MagneticFieldSource.perDetector s.field layout⟩)
  | electricField (s : ElectricFieldSource) :
      InitEffect detectors bus (.electricField s) (.electricField s)
        (bus.put .electricFields
          (((bus.get? .electricFields).getD NameMap.empty).insert s.detector s.field))
  | particleSource (s : ParticleSource) :
      InitEffect detectors bus (.particleSource s) (.particleSource s) bus
  | propagation (s : Propagation) :
      InitEffect detectors bus (.propagation s) (.propagation s)
        (bus.put .parameters (recordAll s.id (Propagation.recorded s.settings)
          ((bus.get? .parameters).getD NameMap.empty)))
  | transfer (s : Transfer) :
      InitEffect detectors bus (.transfer s) (.transfer s)
        ((bus.put .parameters ((bus.get? .parameters).getD NameMap.empty)).put .parameters
          (recordAll s.id [("max_depth_distance", s.maxDepthDistance)]
            ((bus.get? .parameters).getD NameMap.empty)))
  | digitizer (s : Digitizer) :
      InitEffect detectors bus (.digitizer s) (.digitizer s)
        (bus.put .parameters (recordAll s.id s.recorded
          ((bus.get? .parameters).getD NameMap.empty)))
  | planeHistogram (s : PlaneHistogram) {layout : DetectorLayout Float} {placement : Placement Float}
      (hlayout : bus.get? .geometry = some layout) (h : layout.get? s.detector = some placement) :
      InitEffect detectors bus (.planeHistogram s)
        (.planeHistogram { s with placement := some placement }) bus

/-- Only two stages do something in an event. -/
def Idle : Stage → Prop
  | .particleSource _ => False
  | .planeHistogram _ => False
  | _ => True

inductive StepEffect (event : Nat) (bus : RunBus) : Stage → Stage → RunBus → Prop where
  | idle {stage : Stage} (h : stage.Idle) : StepEffect event bus stage stage bus
  | particleSource (s : ParticleSource) :
      StepEffect event bus (.particleSource s)
        (.particleSource { s with
          generator := (s.settings.drawMany s.settings.particlesPerEvent s.generator).2 })
        (bus.put .primaries
          ⟨event, (s.settings.drawMany s.settings.particlesPerEvent s.generator).1⟩)
  | planeHistogram (s : PlaneHistogram) {placement : Placement Float} {primaries : Primaries}
      (hplacement : s.placement = some placement) (hprimaries : bus.get? .primaries = some primaries)
      (hevent : primaries.event = event) :
      StepEffect event bus (.planeHistogram s)
        (.planeHistogram { s with
          events := s.events + 1
          histogram := PlaneHistogram.countAll placement s.histogram primaries.vertices }) bus

/-! ## Successful calls -/

section Calls

variable {σ : Type} (context : Context) {stage changed : Stage} {bus busAfter : RunBus}
  {world next : σ}

theorem outcome_map {α : Type} {call : Call (StateM σ) α} {f : α → Stage}
    (h : (call >>= fun a => pure (f a)).outcome bus world = ((.ok changed, busAfter), next)) :
    ∃ a, call.outcome bus world = ((.ok a, busAfter), next) ∧ f a = changed := by
  rw [Call.outcome_bind] at h
  rcases hcall : call.outcome bus world with ⟨⟨result, after⟩, last⟩
  rw [hcall] at h
  cases result with
  | error cause => cases h
  | ok a =>
    cases h
    exact ⟨a, rfl, rfl⟩

theorem init_ok (h : (stage.init context : Call (StateM σ) Stage).outcome bus world =
    ((.ok changed, busAfter), next)) :
    InitEffect context.detectors.detectors bus stage changed busAfter := by
  -- An initialisation that succeeds passed all its checks, which leaves one branch of each.
  cases stage with
  | placing s =>
    obtain ⟨_, hcall, rfl⟩ := outcome_map h
    rw [Placing.outcome_init] at hcall
    split at hcall
    · cases hcall
    · cases hplace : Placing.placeAll context.detectors.detectors with
      | error cause =>
        rw [hplace] at hcall
        cases hcall
      | ok placements =>
        rw [hplace] at hcall
        cases hcall
        exact .placing s hplace
  | magneticField s =>
    obtain ⟨_, hcall, rfl⟩ := outcome_map h
    rw [MagneticFieldSource.outcome_init] at hcall
    cases hlayout : bus.get? .geometry with
    | none =>
      rw [hlayout] at hcall
      cases hcall
    | some layout =>
      rw [hlayout] at hcall
      cases hcall
      exact .magneticField s hlayout
  | electricField s =>
    obtain ⟨_, hcall, rfl⟩ := outcome_map h
    rw [ElectricFieldSource.outcome_init] at hcall
    split at hcall
    · cases hcall
      exact .electricField s
    · cases hcall
  | particleSource s =>
    obtain ⟨_, hcall, rfl⟩ := outcome_map h
    rw [ParticleSource.outcome_init] at hcall
    split at hcall
    · cases hcall
      exact .particleSource s
    · cases hcall
  | propagation s =>
    obtain ⟨_, hcall, rfl⟩ := outcome_map h
    rw [Propagation.outcome_init] at hcall
    split at hcall
    · cases hcall
      exact .propagation s
    · cases hcall
  | transfer s =>
    obtain ⟨_, hcall, rfl⟩ := outcome_map h
    rw [Transfer.outcome_init] at hcall
    simp only at hcall
    split at hcall
    · cases hcall
      exact .transfer s
    · cases hcall
  | digitizer s =>
    obtain ⟨_, hcall, rfl⟩ := outcome_map h
    rw [Digitizer.outcome_init] at hcall
    cases hcall
    exact .digitizer s
  | planeHistogram s =>
    obtain ⟨_, hcall, rfl⟩ := outcome_map h
    rw [PlaneHistogram.outcome_init] at hcall
    cases hplacement : (bus.get? .geometry).bind fun layout => layout.get? s.detector with
    | none =>
      rw [hplacement] at hcall
      cases hcall
    | some placement =>
      rw [hplacement] at hcall
      obtain ⟨layout, hlayout, hget⟩ := Option.bind_eq_some_iff.mp hplacement
      cases hcall
      exact .planeHistogram s hlayout hget

theorem PlaneHistogram.outcome_currentPrimaries (event : Nat) (bus : RunBus) (world : σ) :
    (currentPrimaries event : Call (StateM σ) Primaries).outcome bus world =
      match bus.get? .primaries with
      | none => ((.error (.noPrimaries event), bus), world)
      | some primaries =>
        if primaries.event = event then ((.ok primaries, bus), world)
        else ((.error (.stalePrimaries primaries.event event), bus), world) := by
  unfold currentPrimaries
  rw [Call.outcome_get?_bind]
  cases bus.get? .primaries with
  | none => rfl
  | some primaries =>
    simp only
    split <;> rfl

theorem PlaneHistogram.outcome_step (s : PlaneHistogram) (bus : RunBus) (world : σ) :
    (s.step context : Call (StateM σ) PlaneHistogram).outcome bus world =
      match s.placement, context.event with
      | none, _ => ((.error .histogramBeforeInit, bus), world)
      | _, none => ((.error .histogramOutsideEvent, bus), world)
      | some placement, some event =>
        match bus.get? .primaries with
        | none => ((.error (.noPrimaries event), bus), world)
        | some primaries =>
          if primaries.event = event then
            ((.ok { s with
              events := s.events + 1
              histogram := countAll placement s.histogram primaries.vertices }, bus), world)
          else ((.error (.stalePrimaries primaries.event event), bus), world) := by
  unfold step
  cases s.placement with
  | none => rfl
  | some placement =>
    cases context.event with
    | none => rfl
    | some event =>
      simp only
      rw [Call.outcome_bind, outcome_currentPrimaries]
      cases bus.get? .primaries with
      | none => rfl
      | some primaries =>
        simp only
        by_cases hevent : primaries.event = event
        · rw [if_pos hevent, if_pos hevent]
          rfl
        · rw [if_neg hevent, if_neg hevent]

theorem step_ok {event : Nat} (hevent : context.event = some event)
    (h : (stage.step context : Call (StateM σ) Stage).outcome bus world =
      ((.ok changed, busAfter), next)) : StepEffect event bus stage changed busAfter := by
  cases stage with
  | particleSource s =>
    obtain ⟨_, hcall, rfl⟩ := outcome_map h
    unfold ParticleSource.step at hcall
    rw [hevent] at hcall
    cases hcall
    exact .particleSource s
  | planeHistogram s =>
    obtain ⟨_, hcall, rfl⟩ := outcome_map h
    rw [PlaneHistogram.outcome_step, hevent] at hcall
    obtain ⟨id, detector, placement?, histogram, events⟩ := s
    cases placement? with
    | none => cases hcall
    | some placement =>
      cases hprimaries : bus.get? .primaries with
      | none =>
        rw [hprimaries] at hcall
        cases hcall
      | some primaries =>
        rw [hprimaries] at hcall
        simp only at hcall
        split at hcall
        · rename_i hcurrent
          cases hcall
          exact .planeHistogram _ rfl hprimaries hcurrent
        · cases hcall
  | placing s | magneticField s | electricField s | propagation s | transfer s | digitizer s =>
    cases h
    exact .idle trivial

theorem finalize_ok [FileStore (StateM σ)]
    (h : (stage.finalize context : Call (StateM σ) Stage).outcome bus world =
      ((.ok changed, busAfter), next)) : changed = stage := by
  cases stage with
  | planeHistogram s =>
    obtain ⟨_, -, rfl⟩ := outcome_map h
    rfl
  | _ =>
    cases h
    rfl

end Calls

/-! ## What calls leave alone -/

section Frames

variable {σ : Type} (stage : Stage) (context : Context) (bus : RunBus) (world : σ)

theorem bus_map {α : Type} (call : Call (StateM σ) α) (f : α → Stage) :
    ((call >>= fun a => pure (f a)).outcome bus world).1.2 = (call.outcome bus world).1.2 := by
  rw [Call.outcome_bind]
  rcases call.outcome bus world with ⟨⟨result, after⟩, last⟩
  cases result <;> rfl

theorem PlaneHistogram.bus_step (s : PlaneHistogram) :
    ((s.step context : Call (StateM σ) PlaneHistogram).outcome bus world).1.2 = bus := by
  rw [outcome_step]
  split
  · rfl
  · rfl
  · split
    · rfl
    · split <;> rfl

/-- A step changes nothing on the bus but the particles of the event, even where it fails. -/
theorem step_frame {topic : Topic} (htopic : topic ≠ .primaries) :
    ((stage.step context : Call (StateM σ) Stage).outcome bus world).1.2.get? topic =
      bus.get? topic := by
  cases stage with
  | particleSource s =>
    refine (congrArg (Bus.get? · topic) (bus_map bus world (s.step context) .particleSource)).trans ?_
    unfold ParticleSource.step
    cases context.event with
    | none => rfl
    | some event => exact Bus.get?_put_of_ne bus _ htopic
  | planeHistogram s =>
    refine congrArg (Bus.get? · topic) ((bus_map bus world (s.step context) .planeHistogram).trans ?_)
    exact PlaneHistogram.bus_step context bus world s
  | placing s | magneticField s | electricField s | propagation s | transfer s | digitizer s => rfl

theorem finalize_frame [FileStore (StateM σ)] :
    ((stage.finalize context : Call (StateM σ) Stage).outcome bus world).1.2 = bus := by
  cases stage with
  | planeHistogram s =>
    refine (bus_map bus world (s.finalize context) fun _ => .planeHistogram s).trans ?_
    unfold PlaneHistogram.finalize
    split <;> rfl
  | _ => rfl

end Frames

end TestBeam.Stage
