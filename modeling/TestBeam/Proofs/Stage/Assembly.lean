import TestBeam.Proofs.Executor.Sightings
import TestBeam.Proofs.Stage.Instances

/-!
# Assembly of the built-in stages

Each instance of a run is built for its place in the plan, from the entry of its module, with a seed that
only depends on its position. The stage tells which instance it is.
-/

namespace TestBeam.Stage

/-- The built-in stages with a clock and a way to ask for an abort. -/
def abortable {m : Type → Type} [Monad m] [FileStore m] (clock : m Float) (aborted : m Bool) :
    Environment m Stage :=
  { environment clock with aborted }

def id : Stage → ModuleId
  | .placing _ => ⟨Placing.name, none⟩
  | .magneticField _ => ⟨MagneticFieldSource.name, none⟩
  | .electricField s => ⟨ElectricFieldSource.name, some s.detector⟩
  | .particleSource _ => ⟨ParticleSource.name, none⟩
  | .propagation s => s.id
  | .transfer s => s.id
  | .digitizer s => s.id
  | .planeHistogram s => ⟨PlaneHistogram.name, some s.detector⟩

theorem Serves.id_eq {detectors : List String} {id : ModuleId} {stage : Stage}
    (h : Serves detectors id stage) : stage.id = id := by
  cases h with
  | propagation s hid => exact hid
  | transfer s hid => exact hid
  | digitizer s detector hid => exact hid
  | _ => rfl

theorem Serves.name_eq {detectors : List String} {id : ModuleId} {stage : Stage}
    (h : Serves detectors id stage) : stage.name = id.name := by
  cases h <;> rfl

theorem exists_particleSource {stage : Stage} (h : stage.name = ParticleSource.name) :
    ∃ s, stage = .particleSource s := by
  cases stage with
  | particleSource s => exact ⟨s, rfl⟩
  | _ => exact absurd h (by simp only [name]; decide)

theorem exists_planeHistogram {stage : Stage} (h : stage.name = PlaneHistogram.name) :
    ∃ s, stage = .planeHistogram s := by
  cases stage with
  | planeHistogram s => exact ⟨s, rfl⟩
  | _ => exact absurd h (by simp only [name]; decide)

theorem exists_electricField {stage : Stage} (h : stage.name = ElectricFieldSource.name) :
    ∃ s, stage = .electricField s := by
  cases stage with
  | electricField s => exact ⟨s, rfl⟩
  | _ => exact absurd h (by simp only [name]; decide)

def Constructs (setup : Setup) : Stage → Prop
  | .placing s => Placing.ofSetup setup = .ok s
  | .magneticField s => MagneticFieldSource.ofSetup setup = .ok s
  | .electricField s => ElectricFieldSource.ofSetup setup = .ok s
  | .particleSource s => ParticleSource.ofSetup setup = .ok s
  | .propagation s => Propagation.ofSetup setup = .ok s
  | .transfer s => Transfer.ofSetup setup = .ok s
  | .digitizer s => Digitizer.ofSetup setup = .ok s
  | .planeHistogram s => PlaneHistogram.ofSetup setup = .ok s

theorem constructs_of_mem_table {name : String} {kind : ModuleKind}
    {build : Setup → Except StageError Stage} (hmem : (name, kind, build) ∈ table) {setup : Setup}
    {stage : Stage} (h : build setup = .ok stage) : stage.Constructs setup := by
  unfold table at hmem
  simp only [List.mem_cons, Prod.mk.injEq, List.not_mem_nil, or_false] at hmem
  rcases hmem with ⟨-, -, rfl⟩ | ⟨-, -, rfl⟩ | ⟨-, -, rfl⟩ | ⟨-, -, rfl⟩ | ⟨-, -, rfl⟩ |
    ⟨-, -, rfl⟩ | ⟨-, -, rfl⟩ | ⟨-, -, rfl⟩
  all_goals
    obtain ⟨s, hs, rfl⟩ := exists_of_map_ok h
    exact hs

/-- An instance as it is built for its place in a plan. -/
structure Assembled (c : Configuration) (global : Entry) (detectors : DetectorTable)
    (p : PlannedInstance) (seed : UInt64) (i : Instance Stage) : Prop where
  slot : i.slot = p.slot
  built : ∃ kind build, (p.id.name, kind, build) ∈ table ∧
    build (Environment.setupOf c global detectors p seed) = .ok i.module
  serves : Serves (c.detectors.map Entry.name) i.id i.module

namespace Assembled

variable {c : Configuration} {global : Entry} {detectors : DetectorTable} {p : PlannedInstance}
  {seed : UInt64} {i : Instance Stage}

theorem constructs (h : Assembled c global detectors p seed i) :
    i.module.Constructs (Environment.setupOf c global detectors p seed) := by
  obtain ⟨kind, build, hmem, hbuild⟩ := h.built
  exact constructs_of_mem_table hmem hbuild

theorem name_eq (h : Assembled c global detectors p seed i) : i.module.name = p.id.name :=
  h.serves.name_eq.trans (congrArg (fun slot => slot.id.name) h.slot)

theorem id_eq (h : Assembled c global detectors p seed i) : i.id = p.id ∧ i.module.id = p.id := by
  have hid : i.id = p.id := congrArg Slot.id h.slot
  exact ⟨hid, h.serves.id_eq.trans hid⟩

end Assembled

/-- Every planned instance is there, and the seeds are the outputs of the generator in their order. -/
structure Assembly (c : Configuration) (global : Entry) (detectors : DetectorTable)
    (planned : List PlannedInstance) (generator : Generator) (instances : List (Instance Stage)) :
    Prop where
  length : instances.length = planned.length
  assembled : ∀ (k : Nat) (p : PlannedInstance), planned[k]? = some p →
    ∃ i, instances[k]? = some i ∧
      Assembled c global detectors p (generator.key.output (generator.position + k)) i

namespace Assembly

variable {c : Configuration} {global : Entry} {detectors : DetectorTable}
  {planned : List PlannedInstance} {generator : Generator} {instances : List (Instance Stage)}

theorem of_mem (h : Assembly c global detectors planned generator instances) {i : Instance Stage}
    (hi : i ∈ instances) : ∃ k p, planned[k]? = some p ∧ instances[k]? = some i ∧
      Assembled c global detectors p (generator.key.output (generator.position + k)) i := by
  obtain ⟨k, hk, rfl⟩ := List.getElem_of_mem hi
  have hplanned : k < planned.length := h.length ▸ hk
  obtain ⟨i, hget, hassembled⟩ := h.assembled k _ (List.getElem?_eq_getElem hplanned)
  obtain rfl := Option.some.inj ((List.getElem?_eq_getElem hk).symm.trans hget)
  exact ⟨k, _, List.getElem?_eq_getElem hplanned, List.getElem?_eq_getElem hk, hassembled⟩

theorem of_planned (h : Assembly c global detectors planned generator instances)
    {p : PlannedInstance} (hp : p ∈ planned) :
    ∃ seed, ∃ i ∈ instances, Assembled c global detectors p seed i := by
  obtain ⟨k, hk⟩ := List.getElem?_of_mem hp
  obtain ⟨i, hi, hassembled⟩ := h.assembled k p hk
  exact ⟨_, i, List.mem_of_getElem? hi, hassembled⟩

theorem slots (h : Assembly c global detectors planned generator instances) :
    instances.map Instance.slot = planned.map PlannedInstance.slot := by
  apply List.ext_getElem?
  intro k
  rw [List.getElem?_map, List.getElem?_map]
  cases hp : planned[k]? with
  | none =>
    have hlength := List.getElem?_eq_none_iff.mp hp
    rw [List.getElem?_eq_none (h.length ▸ hlength)]
    rfl
  | some p =>
    obtain ⟨i, hi, hassembled⟩ := h.assembled k p hp
    rw [hi]
    exact congrArg some hassembled.slot

theorem serves (h : Assembly c global detectors planned generator instances) :
    ∀ i ∈ instances, Serves (c.detectors.map Entry.name) i.module.id i.module := by
  intro i hi
  obtain ⟨k, p, -, -, hassembled⟩ := h.of_mem hi
  rw [hassembled.serves.id_eq]
  exact hassembled.serves

theorem ids (h : Assembly c global detectors planned generator instances) :
    instances.map (fun i => i.module.id) = planned.map PlannedInstance.id := by
  have hids : instances.map (fun i => i.module.id) = instances.map Instance.id := by
    refine List.map_congr_left fun i hi => ?_
    obtain ⟨k, p, -, -, hassembled⟩ := h.of_mem hi
    exact hassembled.serves.id_eq
  have hslots := congrArg (List.map Slot.id) h.slots
  rw [List.map_map, List.map_map] at hslots
  exact hids.trans hslots

end Assembly

section Construction

variable {σ : Type} [FileStore (StateM σ)] {c : Configuration} {global : Entry}
  {detectors : DetectorTable} {planned : List PlannedInstance} {clock : StateM σ Float}
  {aborted : StateM σ Bool} {generator : Generator} {instances : List (Instance Stage)}

theorem assembly_of_fits
    (hfits : ∀ p ∈ planned, ∀ seed, ∃ registration, Blueprint.Fits c (environment clock).registry
      global ⟨p, registration, Environment.setupOf c global detectors p seed⟩) {world : σ}
    (h : (((abortable clock aborted).construct c global detectors planned generator).run world).1 =
      .ok instances) : Assembly c global detectors planned generator instances := by
  induction planned generalizing generator instances with
  | nil =>
    obtain rfl := Except.ok.inj h
    exact ⟨rfl, by simp⟩
  | cons p rest ih =>
    obtain ⟨registration, hfirst⟩ := hfits p (by simp) generator.next.1
    obtain ⟨build, hbuild, hfactory, hserves⟩ := exists_build hfirst
    simp only at hbuild hfactory hserves
    have hstart : (registration.factory (Environment.setupOf c global detectors p
        generator.next.1)).run world =
        (build (Environment.setupOf c global detectors p generator.next.1), world) := by
      rw [hfactory]
      rfl
    rw [(abortable clock aborted).construct_cons_run c global detectors hfirst.registered,
      hstart] at h
    cases hstage : build (Environment.setupOf c global detectors p generator.next.1) with
    | error cause =>
      rw [hstage] at h
      cases h
    | ok stage =>
      rcases hrest : ((abortable clock aborted).construct c global detectors rest
        generator.next.2).run world with ⟨result, next⟩
      rw [hstage] at h
      simp only [hrest] at h
      cases result with
      | error e => cases h
      | ok made =>
        obtain rfl := Except.ok.inj h
        obtain ⟨hlength, hassembled⟩ :=
          ih (fun q hq => hfits q (by simp [hq])) (congrArg Prod.fst hrest)
        refine ⟨by simp [hlength], fun k q hq => ?_⟩
        cases k with
        | zero =>
          obtain rfl := Option.some.inj hq
          exact ⟨_, rfl, rfl, ⟨_, build, hbuild, hstage⟩, hserves stage hstage⟩
        | succ k =>
          -- The first instance took one output as its seed.
          have hposition : generator.position + (k + 1) = generator.next.2.position + k := by
            change _ = generator.position + 1 + k
            omega
          rw [hposition]
          exact hassembled k q hq

theorem assembly_of_construct {prepared : Environment.Preparation}
    (hprepare : (abortable clock aborted).prepare c = .ok prepared)
    (hplan : c.plan registry = .ok prepared.planned) {world : σ}
    (h : (((abortable clock aborted).construct c prepared.global prepared.detectors
      prepared.planned (Generator.ofSeed prepared.settings.seed)).run world).1 = .ok instances) :
    Assembly c prepared.global prepared.detectors prepared.planned
      (Generator.ofSeed prepared.settings.seed) instances := by
  obtain ⟨-, -, htable⟩ := (abortable clock aborted).reads_of_prepare hprepare
  rw [← plan_environment c clock] at hplan
  exact assembly_of_fits
    (fun p hp seed => Environment.setupOf_fits hplan hp htable prepared.global seed) h

end Construction

end TestBeam.Stage
