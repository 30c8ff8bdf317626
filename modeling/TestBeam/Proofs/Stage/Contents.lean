import TestBeam.Proofs.NameMap
import TestBeam.Proofs.Stage.Assembly
import TestBeam.Proofs.Stage.Effects

/-!
# What the built-in stages leave on the bus

Once some stages are initialised, the bus holds exactly what each of them published. No stage loses or
changes what another one put there.
-/

namespace TestBeam.Stage

/-! ## Parameters -/

/-- The numbers that a stage records under its own instance. -/
def recorded? : Stage → Option (List (String × Float))
  | .propagation s => some (Propagation.recorded s.settings)
  | .transfer s => some [("max_depth_distance", s.maxDepthDistance)]
  | .digitizer s => some s.recorded
  | _ => none

theorem get?_recordAll (id : ModuleId) (first : String × Float) (rest : List (String × Float))
    (parameters : StageParameters) (name : String) :
    NameMap.get? (recordAll id (first :: rest) parameters) name =
      if name = id.display then
        some ((first :: rest).foldl (fun values p => values.insert p.1 p.2)
          ((NameMap.get? parameters id.display).getD NameMap.empty))
      else NameMap.get? parameters name := by
  have hrecord (parameters : StageParameters) (p : String × Float) (name : String) :
      NameMap.get? (parameters.record id.display p.1 p.2) name =
        if name = id.display then
          some (((NameMap.get? parameters id.display).getD NameMap.empty).insert p.1 p.2)
        else NameMap.get? parameters name :=
    NameMap.get?_insert _ _ _ _
  induction rest generalizing first parameters with
  | nil => exact hrecord parameters first name
  | cons second rest ih =>
    refine (ih second (parameters.record id.display first.1 first.2)).trans ?_
    rw [hrecord, hrecord, if_pos rfl]
    split <;> rfl

def recorders : List String :=
  [Propagation.name, Transfer.name, Digitizer.name]

def Records (id : ModuleId) : Prop :=
  id.name ∈ recorders ∧ id.detector.isSome

theorem head_display_of_mem {id : ModuleId} (h : id.name ∈ recorders) :
    id.display.toList.head? = id.name.toList.head? := by
  have hne : ∀ name ∈ recorders, name.toList ≠ [] := by decide
  obtain ⟨letter, letters, hletters⟩ := List.exists_cons_of_ne_nil (hne id.name h)
  rw [head_display hletters, hletters]
  rfl

theorem Records.display_inj {a b : ModuleId} (ha : Records a) (hb : Records b)
    (h : a.display = b.display) : a = b := by
  -- The first letters tell the modules apart, so no colon needs to be found.
  have hletters : ∀ name ∈ recorders, ∀ other ∈ recorders,
      name.toList.head? = other.toList.head? → name = other := by
    decide
  have hname : a.name = b.name := by
    apply hletters _ ha.1 _ hb.1
    rw [← head_display_of_mem ha.1, ← head_display_of_mem hb.1, h]
  obtain ⟨d, hd⟩ := Option.isSome_iff_exists.mp ha.2
  obtain ⟨d', hd'⟩ := Option.isSome_iff_exists.mp hb.2
  unfold ModuleId.display at h
  simp only [hd, hd', hname, String.append_right_inj] at h
  cases a
  cases b
  simp_all

theorem Serves.records {detectors : List String} {id : ModuleId} {stage : Stage}
    (h : Serves detectors id stage) (hrecorded : stage.recorded?.isSome) : Records id := by
  cases h <;> simp_all [recorded?, Records, recorders]

theorem recorded?_isSome_iff (stage : Stage) :
    stage.recorded?.isSome ↔ stage.name ∈ recorders := by
  have hrecorders : ∀ stage ∈ [Placing.name, MagneticFieldSource.name, ElectricFieldSource.name,
      ParticleSource.name, PlaneHistogram.name], stage ∉ recorders := by
    decide
  cases stage with
  | propagation s | transfer s | digitizer s => simp [recorded?, name, recorders]
  | _ => simpa [recorded?, name] using hrecorders _ (by simp)

theorem nodup_recorded {stage : Stage} {numbers : List (String × Float)}
    (h : stage.recorded? = some numbers) : (numbers.map Prod.fst).Nodup := by
  cases stage with
  | propagation s | transfer s | digitizer s =>
    obtain rfl := Option.some.inj h
    have hkeys : ∀ keys ∈ [["temperature", "charge_per_step", "propagate_holes", "timestep_min",
        "timestep_max"], ["max_depth_distance"],
        ["threshold", "electronics_noise", "qdc_resolution"]], keys.Nodup := by
      decide
    exact hkeys _ (by simp [Propagation.recorded, Digitizer.recorded])
  | _ => cases h

/-! ## Everything that is published -/

/-- What the initialisation of a stage publishes something about. -/
def topic? : Stage → Option Topic
  | .placing _ => some .geometry
  | .magneticField _ => some .magneticField
  | .electricField _ => some .electricFields
  | .propagation _ => some .parameters
  | .transfer _ => some .parameters
  | .digitizer _ => some .parameters
  | .particleSource _ => none
  | .planeHistogram _ => none

/-- The bus holds exactly what these stages publish when they are initialised. -/
structure Contents (detectors : List Detector) (stages : List Stage) (bus : RunBus) : Prop where
  geometry : ∀ layout, bus.get? .geometry = some layout ↔ ∃ s, .placing s ∈ stages ∧
    ∃ placements, Placing.placeAll detectors = .ok placements ∧ layout = ⟨s.margin, placements⟩
  hasGeometry : ∀ s, .placing s ∈ stages → (bus.get? .geometry).isSome
  magneticField : ∀ field, bus.get? .magneticField = some field ↔
    ∃ s, .magneticField s ∈ stages ∧ ∃ layout, bus.get? .geometry = some layout ∧
      field = ⟨s.field, MagneticFieldSource.perDetector s.field layout⟩
  /-- The magnetic field is published behind the layout. -/
  magneticFieldPlaced : ∀ s, .magneticField s ∈ stages → (bus.get? .geometry).isSome
  electricFields : ∀ d field,
    ((bus.get? .electricFields).getD NameMap.empty).get? d = some field ↔
      .electricField ⟨d, field⟩ ∈ stages
  hasElectricFields : (bus.get? .electricFields).isSome ↔ ∃ s, .electricField s ∈ stages
  parameters : ∀ name values,
    NameMap.get? ((bus.get? .parameters).getD NameMap.empty) name = some values ↔
      ∃ stage ∈ stages, ∃ numbers, stage.recorded? = some numbers ∧ stage.id.display = name ∧
        values = NameMap.ofPairs numbers
  hasParameters : (bus.get? .parameters).isSome ↔ ∃ stage ∈ stages, stage.recorded?.isSome
  primaries : bus.get? .primaries = none

namespace Contents

variable {detectors : List Detector} {names : List String} {done stages : List Stage}
  {bus busAfter : RunBus} {stage changed : Stage}

theorem empty (detectors : List Detector) : Contents detectors [] Bus.empty where
  geometry := by simp
  hasGeometry := by simp
  magneticField := by simp
  magneticFieldPlaced := by simp
  electricFields := by simp [NameMap.empty, NameMap.get?]
  hasElectricFields := by simp
  parameters := by simp [NameMap.empty, NameMap.get?]
  hasParameters := by simp
  primaries := by simp

theorem present (h : Contents detectors stages bus) (topic : Topic) :
    (bus.get? topic).isSome ↔ ∃ stage ∈ stages, stage.topic? = some topic := by
  cases topic with
  | geometry =>
    constructor
    · intro hsome
      obtain ⟨layout, hlayout⟩ := Option.isSome_iff_exists.mp hsome
      obtain ⟨s, hs, -⟩ := (h.geometry layout).mp hlayout
      exact ⟨_, hs, rfl⟩
    · rintro ⟨stage, hstage, htopic⟩
      cases stage with
      | placing s => exact h.hasGeometry s hstage
      | _ => cases htopic
  | magneticField =>
    constructor
    · intro hsome
      obtain ⟨field, hfield⟩ := Option.isSome_iff_exists.mp hsome
      obtain ⟨s, hs, -⟩ := (h.magneticField field).mp hfield
      exact ⟨_, hs, rfl⟩
    · rintro ⟨stage, hstage, htopic⟩
      cases stage with
      | magneticField s =>
        obtain ⟨layout, hlayout⟩ := Option.isSome_iff_exists.mp (h.magneticFieldPlaced s hstage)
        exact Option.isSome_iff_exists.mpr
          ⟨_, (h.magneticField _).mpr ⟨s, hstage, layout, hlayout, rfl⟩⟩
      | _ => cases htopic
  | electricFields =>
    rw [h.hasElectricFields]
    constructor
    · rintro ⟨s, hs⟩
      exact ⟨_, hs, rfl⟩
    · rintro ⟨stage, hstage, htopic⟩
      cases stage with
      | electricField s => exact ⟨s, hstage⟩
      | _ => cases htopic
  | parameters =>
    have hrecorded (stage : Stage) :
        stage.recorded?.isSome ↔ stage.topic? = some .parameters := by
      cases stage <;> simp [recorded?, topic?]
    simp [h.hasParameters, hrecorded]
  | primaries =>
    have hnever (stage : Stage) : stage.topic? ≠ some .primaries := by
      cases stage <;> simp [topic?]
    simp [h.primaries, hnever]

theorem keep (h : Contents detectors done bus)
    (hstage : (∀ s, stage ≠ .placing s) ∧ (∀ s, stage ≠ .magneticField s) ∧
      ∀ s, stage ≠ .electricField s)
    (hother : ∀ topic, topic ≠ .parameters → busAfter.get? topic = bus.get? topic)
    (hparameters : ∀ name values,
      NameMap.get? ((busAfter.get? .parameters).getD NameMap.empty) name = some values ↔
        (∃ stage ∈ done, ∃ numbers, stage.recorded? = some numbers ∧ stage.id.display = name ∧
          values = NameMap.ofPairs numbers) ∨
        ∃ numbers, stage.recorded? = some numbers ∧ stage.id.display = name ∧
          values = NameMap.ofPairs numbers)
    (hhas : (busAfter.get? .parameters).isSome ↔
      (∃ stage ∈ done, stage.recorded?.isSome) ∨ stage.recorded?.isSome) :
    Contents detectors (done ++ [stage]) busAfter := by
  obtain ⟨hplacing, hmagnetic, helectric⟩ := hstage
  constructor
  · simpa [hother, (hplacing _).symm] using h.geometry
  · simpa [hother, (hplacing _).symm] using h.hasGeometry
  · simpa [hother, (hmagnetic _).symm] using h.magneticField
  · simpa [hother, (hmagnetic _).symm] using h.magneticFieldPlaced
  · simpa [hother, (helectric _).symm] using h.electricFields
  · simpa [hother, (helectric _).symm] using h.hasElectricFields
  · simpa [or_and_right, exists_or] using hparameters
  · simpa [or_and_right, exists_or] using hhas
  · simpa [hother] using h.primaries

theorem record (h : Contents detectors done bus) (hserves : ∀ s ∈ done, Serves names s.id s)
    (hstage : Serves names stage.id stage) (hnew : stage.id ∉ done.map Stage.id)
    {first : String × Float} {rest : List (String × Float)}
    (hrecorded : stage.recorded? = some (first :: rest))
    (hother : ∀ topic, topic ≠ .parameters → busAfter.get? topic = bus.get? topic)
    (hparameters : busAfter.get? .parameters = some (recordAll stage.id (first :: rest)
      ((bus.get? .parameters).getD NameMap.empty))) :
    Contents detectors (done ++ [stage]) busAfter := by
  have hrecords := hstage.records (by rw [hrecorded]; rfl)
  have hfresh : NameMap.get? ((bus.get? .parameters).getD NameMap.empty) stage.id.display = none := by
    rw [Option.eq_none_iff_forall_ne_some]
    intro values hvalues
    obtain ⟨earlier, hmem, numbers, hnumbers, hdisplay, -⟩ := (h.parameters _ _).mp hvalues
    have hearlier := (hserves earlier hmem).records (by rw [hnumbers]; rfl)
    exact hnew (hearlier.display_inj hrecords hdisplay ▸ List.mem_map_of_mem hmem)
  apply h.keep ?_ hother
  · intro name values
    rw [hparameters, Option.getD_some, get?_recordAll, hfresh, ← h.parameters, hrecorded]
    by_cases hname : name = stage.id.display
    · subst hname
      rw [if_pos rfl, hfresh]
      simp [NameMap.ofPairs, eq_comm]
    · simp [hname, Ne.symm hname]
  · rw [hparameters, hrecorded]
    simp
  · refine ⟨fun s => ?_, fun s => ?_, fun s => ?_⟩ <;> rintro rfl <;> cases hrecorded

theorem placing (h : Contents detectors done bus) {s : Placing}
    (hnew : (Stage.placing s).id ∉ done.map Stage.id) {placements : List (Placement Float)}
    (hplacements : Placing.placeAll detectors = .ok placements) :
    Contents detectors (done ++ [.placing s]) (bus.put .geometry ⟨s.margin, placements⟩) := by
  have hfirst (t : Placing) : Stage.placing t ∉ done :=
    fun hmem => hnew (List.mem_map.mpr ⟨_, hmem, rfl⟩)
  have hnone : bus.get? .geometry = none := by
    rw [Option.eq_none_iff_forall_ne_some]
    intro layout hlayout
    obtain ⟨t, ht, -⟩ := (h.geometry layout).mp hlayout
    exact hfirst t ht
  have hmagnetic (t : MagneticFieldSource) : Stage.magneticField t ∉ done := by
    intro hmem
    have hplaced := h.magneticFieldPlaced t hmem
    simp [hnone] at hplaced
  have hother {topic : Topic} (htopic : topic ≠ .geometry) :
      (bus.put .geometry ⟨s.margin, placements⟩).get? topic = bus.get? topic :=
    Bus.get?_put_of_ne bus _ htopic
  constructor
  · intro layout
    rw [Bus.get?_put_self]
    simp [hfirst, hplacements, eq_comm]
  · rw [Bus.get?_put_self]
    simp
  · intro field
    rw [hother (by decide), h.magneticField]
    simp [hmagnetic]
  · simp [hmagnetic]
  · rw [hother (by decide)]
    simpa using h.electricFields
  · rw [hother (by decide)]
    simpa using h.hasElectricFields
  · rw [hother (by decide)]
    simpa [or_and_right, exists_or, recorded?] using h.parameters
  · rw [hother (by decide)]
    simpa [or_and_right, exists_or, recorded?] using h.hasParameters
  · rw [hother (by decide)]
    exact h.primaries

theorem magnetic (h : Contents detectors done bus) {s : MagneticFieldSource}
    (hnew : (Stage.magneticField s).id ∉ done.map Stage.id) {layout : DetectorLayout Float}
    (hlayout : bus.get? .geometry = some layout) :
    Contents detectors (done ++ [.magneticField s])
      (bus.put .magneticField ⟨s.field, MagneticFieldSource.perDetector s.field layout⟩) := by
  have hfirst (t : MagneticFieldSource) : Stage.magneticField t ∉ done :=
    fun hmem => hnew (List.mem_map.mpr ⟨_, hmem, rfl⟩)
  have hother {topic : Topic} (htopic : topic ≠ .magneticField) :
      (bus.put .magneticField
        ⟨s.field, MagneticFieldSource.perDetector s.field layout⟩).get? topic = bus.get? topic :=
    Bus.get?_put_of_ne bus _ htopic
  constructor
  · rw [hother (by decide)]
    simpa using h.geometry
  · rw [hother (by decide)]
    simpa using h.hasGeometry
  · intro field
    rw [Bus.get?_put_self, hother (by decide), hlayout]
    simp [hfirst, eq_comm]
  · rw [hother (by decide), hlayout]
    simp
  · rw [hother (by decide)]
    simpa using h.electricFields
  · rw [hother (by decide)]
    simpa using h.hasElectricFields
  · rw [hother (by decide)]
    simpa [or_and_right, exists_or, recorded?] using h.parameters
  · rw [hother (by decide)]
    simpa [or_and_right, exists_or, recorded?] using h.hasParameters
  · rw [hother (by decide)]
    exact h.primaries

theorem electric (h : Contents detectors done bus) {s : ElectricFieldSource}
    (hnew : (Stage.electricField s).id ∉ done.map Stage.id) :
    Contents detectors (done ++ [.electricField s]) (bus.put .electricFields
      (((bus.get? .electricFields).getD NameMap.empty).insert s.detector s.field)) := by
  have hfirst (field : ElectricField) : Stage.electricField ⟨s.detector, field⟩ ∉ done :=
    fun hmem => hnew (List.mem_map.mpr ⟨_, hmem, rfl⟩)
  have hother {topic : Topic} (htopic : topic ≠ .electricFields) :
      (bus.put .electricFields (((bus.get? .electricFields).getD NameMap.empty).insert s.detector
        s.field)).get? topic = bus.get? topic :=
    Bus.get?_put_of_ne bus _ htopic
  constructor
  · rw [hother (by decide)]
    simpa using h.geometry
  · rw [hother (by decide)]
    simpa using h.hasGeometry
  · rw [hother (by decide), hother (by decide)]
    simpa using h.magneticField
  · rw [hother (by decide)]
    simpa using h.magneticFieldPlaced
  · intro d field
    rw [Bus.get?_put_self, Option.getD_some, NameMap.get?_insert, List.mem_append,
      List.mem_singleton, ← h.electricFields]
    obtain ⟨detector, own⟩ := s
    by_cases hd : d = detector
    · subst hd
      rw [if_pos rfl, h.electricFields]
      simp [hfirst, eq_comm]
    · simp [hd]
  · rw [Bus.get?_put_self]
    simp
  · rw [hother (by decide)]
    simpa [or_and_right, exists_or, recorded?] using h.parameters
  · rw [hother (by decide)]
    simpa [or_and_right, exists_or, recorded?] using h.hasParameters
  · rw [hother (by decide)]
    exact h.primaries

theorem init (h : Contents detectors done bus)
    (heffect : InitEffect detectors bus stage changed busAfter)
    (hserves : ∀ s ∈ done, Serves names s.id s) (hstage : Serves names stage.id stage)
    (hnew : stage.id ∉ done.map Stage.id) :
    Contents detectors (done ++ [stage]) busAfter := by
  have hnothing (hrecorded : stage.recorded? = none)
      (hstage : (∀ s, stage ≠ .placing s) ∧ (∀ s, stage ≠ .magneticField s) ∧
        ∀ s, stage ≠ .electricField s) :
      Contents detectors (done ++ [stage]) bus := by
    apply h.keep hstage fun _ _ => rfl
    · intro name values
      rw [h.parameters, hrecorded]
      simp
    · rw [h.hasParameters, hrecorded]
      simp
  cases heffect with
  | placing s hplacements => exact h.placing hnew hplacements
  | magneticField s hlayout => exact h.magnetic hnew hlayout
  | electricField s => exact h.electric hnew
  | particleSource s => exact hnothing rfl (by simp)
  | propagation s =>
    exact h.record hserves hstage hnew rfl
      (fun topic htopic => Bus.get?_put_of_ne bus _ htopic) (Bus.get?_put_self bus _ _)
  | transfer s =>
    refine h.record hserves hstage hnew rfl (fun topic htopic => ?_) (Bus.get?_put_self _ _ _)
    rw [Bus.get?_put_of_ne _ _ htopic, Bus.get?_put_of_ne _ _ htopic]
  | digitizer s =>
    exact h.record hserves hstage hnew rfl
      (fun topic htopic => Bus.get?_put_of_ne bus _ htopic) (Bus.get?_put_self bus _ _)
  | planeHistogram s hlayout hplacement => exact hnothing rfl (by simp)

end Contents

end TestBeam.Stage
