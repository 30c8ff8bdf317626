import TestBeam.Proofs.Executor.Ordered
import TestBeam.Proofs.Stage.Instances

/-!
# Initialisation of the built-in stages

Most stages need something on the bus when they are initialised that another one puts there. What is on the
bus tells exactly which of them had their turn.
-/

namespace TestBeam

/-! ## Placing detectors -/

/-- A setting that is there can be read as three values with units of some dimension. -/
def Entry.ReadsVector (entry : Entry) (key : String) (dimension : Dimension) : Prop :=
  ∀ value, entry.get? key = some value → ∃ v, Quantity.readVector value.display dimension = .ok v

/-- What a detector says about where it stands has a meaning. -/
structure Entry.Placeable (entry : Entry) : Prop where
  position : entry.ReadsVector "position" .length
  orientation : entry.ReadsVector "orientation" .angle

structure Configuration.CanPlace (c : Configuration) : Prop where
  nonempty : c.detectors ≠ []
  placeable : ∀ entry ∈ c.detectors, entry.Placeable

theorem Entry.placeable_iff (entry : Entry) :
    entry.Placeable ↔
      entry.ReadsVector "position" .length ∧ entry.ReadsVector "orientation" .angle :=
  ⟨fun h => ⟨h.position, h.orientation⟩, fun h => ⟨h.1, h.2⟩⟩

theorem Entry.vectorOr_ok_iff (entry : Entry) (key : String) {dimension : Dimension}
    {default : String} (hdefault : ∃ v, Quantity.readVector default dimension = .ok v) :
    (∃ v, entry.vectorOr key dimension default = .ok v) ↔ entry.ReadsVector key dimension := by
  have hunits (value : Setting) (result : Except UnitError (Vec3 Float)) :
      (∃ v, entry.withUnits key value result = .ok v) ↔ ∃ v, result = .ok v := by
    cases result <;> simp [withUnits]
  unfold vectorOr vector ReadsVector has require
  cases hget : entry.get? key with
  | none => simpa [hunits] using hdefault
  | some value => simp [hunits, bind, Except.bind]

namespace Stage

namespace Placing

theorem readVector_default {dimension : Dimension} (h : dimension ∈ [.length, .angle]) :
    ∃ v, Quantity.readVector "0 0 0" dimension = .ok v := by
  have hread : ∀ d ∈ [Dimension.length, .angle], (Quantity.readVector "0 0 0" d).isOk := by
    decide +kernel
  have hdimension := hread dimension h
  cases hresult : Quantity.readVector "0 0 0" dimension with
  | error cause => simp [hresult, Except.isOk, Except.toBool] at hdimension
  | ok v => exact ⟨v, rfl⟩

theorem place_ok_iff (detector : Detector) :
    (∃ p, place detector = .ok p) ↔ detector.entry.Placeable := by
  rw [Entry.placeable_iff, ← Entry.vectorOr_ok_iff _ _ (readVector_default (by simp)),
    ← Entry.vectorOr_ok_iff _ _ (readVector_default (by simp))]
  exact exists_both_ok_iff _

theorem name_place {detector : Detector} {placement : Placement Float}
    (h : place detector = .ok placement) : placement.name = detector.name := by
  unfold place at h
  obtain ⟨position, -, h⟩ := exists_of_bind_ok h
  obtain ⟨angles, -, h⟩ := exists_of_bind_ok h
  exact Except.ok.inj h ▸ rfl

theorem placeAll_ok_iff {c : Configuration} {table : DetectorTable}
    (htable : DetectorTable.ofEntries c.detectors = .ok table) :
    (∃ placements, placeAll table.detectors = .ok placements) ↔
      ∀ entry ∈ c.detectors, entry.Placeable := by
  obtain ⟨hperm, -⟩ := DetectorTable.entries_perm htable
  unfold placeAll
  rw [exists_mapM_ok_iff]
  simp only [mapError_ok_iff, place_ok_iff, ← hperm.mem_iff, List.forall_mem_map]

theorem names_placeAll {detectors : List Detector} {placements : List (Placement Float)}
    (h : placeAll detectors = .ok placements) :
    placements.map Placement.name = detectors.map Detector.name := by
  unfold placeAll at h
  rw [mapM_ok_iff] at h
  induction h with
  | nil => rfl
  | cons hfirst _ ih => rw [List.map_cons, List.map_cons, ih, name_place (mapError_ok_iff.mp hfirst)]

end Placing

/-! ## Parameters -/

theorem contains_record (parameters : StageParameters) (instanceName key : String) (value : Float)
    (name : String) :
    NameMap.contains (parameters.record instanceName key value) name ↔
      name = instanceName ∨ NameMap.contains parameters name := by
  unfold StageParameters.record NameMap.contains
  rw [NameMap.get?_insert]
  split
  case isTrue hname => simp [hname]
  case isFalse hname => simp [hname]

theorem contains_recordAll (id : ModuleId) (first : String × Float) (rest : List (String × Float))
    (parameters : StageParameters) (name : String) :
    NameMap.contains (recordAll id (first :: rest) parameters) name ↔
      name = id.display ∨ NameMap.contains parameters name := by
  induction rest generalizing first parameters with
  | nil => exact contains_record parameters id.display first.1 first.2 name
  | cons second rest ih =>
    refine (ih second (parameters.record id.display first.1 first.2)).trans ?_
    rw [contains_record]
    tauto

theorem display_chargeSource_inj {d detector : String} :
    (Transfer.chargeSource d).display = (Transfer.chargeSource detector).display ↔ d = detector := by
  unfold Transfer.chargeSource ModuleId.display
  simp only [String.append_right_inj]

theorem head_display {letter : Char} {letters : List Char} {id : ModuleId}
    (hname : id.name.toList = letter :: letters) : id.display.toList.head? = some letter := by
  unfold ModuleId.display
  cases id.detector <;> simp [hname]

theorem display_chargeSource_ne {id : ModuleId} (hid : id.name ∈ [Transfer.name, Digitizer.name])
    (d : String) : (Transfer.chargeSource d).display ≠ id.display := by
  -- The first letters of the three modules differ.
  intro h
  have hsource : (Transfer.chargeSource d).display.toList.head? = some 'G' :=
    head_display (show Propagation.name.toList = 'G' :: "enericPropagation".toList by decide)
  rw [h] at hsource
  simp only [List.mem_cons, List.not_mem_nil, or_false] at hid
  rcases hid with hname | hname
  · have hletters : id.name.toList = 'S' :: "impleTransfer".toList := by
      rw [hname]
      decide
    rw [head_display hletters] at hsource
    cases hsource
  · have hletters : id.name.toList = 'D' :: "efaultDigitizer".toList := by
      rw [hname]
      decide
    rw [head_display hletters] at hsource
    cases hsource

/-! ## What is on the bus -/

/-- What is on the bus tells which instances were initialised. -/
structure Published (detectors : List String) (done : List ModuleId) (bus : RunBus) : Prop where
  geometry : (bus.get? .geometry).isSome ↔ ⟨Placing.name, none⟩ ∈ done
  placed : ∀ layout, bus.get? .geometry = some layout → ∀ d ∈ detectors, (layout.get? d).isSome
  electricFields : ∀ d, ((bus.get? .electricFields).getD NameMap.empty).contains d ↔
    ⟨ElectricFieldSource.name, some d⟩ ∈ done
  parameters : ∀ d, NameMap.contains ((bus.get? .parameters).getD NameMap.empty)
    (Transfer.chargeSource d).display ↔ Transfer.chargeSource d ∈ done
  primaries : bus.get? .primaries = none

namespace Published

variable {detectors : List String} {done : List ModuleId} {bus busAfter : RunBus}

theorem empty (detectors : List String) : Published detectors [] Bus.empty where
  geometry := by simp
  placed := by simp
  electricFields := by simp [NameMap.contains, NameMap.empty, NameMap.get?]
  parameters := by simp [NameMap.contains, NameMap.empty, NameMap.get?]
  primaries := by simp

theorem keep (h : Published detectors done bus) {name : String}
    (hname : name ∉ [Placing.name, ElectricFieldSource.name, Propagation.name])
    (detector : Option String)
    (hgeometry : busAfter.get? .geometry = bus.get? .geometry)
    (helectricFields : busAfter.get? .electricFields = bus.get? .electricFields)
    (hprimaries : busAfter.get? .primaries = bus.get? .primaries)
    (hparameters : ∀ d, NameMap.contains ((busAfter.get? .parameters).getD NameMap.empty)
      (Transfer.chargeSource d).display ↔
        NameMap.contains ((bus.get? .parameters).getD NameMap.empty)
          (Transfer.chargeSource d).display) :
    Published detectors (done ++ [⟨name, detector⟩]) busAfter := by
  simp only [List.mem_cons, List.not_mem_nil, or_false, not_or] at hname
  have hother {other : String} (hne : ¬name = other) (d : Option String) :
      (⟨other, d⟩ : ModuleId) ∈ done ++ [⟨name, detector⟩] ↔ ⟨other, d⟩ ∈ done := by
    simp [Ne.symm hne]
  constructor
  · rw [hgeometry, h.geometry, hother hname.1]
  · rw [hgeometry]
    exact h.placed
  · intro d
    rw [helectricFields, h.electricFields, hother hname.2.1]
  · intro d
    rw [hparameters, h.parameters, Transfer.chargeSource, hother hname.2.2]
  · rw [hprimaries, h.primaries]

end Published

/-! ## What each stage does -/

section Outcomes

variable {σ : Type} (bus : RunBus) (world : σ)

theorem Placing.outcome_init (s : Placing) (context : Context) :
    (s.init context : Call (StateM σ) Unit).outcome bus world =
      if context.detectors.detectors = [] then ((.error .noDetectors, bus), world)
      else match placeAll context.detectors.detectors with
        | .error cause => ((.error cause, bus), world)
        | .ok placements => ((.ok (), bus.put .geometry ⟨s.margin, placements⟩), world) := by
  unfold init
  rw [Call.outcome_ensure_bind]
  cases context.detectors.detectors with
  | nil => rfl
  | cons d detectors =>
    simp only [List.isEmpty_cons, Bool.not_false, if_true, reduceCtorEq, if_false]
    rw [Call.outcome_bind]
    cases placeAll (d :: detectors) <;> rfl

theorem MagneticFieldSource.outcome_init (s : MagneticFieldSource) :
    (s.init : Call (StateM σ) Unit).outcome bus world =
      match bus.get? .geometry with
      | none => ((.error .magneticFieldBeforeGeometry, bus), world)
      | some layout =>
        ((.ok (), bus.put .magneticField ⟨s.field, perDetector s.field layout⟩), world) := by
  unfold init
  rw [Call.outcome_get?_bind]
  cases bus.get? .geometry <;> rfl

theorem ElectricFieldSource.outcome_init (s : ElectricFieldSource) :
    (s.init : Call (StateM σ) Unit).outcome bus world =
      if ((bus.get? .geometry).bind fun layout => layout.get? s.detector).isSome then
        ((.ok (), bus.put .electricFields
          (((bus.get? .electricFields).getD NameMap.empty).insert s.detector s.field)), world)
      else ((.error (.electricFieldBeforePlacement s.detector), bus), world) := by
  unfold init
  rw [Call.outcome_get?_bind, Call.outcome_ensure_bind, Call.outcome_get?_bind]
  rfl

theorem ParticleSource.outcome_init :
    (init : Call (StateM σ) Unit).outcome bus world =
      if (bus.get? .geometry).isSome then ((.ok (), bus), world)
      else ((.error .depositionBeforeGeometry, bus), world) := by
  unfold init
  rw [Call.outcome_get?_bind]
  cases bus.get? .geometry <;> rfl

theorem Propagation.outcome_init (s : Propagation) :
    (s.init : Call (StateM σ) Unit).outcome bus world =
      if ((bus.get? .electricFields).getD NameMap.empty).contains s.detector then
        ((.ok (), bus.put .parameters (recordAll s.id (recorded s.settings)
          ((bus.get? .parameters).getD NameMap.empty))), world)
      else ((.error (.noElectricField s.detector), bus), world) := by
  unfold init
  rw [Call.outcome_get?_bind, Call.outcome_ensure_bind]
  rfl

theorem Transfer.outcome_init (s : Transfer) :
    (s.init : Call (StateM σ) Unit).outcome bus world =
      let parameters := (bus.get? .parameters).getD NameMap.empty
      if NameMap.contains parameters (chargeSource s.detector).display then
        ((.ok (), (bus.put .parameters parameters).put .parameters
          (recordAll s.id [("max_depth_distance", s.maxDepthDistance)] parameters)), world)
      else ((.error (.noPropagatedCharges s.detector), bus.put .parameters parameters), world) := by
  unfold init
  rw [Call.outcome_bind]
  change ((Call.put .parameters _ >>= _ : Call (StateM σ) Unit)).outcome bus world = _
  rw [Call.outcome_put_bind, Call.outcome_ensure_bind]
  rfl

theorem Digitizer.outcome_init (s : Digitizer) :
    (s.init : Call (StateM σ) Unit).outcome bus world =
      ((.ok (), bus.put .parameters (recordAll s.id s.recorded
        ((bus.get? .parameters).getD NameMap.empty))), world) :=
  rfl

theorem PlaneHistogram.outcome_init (s : PlaneHistogram) :
    (s.init : Call (StateM σ) PlaneHistogram).outcome bus world =
      match (bus.get? .geometry).bind fun layout => layout.get? s.detector with
      | none => ((.error (.notPlaced s.detector), bus), world)
      | some placement => ((.ok { s with placement := some placement }, bus), world) := by
  unfold init
  rw [Call.outcome_get?_bind]
  cases (bus.get? .geometry).bind fun layout => layout.get? s.detector <;> rfl

end Outcomes

/-! ## What each stage depends on -/

section Hinges

variable {σ : Type} {c : Configuration} {context : Context} {detectors : List String}
  {done : List ModuleId} {bus : RunBus}

theorem Published.placed_iff (h : Published detectors done bus) {d : String} (hd : d ∈ detectors) :
    ((bus.get? .geometry).bind fun layout => layout.get? d).isSome ↔
      ⟨Placing.name, none⟩ ∈ done := by
  rw [← h.geometry]
  cases hgeometry : bus.get? .geometry with
  | none => simp
  | some layout => simp [h.placed layout hgeometry d hd]

theorem Placing.layout_get? {table : DetectorTable}
    (htable : DetectorTable.ofEntries c.detectors = .ok table) {placements : List (Placement Float)}
    (hplacements : placeAll table.detectors = .ok placements) (margin : Float) {d : String}
    (hd : d ∈ c.detectors.map Entry.name) :
    ((⟨margin, placements⟩ : DetectorLayout Float).get? d).isSome := by
  obtain ⟨entry, hentry, rfl⟩ := List.mem_map.mp hd
  obtain ⟨detector, hget, hname, -⟩ := DetectorTable.get?_of_mem htable hentry
  have hmem : entry.name ∈ placements.map Placement.name := by
    rw [names_placeAll hplacements, ← hname]
    exact List.mem_map_of_mem (List.mem_of_find?_eq_some hget)
  obtain ⟨p, hp, hsame⟩ := List.mem_map.mp hmem
  unfold DetectorLayout.get?
  rw [List.find?_isSome]
  exact ⟨p, hp, by simp [hsame]⟩

variable (h : Published detectors done bus) (world : σ)

include h

theorem Placing.init_hinges (htable : DetectorTable.ofEntries c.detectors = .ok context.detectors)
    (hdetectors : detectors = c.detectors.map Entry.name) (s : Placing) :
    (s.init context : Call (StateM σ) Unit).HingesOn bus world c.CanPlace
      fun _ bus => Published detectors (done ++ [⟨Placing.name, none⟩]) bus := by
  have hplace := placeAll_ok_iff htable
  have hempty : context.detectors.detectors = [] ↔ c.detectors = [] := by
    rw [← List.length_eq_zero_iff, ← List.length_eq_zero_iff,
      ← (DetectorTable.entries_perm htable).1.length_eq, List.length_map]
  constructor
  · intro hready
    obtain ⟨placements, hplacements⟩ := hplace.mpr hready.placeable
    refine ⟨(), bus.put .geometry ⟨s.margin, placements⟩, ?_, ?_⟩
    · rw [outcome_init, if_neg (mt hempty.mp hready.nonempty), hplacements]
    · constructor
      · simp
      · rintro layout hlayout d hd
        rw [Bus.get?_put_self] at hlayout
        obtain rfl := Option.some.inj hlayout
        exact layout_get? htable hplacements s.margin (hdetectors ▸ hd)
      · intro d
        rw [Bus.get?_put_of_ne bus _ (by decide), h.electricFields]
        simp
      · intro d
        rw [Bus.get?_put_of_ne bus _ (by decide), h.parameters]
        simp [Transfer.chargeSource]
      · rw [Bus.get?_put_of_ne bus _ (by decide), h.primaries]
  · intro hready
    rw [outcome_init]
    by_cases hnone : context.detectors.detectors = []
    · rw [if_pos hnone]
      exact ⟨_, _, rfl⟩
    · rw [if_neg hnone]
      cases hplacements : placeAll context.detectors.detectors with
      | error cause => exact ⟨cause, bus, rfl⟩
      | ok placements =>
        exact absurd ⟨mt hempty.mpr hnone, hplace.mp ⟨placements, hplacements⟩⟩ hready

theorem MagneticFieldSource.init_hinges (s : MagneticFieldSource) :
    (s.init : Call (StateM σ) Unit).HingesOn bus world (⟨Placing.name, none⟩ ∈ done)
      fun _ bus => Published detectors (done ++ [⟨MagneticFieldSource.name, none⟩]) bus := by
  rw [← h.geometry]
  constructor
  · intro hready
    obtain ⟨layout, hlayout⟩ := Option.isSome_iff_exists.mp hready
    refine ⟨(), _, by rw [outcome_init, hlayout], ?_⟩
    apply h.keep (by decide) <;> simp [Bus.get?_put_of_ne]
  · intro hready
    rw [Option.not_isSome_iff_eq_none] at hready
    exact ⟨.magneticFieldBeforeGeometry, bus, by rw [outcome_init, hready]⟩

theorem ElectricFieldSource.init_hinges (s : ElectricFieldSource) (hdetector : s.detector ∈ detectors) :
    (s.init : Call (StateM σ) Unit).HingesOn bus world (⟨Placing.name, none⟩ ∈ done)
      fun _ bus => Published detectors (done ++ [⟨ElectricFieldSource.name, some s.detector⟩]) bus := by
  rw [← h.placed_iff hdetector]
  constructor
  · intro hready
    refine ⟨(), _, by rw [outcome_init, if_pos hready], ?_⟩
    constructor
    · rw [Bus.get?_put_of_ne bus _ (by decide), h.geometry]
      simp
    · rw [Bus.get?_put_of_ne bus _ (by decide)]
      exact h.placed
    · intro d
      rw [Bus.get?_put_self, Option.getD_some, NameMap.contains, NameMap.get?_insert,
        List.mem_append, ← h.electricFields, NameMap.contains]
      by_cases hd : d = s.detector <;> simp [hd]
    · intro d
      rw [Bus.get?_put_of_ne bus _ (by decide), h.parameters]
      simp [Transfer.chargeSource, Propagation.name, name]
    · rw [Bus.get?_put_of_ne bus _ (by decide), h.primaries]
  · intro hready
    exact ⟨_, _, by rw [outcome_init, if_neg hready]⟩

theorem ParticleSource.init_hinges :
    (init : Call (StateM σ) Unit).HingesOn bus world (⟨Placing.name, none⟩ ∈ done)
      fun _ bus => Published detectors (done ++ [⟨ParticleSource.name, none⟩]) bus := by
  rw [← h.geometry]
  constructor
  · intro hready
    refine ⟨(), bus, by rw [outcome_init, if_pos hready], ?_⟩
    apply h.keep (by decide) <;> simp
  · intro hready
    exact ⟨_, _, by rw [outcome_init, if_neg hready]⟩

theorem Propagation.init_hinges (s : Propagation) (hid : s.id = ⟨name, some s.detector⟩) :
    (s.init : Call (StateM σ) Unit).HingesOn bus world
      (⟨ElectricFieldSource.name, some s.detector⟩ ∈ done)
      fun _ bus => Published detectors (done ++ [⟨name, some s.detector⟩]) bus := by
  rw [← h.electricFields]
  constructor
  · intro hready
    refine ⟨(), _, by rw [outcome_init, if_pos hready], ?_⟩
    constructor
    · rw [Bus.get?_put_of_ne bus _ (by decide), h.geometry]
      simp
    · rw [Bus.get?_put_of_ne bus _ (by decide)]
      exact h.placed
    · intro d
      rw [Bus.get?_put_of_ne bus _ (by decide), h.electricFields]
      simp [ElectricFieldSource.name, name]
    · intro d
      rw [Bus.get?_put_self, Option.getD_some]
      refine (contains_recordAll s.id _ _ _ _).trans ?_
      have hsource : s.id = Transfer.chargeSource s.detector := hid
      rw [h.parameters, hsource, display_chargeSource_inj]
      simp [Transfer.chargeSource, or_comm]
    · rw [Bus.get?_put_of_ne bus _ (by decide), h.primaries]
  · intro hready
    exact ⟨_, _, by rw [outcome_init, if_neg hready]⟩

theorem Transfer.init_hinges (s : Transfer) (hid : s.id = ⟨name, some s.detector⟩) :
    (s.init : Call (StateM σ) Unit).HingesOn bus world (chargeSource s.detector ∈ done)
      fun _ bus => Published detectors (done ++ [⟨name, some s.detector⟩]) bus := by
  rw [← h.parameters]
  constructor
  · intro hready
    refine ⟨(), _, by rw [outcome_init]; exact if_pos hready, ?_⟩
    apply h.keep (by decide)
    case hparameters =>
      intro d
      rw [Bus.get?_put_self, Option.getD_some, contains_recordAll, hid]
      simp [display_chargeSource_ne]
    all_goals simp [Bus.get?_put_of_ne]
  · intro hready
    exact ⟨_, _, by rw [outcome_init]; exact if_neg hready⟩

theorem Digitizer.init_hinges (s : Digitizer) {detector : String}
    (hid : s.id = ⟨name, some detector⟩) :
    (s.init : Call (StateM σ) Unit).HingesOn bus world True
      fun _ bus => Published detectors (done ++ [⟨name, some detector⟩]) bus := by
  refine ⟨fun _ => ⟨(), _, outcome_init bus world s, ?_⟩, fun h => absurd trivial h⟩
  apply h.keep (by decide)
  case hparameters =>
    intro d
    rw [Bus.get?_put_self, Option.getD_some]
    refine (contains_recordAll s.id _ _ _ _).trans ?_
    rw [hid]
    simp [display_chargeSource_ne]
  all_goals simp [Bus.get?_put_of_ne]

theorem PlaneHistogram.init_hinges (s : PlaneHistogram) (hdetector : s.detector ∈ detectors) :
    (s.init : Call (StateM σ) PlaneHistogram).HingesOn bus world (⟨Placing.name, none⟩ ∈ done)
      fun changed bus => changed.detector = s.detector ∧ changed.placement.isSome ∧
        Published detectors (done ++ [⟨name, some s.detector⟩]) bus := by
  rw [← h.placed_iff hdetector]
  constructor
  · intro hready
    obtain ⟨placement, hplacement⟩ := Option.isSome_iff_exists.mp hready
    refine ⟨{ s with placement := some placement }, bus, by rw [outcome_init, hplacement], rfl, rfl, ?_⟩
    apply h.keep (by decide) <;> simp
  · intro hready
    rw [Option.not_isSome_iff_eq_none] at hready
    exact ⟨_, _, by rw [outcome_init, hready]⟩

end Hinges

end Stage

end TestBeam
