import TestBeam.Proofs.Geometry.Placement
import TestBeam.Proofs.Geometry.Rotation
import TestBeam.Proofs.Stage.Publication

/-!
# Detectors and their local fields

Detectors are placed by turns about the global axes, so every placement is a rigid motion. The magnetic field
that a detector sees is the global field in its own frame, and its orientation maps it back.
-/

namespace TestBeam.Stage

variable {α : Type} [CommRing α]

/-! ## Local fields -/

namespace MagneticFieldSource

variable {field value : Vec3 α} {layout : DetectorLayout α}

theorem perDetector_eq_ofPairs (field : Vec3 α) (layout : DetectorLayout α) :
    perDetector field layout = NameMap.ofPairs
      (layout.placements.map fun p => (p.name, p.orientation.applyInverse field)) := by
  unfold perDetector NameMap.ofPairs
  rw [List.foldl_map]

theorem get?_perDetector (hnames : (layout.placements.map Placement.name).Nodup) {p : Placement α}
    (hp : p ∈ layout.placements) :
    (perDetector field layout).get? p.name = some (p.orientation.applyInverse field) := by
  rw [perDetector_eq_ofPairs, NameMap.get?_ofPairs]
  · exact List.mem_map_of_mem hp
  · rwa [List.map_map]

theorem published_init {σ : Type} (s : MagneticFieldSource) {bus : RunBus}
    {layout : DetectorLayout Float} (h : bus.get? .geometry = some layout) (world : σ) :
    ((s.init : Call (StateM σ) Unit).outcome bus world).1.2.get? .magneticField =
      some ⟨s.field, perDetector s.field layout⟩ := by
  rw [outcome_init, h]
  exact Bus.get?_put_self bus _ _

end MagneticFieldSource

/-! ## Placed detectors -/

namespace Placing

theorem orientation_place {detector : Detector} {p : Placement Float} (h : place detector = .ok p) :
    ∃ angles : Vec3 Float, p.orientation = Rotation.ofTurns (angles.map Turn.ofAngle) := by
  unfold place at h
  obtain ⟨position, -, h⟩ := exists_of_bind_ok h
  obtain ⟨angles, -, h⟩ := exists_of_bind_ok h
  obtain rfl := Except.ok.inj h
  exact ⟨angles, rfl⟩

theorem orientation_placeAll {detectors : List Detector} {placements : List (Placement Float)}
    (h : placeAll detectors = .ok placements) :
    ∀ p ∈ placements,
      ∃ angles : Vec3 Float, p.orientation = Rotation.ofTurns (angles.map Turn.ofAngle) := by
  unfold placeAll at h
  rw [mapM_ok_iff] at h
  induction h with
  | nil => simp
  | cons hfirst _ ih =>
    exact List.forall_mem_cons.mpr ⟨orientation_place (mapError_ok_iff.mp hfirst), ih⟩

theorem nodup_placeAll {c : Configuration} {planned : List PlannedInstance} {table : DetectorTable}
    {placements : List (Placement Float)} (hplan : c.plan registry = .ok planned)
    (htable : DetectorTable.ofEntries c.detectors = .ok table)
    (h : placeAll table.detectors = .ok placements) :
    (placements.map Placement.name).Nodup := by
  have hnames := (Configuration.prepared_of_plan hplan).detectors
  rw [names_placeAll h]
  exact (names_ascending_of_table htable hnames).2.nodup_iff.mpr hnames

end Placing

/--
Turns about unit axes and orientations are orthogonal, so placements are rigid motions, and the field that a
detector sees is mapped back to the global one. Placements and published fields of a run are of this form.
-/
theorem placements_are_rigid (α : Type) [CommRing α] :
    (∀ (u : Vec3 α) (turn : Turn α), u.dot u = 1 → turn.IsExact →
      (Rotation.about u turn).IsOrthogonal) ∧
    (Rotation.identity : Rotation α).matrix.IsOrthogonal ∧
    (∀ turns : Vec3 (Turn α), turns.x.IsExact → turns.y.IsExact → turns.z.IsExact →
      (Rotation.ofTurns turns).matrix.IsOrthogonal) ∧
    (∀ r : Rotation α, r.matrix.IsOrthogonal → r.IsRigid) ∧
    (∀ p : Placement α, p.orientation.matrix.IsOrthogonal → p.IsRigid) ∧
    (∀ (field : Vec3 α) (layout : DetectorLayout α),
      (layout.placements.map Placement.name).Nodup →
      ∀ p ∈ layout.placements, p.orientation.matrix.IsOrthogonal →
        ∃ seen, (MagneticFieldSource.perDetector field layout).get? p.name = some seen ∧
          p.orientation.apply seen = field) ∧
    (∀ (c : Configuration) planned table placements, c.plan registry = .ok planned →
      DetectorTable.ofEntries c.detectors = .ok table →
      Placing.placeAll table.detectors = .ok placements →
        (placements.map Placement.name).Nodup ∧ ∀ p ∈ placements,
          ∃ angles : Vec3 Float, p.orientation = Rotation.ofTurns (angles.map Turn.ofAngle)) ∧
    ∀ (σ : Type) (s : MagneticFieldSource) (bus : RunBus) (world : σ) layout,
      bus.get? .geometry = some layout →
        ((s.init : Call (StateM σ) Unit).outcome bus world).1.2.get? .magneticField =
          some ⟨s.field, MagneticFieldSource.perDetector s.field layout⟩ := by
  refine ⟨?_, Mat3.isOrthogonal_identity, ?_, ?_, ?_, ?_, ?_, ?_⟩
  · intro u turn hu hturn
    exact Rotation.isOrthogonal_about hu hturn
  · intro turns hx hy hz
    exact Rotation.isOrthogonal_ofTurns hx hy hz
  · intro r h
    exact Rotation.isRigid_of_isOrthogonal h
  · intro p h
    exact Placement.isRigid_of_isOrthogonal h
  · intro field layout hnames p hp h
    refine ⟨_, MagneticFieldSource.get?_perDetector hnames hp, ?_⟩
    exact (Rotation.isRigid_of_isOrthogonal h).apply_applyInverse field
  · intro c planned table placements hplan htable h
    exact ⟨Placing.nodup_placeAll hplan htable h, Placing.orientation_placeAll h⟩
  · intro σ s bus world layout h
    exact s.published_init h world

theorem placements_are_rigid_tilted :
    let p : Placement ℝ := ⟨"dut", "strip", ⟨0, 0, 10⟩,
      Rotation.ofTurns ⟨.ofHalfAngle 0.3, .ofHalfAngle (-1.1), .ofHalfAngle 2⟩⟩
    (Rotation.about ⟨3 / 5, 0, 4 / 5⟩ (.ofHalfAngle 1)).IsOrthogonal ∧
    p.orientation.matrix.IsOrthogonal ∧ p.orientation.IsRigid ∧ p.IsRigid ∧
    (∃ seen, (MagneticFieldSource.perDetector ⟨0, 3.8, 0⟩ ⟨1, [p]⟩).get? "dut" = some seen ∧
      p.orientation.apply seen = ⟨0, 3.8, 0⟩) ∧
    ∃ table placements, DetectorTable.ofEntries beamline.detectors = .ok table ∧
      Placing.placeAll table.detectors = .ok placements ∧
      (placements.map Placement.name).Nodup ∧
      (((⟨⟨0, 3.8, 0⟩⟩ : MagneticFieldSource).init : Call (StateM Unit) Unit).outcome
        (Bus.empty.put .geometry ⟨1, placements⟩) ()).1.2.get? .magneticField =
          some ⟨⟨0, 3.8, 0⟩, MagneticFieldSource.perDetector ⟨0, 3.8, 0⟩ ⟨1, placements⟩⟩ := by
  obtain ⟨habout, -, hturns, hrotation, hplacement, hfield, hplaced, hpublished⟩ :=
    placements_are_rigid ℝ
  intro p
  have horthogonal : p.orientation.matrix.IsOrthogonal := hturns _ (Turn.isExact_ofHalfAngle _)
    (Turn.isExact_ofHalfAngle _) (Turn.isExact_ofHalfAngle _)
  refine ⟨?_, horthogonal, hrotation _ horthogonal, hplacement _ horthogonal, ?_, ?_⟩
  · exact habout _ _ (by norm_num [Vec3.dot]) (Turn.isExact_ofHalfAngle 1)
  · exact hfield ⟨0, 3.8, 0⟩ ⟨1, [p]⟩ (List.nodup_singleton _) p (List.mem_singleton_self _)
      horthogonal
  · have hplan : beamline.plan registry = .ok beamlinePlan := by decide +kernel
    have hok : ((DetectorTable.ofEntries beamline.detectors).toOption.bind fun table =>
        (Placing.placeAll table.detectors).toOption).isSome := by
      decide +kernel
    cases htable : DetectorTable.ofEntries beamline.detectors with
    | error cause =>
      rw [htable] at hok
      cases hok
    | ok table =>
      cases hplacements : Placing.placeAll table.detectors with
      | error cause =>
        rw [htable, Except.toOption, Option.bind_some, hplacements] at hok
        cases hok
      | ok placements =>
        refine ⟨table, placements, rfl, hplacements,
          (hplaced _ _ _ _ hplan htable hplacements).1, ?_⟩
        exact hpublished Unit _ _ () _ (Bus.get?_put_self _ _ _)

end TestBeam.Stage
