import TestBeam.Proofs.Decimal.Signs
import TestBeam.Proofs.Geometry.Crossing
import TestBeam.Proofs.Geometry.Rotation
import TestBeam.Proofs.Histogram.Cells
import TestBeam.Proofs.Stage.Effects

/-!
# Crossings that are counted

A histogram counts the points where the lines of the particles meet the plane of its detector. A line meets
the plane also before the start of its particle, and such a point is counted like any other.
-/

namespace TestBeam.Stage.PlaneHistogram

/-! ## Counted points -/

/-- The points of the plane that a step counts, in the frame of the detector. -/
def points (placement : Placement Float) (vertices : List PrimaryVertex) : List (Float × Float) :=
  vertices.filterMap fun vertex =>
    (placement.crossing? parallelThreshold vertex.position vertex.direction).map fun hit =>
      (hit.x, hit.y)

theorem countAll_eq_fillAll (placement : Placement Float) (h : Histogram)
    (vertices : List PrimaryVertex) :
    countAll placement h vertices = h.fillAll (points placement vertices) := by
  unfold countAll Histogram.fillAll points
  rw [List.foldl_filterMap]
  congr 1
  funext h vertex
  unfold countVertex
  cases placement.crossing? parallelThreshold vertex.position vertex.direction <;> rfl

theorem countVertex_eq (placement : Placement Float) (h : Histogram) (vertex : PrimaryVertex) :
    countVertex placement h vertex =
      if isParallel placement vertex then h
      else
        let hit := placement.crossingPoint vertex.position vertex.direction
        h.fill hit.x hit.y := by
  unfold countVertex isParallel
  rw [Placement.crossing?_eq]
  by_cases hparallel :
      Scalar.absolute (placement.orientation.applyInverse vertex.direction).z < parallelThreshold
  · simp only [hparallel, if_true, decide_true]
  · simp only [hparallel, if_false, decide_false, Bool.false_eq_true]

/-! ## Counted particles -/

theorem isParallel_of_zero {placement : Placement Float} {vertex : PrimaryVertex}
    {sign : Float.Model.UnpackedFloat.Sign}
    (h : (placement.orientation.applyInverse vertex.direction).z.toModel.unpack = .zero sign) :
    isParallel placement vertex = true := by
  -- Neither zero is below zero, so its absolute value is the same zero.
  have hthreshold : 0 < parallelThreshold := by decide +kernel
  have hnonneg : ¬(placement.orientation.applyInverse vertex.direction).z < 0 := by
    rw [Decimal.lt_zero_iff, h]
    simp [Decimal.side?]
  unfold isParallel Scalar.absolute
  rw [if_neg hnonneg, decide_eq_true_eq]
  exact Decimal.lt_of_zero h hthreshold

theorem fliesAway_of_crossingTime_neg {placement : Placement Float} {vertex : PrimaryVertex}
    (hparallel : isParallel placement vertex = false)
    (h : placement.crossingTime vertex.position vertex.direction < 0) :
    placement.FliesAway vertex.position vertex.direction := by
  -- Rounding does not turn the time of a crossing around.
  refine Decimal.same_side_of_neg_div h fun sign hzero => ?_
  rw [isParallel_of_zero hzero] at hparallel
  cases hparallel

/-! ## Crossings of a step -/

/--
What a step counts are crossings. Read over an ordered field, a crossing lies in the plane of the detector and
is the only such point on the line of the particle. It stays the same for a multiple of the direction.
-/
theorem counted_points_are_crossings (α : Type) [Field α] [LinearOrder α] [IsStrictOrderedRing α] :
    (∀ (p : Placement α) (threshold : α) (position direction : Vec3 α),
      p.orientation.matrix.IsOrthogonal → 0 < threshold →
      threshold ≤ |(p.orientation.applyInverse direction).z| →
        ∃ hit, p.crossing? threshold position direction = some hit ∧
          p.Meets position direction hit ∧
          ∀ k, k ≠ 0 → threshold ≤ |(p.orientation.applyInverse (direction.scale k)).z| →
            p.crossing? threshold position (direction.scale k) = some hit) ∧
    ∀ (σ : Type) (s : PlaneHistogram) (context : Context) (bus : RunBus) (world : σ)
      placement primaries, s.placement = some placement → context.event = some primaries.event →
      bus.get? .primaries = some primaries →
        (s.step context : Call (StateM σ) PlaneHistogram).outcome bus world =
          ((.ok { s with
            events := s.events + 1
            histogram := s.histogram.fillAll (points placement primaries.vertices) }, bus),
            world) := by
  constructor
  · intro p threshold position direction hp hthreshold h
    obtain ⟨hit, hcrossing, hmeets⟩ := Placement.exists_crossing position hp hthreshold h
    refine ⟨hit, hcrossing, hmeets, fun k hk hscaled => ?_⟩
    rw [Placement.crossing?_scale hk h hscaled, hcrossing]
  · intro σ s context bus world placement primaries hplacement hevent hprimaries
    rw [outcome_step, hplacement, hevent]
    simp only [hprimaries, if_true, countAll_eq_fillAll]

/-- A detector that is turned about two axes by angles of rational sines. -/
def turned : Placement ℚ where
  name := "dut"
  model := "strip"
  position := ⟨1, 2, 3⟩
  orientation := Rotation.ofTurns ⟨⟨24 / 25, 3 / 5⟩, ⟨-24 / 25, 4 / 5⟩, ⟨0, 0⟩⟩

theorem isOrthogonal_turned : turned.orientation.matrix.IsOrthogonal := by
  apply Rotation.isOrthogonal_ofTurns <;>
  · unfold Turn.IsExact
    norm_num

def atOrigin : Placement Float where
  name := "dut"
  model := "strip"
  position := ⟨0, 0, 0⟩
  orientation := .identity

def onAxis (start : Float) : PrimaryVertex where
  position := ⟨0, 0, start⟩
  direction := ⟨0, 0, 1⟩
  energy := 1
  particle := "e-"

def oneCell : PlaneHistogram where
  id := ⟨name, some "dut"⟩
  detector := "dut"
  placement := some atOrigin
  histogram := ⟨1, 1, 10, #[0], 0, 0⟩
  events := 0

theorem counted_points_are_crossings_turned :
    (∃ hit, turned.crossing? (1 / 2 ^ 52) ⟨0, 0, -10⟩ ⟨0, 1, 1⟩ = some hit ∧
      turned.Meets ⟨0, 0, -10⟩ ⟨0, 1, 1⟩ hit ∧
      turned.crossing? (1 / 2 ^ 52) ⟨0, 0, -10⟩ ⟨0, -2, -2⟩ = some hit) ∧
    let bus : RunBus := Bus.empty.put .primaries ⟨1, [onAxis (-10)]⟩
    (oneCell.step ⟨⟨"run", []⟩, ⟨[]⟩, ⟨"id"⟩, some 1⟩ : Call (StateM Unit) PlaneHistogram).outcome
      bus () = ((.ok { oneCell with
        events := 1
        histogram := oneCell.histogram.fillAll (points atOrigin [onAxis (-10)]) }, bus), ()) := by
  obtain ⟨hcrossings, hstep⟩ := counted_points_are_crossings ℚ
  have hslope : (1 / 2 ^ 52 : ℚ) ≤ |(turned.orientation.applyInverse ⟨0, 1, 1⟩).z| := by
    decide +kernel
  have hscaled : (1 / 2 ^ 52 : ℚ) ≤
      |(turned.orientation.applyInverse (Vec3.scale ⟨0, 1, 1⟩ (-2))).z| := by
    decide +kernel
  obtain ⟨hit, hcrossing, hmeets, hscale⟩ := hcrossings turned (1 / 2 ^ 52) ⟨0, 0, -10⟩ ⟨0, 1, 1⟩
    isOrthogonal_turned (by norm_num) hslope
  have hmultiple : (⟨0, -2, -2⟩ : Vec3 ℚ) = Vec3.scale ⟨0, 1, 1⟩ (-2) := by decide +kernel
  refine ⟨⟨hit, hcrossing, hmeets, ?_⟩, ?_⟩
  · rw [hmultiple]
    exact hscale (-2) (by norm_num) hscaled
  · exact hstep Unit oneCell _ _ () atOrigin ⟨1, [onAxis (-10)]⟩ rfl rfl (Bus.get?_put_self _ _ _)

/-! ## Particles that fly away -/

/--
A particle is counted unless it flies parallel to the plane, at whatever time its line meets the plane. This
time is not negative for a particle that does not fly away from the plane. Read over an ordered field, a
particle reaches the point that is counted exactly if it does not fly away.
-/
theorem counted_unless_parallel (α : Type) [Field α] [LinearOrder α] [IsStrictOrderedRing α] :
    (∀ placement (h : Histogram) vertex,
      countVertex placement h vertex =
        if isParallel placement vertex then h
        else
          let hit := placement.crossingPoint vertex.position vertex.direction
          h.fill hit.x hit.y) ∧
    (∀ placement vertex, isParallel placement vertex = false →
      ¬placement.FliesAway vertex.position vertex.direction →
        ¬placement.crossingTime vertex.position vertex.direction < 0) ∧
    ∀ (p : Placement α) (threshold : α) (position direction : Vec3 α),
      p.orientation.matrix.IsOrthogonal → 0 < threshold →
        ((∀ hit, p.crossing? threshold position direction = some hit →
          p.Reaches position direction hit) ↔
            |(p.orientation.applyInverse direction).z| < threshold ∨
              ¬p.FliesAway position direction) := by
  refine ⟨?_, ?_, ?_⟩
  · intro placement h vertex
    exact countVertex_eq placement h vertex
  · intro placement vertex hparallel haway hneg
    exact haway (fliesAway_of_crossingTime_neg hparallel hneg)
  · intro p threshold position direction hp hthreshold
    exact Placement.crossings_reached_iff hp hthreshold

theorem counted_unless_parallel_turned :
    (∃ hit, turned.crossing? (1 / 2 ^ 52) ⟨0, 10, 10⟩ ⟨0, 1, 1⟩ = some hit ∧
      ¬turned.Reaches ⟨0, 10, 10⟩ ⟨0, 1, 1⟩ hit) ∧
    ¬atOrigin.crossingTime (onAxis (-10)).position (onAxis (-10)).direction < 0 := by
  obtain ⟨-, hahead, hreached⟩ := counted_unless_parallel ℚ
  have hslope : ¬|(turned.orientation.applyInverse ⟨0, 1, 1⟩).z| < (1 / 2 ^ 52 : ℚ) := by
    decide +kernel
  have haway : turned.FliesAway ⟨0, 10, 10⟩ ⟨0, 1, 1⟩ := by
    decide +kernel
  have hmissed := mt (hreached turned (1 / 2 ^ 52) ⟨0, 10, 10⟩ ⟨0, 1, 1⟩ isOrthogonal_turned
    (by norm_num)).mp (not_or.mpr ⟨hslope, not_not.mpr haway⟩)
  push Not at hmissed
  exact ⟨hmissed, hahead atOrigin (onAxis (-10)) (by decide +kernel) (by decide +kernel)⟩

/-- A particle that starts behind the plane and flies away from it is counted by a step. -/
theorem flying_away_is_counted :
    atOrigin.crossingTime (onAxis 10).position (onAxis 10).direction < 0 ∧
      (((oneCell.step ⟨⟨"run", []⟩, ⟨[]⟩, ⟨"id"⟩, some 1⟩ :
        Call (StateM Unit) PlaneHistogram).outcome
          (Bus.empty.put .primaries ⟨1, [onAxis 10]⟩) ()).1.1.toOption.map fun s =>
            s.histogram.entries) = some 1 := by
  decide +kernel

end TestBeam.Stage.PlaneHistogram
