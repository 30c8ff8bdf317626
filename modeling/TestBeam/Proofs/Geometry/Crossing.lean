import Mathlib.Algebra.Order.Field.Basic
import TestBeam.Proofs.Geometry.Placement

/-!
# Where lines meet the plane of a sensor

Read over an ordered field, a line that is not parallel to the plane of a sensor meets it in one point. A
particle flies away from the plane exactly if it was there at a time before its start.
-/

namespace TestBeam

variable {α : Type}

/-! ## Particles and planes -/

namespace Placement

section Definitions

variable [Zero α] [Add α] [Neg α] [Mul α]

/-- How often a particle goes along its direction until it is in the plane of the sensor. -/
def crossingTime [Div α] (p : Placement α) (position direction : Vec3 α) : α :=
  -(p.toLocal position).z / (p.orientation.applyInverse direction).z

def crossingPoint [Div α] (p : Placement α) (position direction : Vec3 α) : Vec3 α :=
  p.toLocal position +
    (p.orientation.applyInverse direction).scale (p.crossingTime position direction)

theorem crossing?_eq [Div α] [LT α] [DecidableLT α] (p : Placement α) (threshold : α)
    (position direction : Vec3 α) :
    p.crossing? threshold position direction =
      if Scalar.absolute (p.orientation.applyInverse direction).z < threshold then none
      else some (p.crossingPoint position direction) :=
  rfl

/-- A particle starts off the plane of the sensor and flies towards the side on which it starts. -/
def FliesAway [LT α] (p : Placement α) (position direction : Vec3 α) : Prop :=
  0 < (p.toLocal position).z ∧ 0 < (p.orientation.applyInverse direction).z ∨
    (p.toLocal position).z < 0 ∧ (p.orientation.applyInverse direction).z < 0

instance [LT α] [DecidableLT α] (p : Placement α) (position direction : Vec3 α) :
    Decidable (p.FliesAway position direction) :=
  inferInstanceAs (Decidable (_ ∨ _))

end Definitions

/-- A point in the frame of the sensor is the only one that a line has in common with its plane. -/
structure Meets [CommRing α] (p : Placement α) (position direction hit : Vec3 α) : Prop where
  inPlane : hit.z = 0
  onLine : ∃ t, p.toGlobal hit = position.linePoint direction t
  only : ∀ t, (p.toLocal (position.linePoint direction t)).z = 0 →
    position.linePoint direction t = p.toGlobal hit

end Placement

namespace Placement

section Field

variable [Field α] {p : Placement α} {position direction : Vec3 α}

theorem inPlane_iff (h : (p.orientation.applyInverse direction).z ≠ 0) (t : α) :
    (p.toLocal (position.linePoint direction t)).z = 0 ↔ t = p.crossingTime position direction := by
  have hz : (p.toLocal (position.linePoint direction t)).z =
      (p.toLocal position).z + (p.orientation.applyInverse direction).z * t := by
    rw [toLocal_linePoint]
    rfl
  unfold crossingTime
  rw [hz, eq_div_iff h, mul_comm t, ← neg_eq_iff_add_eq_zero, eq_comm]

theorem crossingPoint_eq (p : Placement α) (position direction : Vec3 α) :
    p.crossingPoint position direction =
      p.toLocal (position.linePoint direction (p.crossingTime position direction)) :=
  (p.toLocal_linePoint position direction _).symm

theorem meets_crossingPoint (hp : p.orientation.matrix.IsOrthogonal)
    (h : (p.orientation.applyInverse direction).z ≠ 0) :
    p.Meets position direction (p.crossingPoint position direction) := by
  have hrigid := isRigid_of_isOrthogonal hp
  rw [crossingPoint_eq]
  constructor
  · exact (inPlane_iff h _).mpr rfl
  · exact ⟨_, hrigid.toGlobal_toLocal _⟩
  · intro t ht
    rw [hrigid.toGlobal_toLocal, (inPlane_iff h t).mp ht]

theorem crossingPoint_scale {k : α} (hk : k ≠ 0) :
    p.crossingPoint position (direction.scale k) = p.crossingPoint position direction := by
  have halong : p.orientation.applyInverse (direction.scale k) =
      (p.orientation.applyInverse direction).scale k :=
    Mat3.apply_scale _ direction k
  have htime : k * p.crossingTime position (direction.scale k) =
      p.crossingTime position direction := by
    unfold crossingTime
    rw [halong, Vec3.scale_eq, ← div_div, mul_div_cancel₀ _ hk]
  unfold crossingPoint
  rw [halong, Vec3.scale_scale, htime]

end Field

end Placement

/-! ## Crossings -/

variable [Field α] [LinearOrder α] [IsStrictOrderedRing α]

theorem Scalar.absolute_eq_abs (x : α) : absolute x = |x| := by
  unfold absolute
  split
  · rename_i hneg
    rw [abs_of_neg hneg]
  · rename_i hneg
    rw [abs_of_nonneg (not_lt.mp hneg)]

namespace Placement

variable {p : Placement α} {threshold : α} {position direction : Vec3 α}

theorem crossing?_of_lt (h : |(p.orientation.applyInverse direction).z| < threshold) :
    p.crossing? threshold position direction = none := by
  rw [crossing?_eq, Scalar.absolute_eq_abs, if_pos h]

theorem crossing?_of_le (h : threshold ≤ |(p.orientation.applyInverse direction).z|) :
    p.crossing? threshold position direction = some (p.crossingPoint position direction) := by
  rw [crossing?_eq, Scalar.absolute_eq_abs, if_neg (not_lt.mpr h)]

theorem exists_crossing (position : Vec3 α) (hp : p.orientation.matrix.IsOrthogonal)
    (hthreshold : 0 < threshold) (h : threshold ≤ |(p.orientation.applyInverse direction).z|) :
    ∃ hit, p.crossing? threshold position direction = some hit ∧ p.Meets position direction hit :=
  ⟨_, crossing?_of_le h, meets_crossingPoint hp (abs_pos.mp (hthreshold.trans_le h))⟩

theorem crossing?_scale {k : α} (hk : k ≠ 0)
    (h : threshold ≤ |(p.orientation.applyInverse direction).z|)
    (hscaled : threshold ≤ |(p.orientation.applyInverse (direction.scale k)).z|) :
    p.crossing? threshold position (direction.scale k) =
      p.crossing? threshold position direction := by
  rw [crossing?_of_le h, crossing?_of_le hscaled, crossingPoint_scale hk]

/-! ## Before and after the start -/

theorem crossingTime_neg_iff :
    p.crossingTime position direction < 0 ↔ p.FliesAway position direction := by
  unfold crossingTime FliesAway
  rw [neg_div, neg_lt_zero, div_pos_iff]

/-- The particle comes to the point after its start. -/
def Reaches (p : Placement α) (position direction hit : Vec3 α) : Prop :=
  ∃ t, 0 ≤ t ∧ p.toGlobal hit = position.linePoint direction t

theorem reaches_iff (hp : p.orientation.matrix.IsOrthogonal)
    (h : (p.orientation.applyInverse direction).z ≠ 0) {hit : Vec3 α}
    (hmeets : p.Meets position direction hit) :
    p.Reaches position direction hit ↔ ¬p.FliesAway position direction := by
  have htime (t : α) (ht : p.toGlobal hit = position.linePoint direction t) :
      t = p.crossingTime position direction := by
    rw [← inPlane_iff h, ← ht, (isRigid_of_isOrthogonal hp).toLocal_toGlobal, hmeets.inPlane]
  rw [← crossingTime_neg_iff, not_lt]
  constructor
  · rintro ⟨t, hnonneg, ht⟩
    exact htime t ht ▸ hnonneg
  · intro hnonneg
    obtain ⟨t, ht⟩ := hmeets.onLine
    exact ⟨t, htime t ht ▸ hnonneg, ht⟩

/-- What is found is always reached, but for particles that fly away from the plane. -/
theorem crossings_reached_iff (hp : p.orientation.matrix.IsOrthogonal) (hthreshold : 0 < threshold) :
    (∀ hit, p.crossing? threshold position direction = some hit →
      p.Reaches position direction hit) ↔
        |(p.orientation.applyInverse direction).z| < threshold ∨ ¬p.FliesAway position direction := by
  rcases lt_or_ge |(p.orientation.applyInverse direction).z| threshold with hparallel | h
  · simp [crossing?_of_lt hparallel, hparallel]
  · obtain ⟨hit, hcrossing, hmeets⟩ := exists_crossing position hp hthreshold h
    have hreaches := reaches_iff hp (abs_pos.mp (hthreshold.trans_le h)) hmeets
    simp [hcrossing, hreaches, not_lt.mpr h]

end Placement

end TestBeam
