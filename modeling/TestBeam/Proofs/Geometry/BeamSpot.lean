import Mathlib.Analysis.Real.Sqrt
import Mathlib.Tactic.LinearCombination
import TestBeam.Geometry.BeamSpot
import TestBeam.Proofs.Geometry.Crossing

/-!
# Beam spots over the reals

Read over the reals, the disk of a beam is spanned by two directions of length one that are perpendicular to
the beam and to each other. They exist for every beam, since its helper axis is never nearly parallel to it.
-/

namespace TestBeam

noncomputable instance : SquareRoot ℝ :=
  ⟨Real.sqrt⟩

namespace Vec3

variable {v d u : Vec3 ℝ}

/-! ## Lengths -/

theorem dot_self_nonneg (v : Vec3 ℝ) : 0 ≤ v.dot v := by
  unfold dot
  exact add_nonneg (add_nonneg (mul_self_nonneg v.x) (mul_self_nonneg v.y)) (mul_self_nonneg v.z)

theorem length_mul_self (v : Vec3 ℝ) : v.length * v.length = v.dot v :=
  Real.mul_self_sqrt v.dot_self_nonneg

theorem length_of_dot_self {r : ℝ} (hr : 0 ≤ r) (h : v.dot v = r * r) : v.length = r := by
  unfold length
  rw [h]
  exact Real.sqrt_mul_self hr

theorem length_eq_one_iff : v.length = 1 ↔ v.dot v = 1 := by
  constructor
  · intro h
    rw [← length_mul_self, h, one_mul]
  · intro h
    exact length_of_dot_self zero_le_one (h.trans (one_mul 1).symm)

theorem tolerance_le_length (h : 0.19 ≤ v.dot v) : Scalar.tolerance ≤ v.length := by
  unfold Scalar.tolerance
  refine Real.le_sqrt_of_sq_le (le_trans ?_ h)
  norm_num

/-! ## Unit vectors -/

theorem normalize?_eq_some_iff :
    v.normalize? = some u ↔ Scalar.tolerance ≤ v.length ∧ v.scale (1 / v.length) = u := by
  unfold normalize?
  split <;> simp [*]

theorem dot_self_of_normalize? (h : v.normalize? = some u) : u.dot u = 1 := by
  obtain ⟨htolerance, rfl⟩ := normalize?_eq_some_iff.mp h
  have hpos : 0 < v.length := by
    refine lt_of_lt_of_le ?_ htolerance
    unfold Scalar.tolerance
    norm_num
  rw [dot_scale, dot_comm, dot_scale, ← length_mul_self]
  field_simp

theorem normalize?_of_dot_self (h : v.dot v = 1) : v.normalize? = some v := by
  apply normalize?_eq_some_iff.mpr
  rw [length_eq_one_iff.mpr h, one_div_one, scale_one]
  refine ⟨?_, rfl⟩
  unfold Scalar.tolerance
  norm_num

/-- The helper axis spans an area with the direction that is far from zero. -/
theorem exists_helper (h : d.dot d = 1) :
    ∃ helper, d.orthogonal? = (d.cross helper).normalize? ∧
      0.19 ≤ (d.cross helper).dot (d.cross helper) := by
  have hunit : d.x * d.x + d.y * d.y + d.z * d.z = 1 := h
  have hbound : Scalar.absolute d.x < 0.9 ↔ d.x * d.x < 0.81 := by
    have hsquare : (0.81 : ℝ) = 0.9 * 0.9 := by norm_num
    rw [Scalar.absolute_eq_abs, hsquare, ← abs_mul_abs_self d.x,
      mul_self_lt_mul_self_iff (abs_nonneg d.x) (by norm_num)]
  unfold orthogonal?
  rw [normalize?_of_dot_self h, Option.bind_some]
  refine ⟨_, rfl, ?_⟩
  rw [dot_cross_self, h]
  split
  · rename_i hsmall
    rw [hbound] at hsmall
    simp only [dot]
    linarith
  · rename_i hlarge
    rw [hbound, not_lt] at hlarge
    have hz := mul_self_nonneg d.z
    simp only [dot]
    linarith

theorem exists_orthogonal? (h : d.dot d = 1) :
    ∃ u, d.orthogonal? = some u ∧ u.dot u = 1 ∧ d.dot u = 0 := by
  obtain ⟨helper, horthogonal, hspan⟩ := exists_helper h
  have hsome : (d.cross helper).normalize? =
      some ((d.cross helper).scale (1 / (d.cross helper).length)) :=
    normalize?_eq_some_iff.mpr ⟨tolerance_le_length hspan, rfl⟩
  refine ⟨_, horthogonal.trans hsome, dot_self_of_normalize? hsome, ?_⟩
  rw [dot_scale, dot_cross_left, zero_mul]

/-! ## Bases -/

structure IsOrthonormal (first second third : Vec3 ℝ) : Prop where
  length_first : first.length = 1
  length_second : second.length = 1
  length_third : third.length = 1
  first_second : first.dot second = 0
  first_third : first.dot third = 0
  second_third : second.dot third = 0

theorem isOrthonormal_cross (hd : d.dot d = 1) (hu : u.dot u = 1) (h : d.dot u = 0) :
    d.IsOrthonormal u (d.cross u) := by
  have hv : (d.cross u).dot (d.cross u) = 1 := by
    rw [dot_cross_self, hd, hu, h, one_mul, mul_zero, sub_zero]
  exact ⟨length_eq_one_iff.mpr hd, length_eq_one_iff.mpr hu, length_eq_one_iff.mpr hv, h,
    d.dot_cross_left u, d.dot_cross_right u⟩

end Vec3

/-! ## Disks -/

/-- The basis of a disk is orthonormal together with the direction, and no direction stands in for it. -/
structure SpannedBy (direction u v : Vec3 ℝ) : Prop where
  orthogonal? : direction.orthogonal? = some u
  basis : spotBasis direction = (u, v)
  orthonormal : direction.IsOrthonormal u v

theorem exists_spannedBy {d : Vec3 ℝ} (h : d.dot d = 1) : ∃ u, SpannedBy d u (d.cross u) := by
  obtain ⟨u, horthogonal, hu, hperpendicular⟩ := Vec3.exists_orthogonal? h
  refine ⟨u, horthogonal, ?_, Vec3.isOrthonormal_cross h hu hperpendicular⟩
  unfold spotBasis
  rw [horthogonal, Option.getD_some]

/-- A point of the disk that is perpendicular to a direction, at some distance from its centre. -/
structure LiesInSpot (centre direction : Vec3 ℝ) (radius distance : ℝ) (point : Vec3 ℝ) : Prop where
  perpendicular : direction.dot (point - centre) = 0
  length_offset : (point - centre).length = distance
  distance_le : distance ≤ radius

theorem SpannedBy.liesInSpot {d u v : Vec3 ℝ} (h : SpannedBy d u v) (centre : Vec3 ℝ)
    {radius share cosine sine : ℝ} (hradius : 0 ≤ radius) (hshare : share ≤ 1)
    (hangle : cosine * cosine + sine * sine = 1) :
    LiesInSpot centre d radius (radius * √share) (spotPoint centre d radius share cosine sine) := by
  have hoffset : spotPoint centre d radius share cosine sine - centre =
      u.scale (radius * √share * cosine) + v.scale (radius * √share * sine) := by
    unfold spotPoint spotOffset
    rw [h.basis]
    exact add_sub_cancel_left _ _
  obtain ⟨-, hu, hv, hdu, hdv, huv⟩ := h.orthonormal
  rw [Vec3.length_eq_one_iff] at hu hv
  constructor
  · rw [hoffset, Vec3.dot_add, Vec3.dot_scale, Vec3.dot_scale, hdu, hdv, zero_mul, zero_mul,
      add_zero]
  · apply Vec3.length_of_dot_self (mul_nonneg hradius (Real.sqrt_nonneg share))
    rw [hoffset, Vec3.dot_self_combination, hu, hv, huv]
    linear_combination (radius * √share * (radius * √share)) * hangle
  · exact mul_le_of_le_one_right hradius (Real.sqrt_le_one.mpr hshare)

end TestBeam
