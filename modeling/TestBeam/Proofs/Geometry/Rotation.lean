import Mathlib.Analysis.SpecialFunctions.Trigonometric.Basic
import Mathlib.Tactic.LinearCombination
import TestBeam.Geometry.Rotation
import TestBeam.Proofs.Geometry.Matrix

/-!
# Turns are orthogonal

A turn about a unit axis adds two cross products to a vector. The same angle the other way round undoes it,
and its matrix is the transpose. So the orientation of every detector is orthogonal.
-/

namespace TestBeam

/-! ## Angles -/

namespace Turn

variable {α : Type} [CommRing α] {turn : Turn α}

/-- The two sines belong to one angle. -/
def IsExact (turn : Turn α) : Prop :=
  turn.sine * turn.sine =
    4 * turn.halfSine * turn.halfSine * (1 - turn.halfSine * turn.halfSine)

def reverse (turn : Turn α) : Turn α :=
  ⟨-turn.sine, turn.halfSine⟩

theorem reverse_reverse (turn : Turn α) : turn.reverse.reverse = turn := by
  unfold reverse
  rw [neg_neg]

theorem IsExact.reverse (h : turn.IsExact) : turn.reverse.IsExact := by
  unfold IsExact Turn.reverse
  rw [neg_mul_neg]
  exact h

noncomputable def ofHalfAngle (half : ℝ) : Turn ℝ :=
  ⟨Real.sin (half + half), Real.sin half⟩

theorem isExact_ofHalfAngle (half : ℝ) : (ofHalfAngle half).IsExact := by
  have hone := Real.sin_sq_add_cos_sq half
  simp only [IsExact, ofHalfAngle, Real.sin_add]
  linear_combination 4 * Real.sin half ^ 2 * hone

end Turn

/-! ## Turns about an axis -/

variable {α : Type} [CommRing α]

theorem Mat3.ofCross_apply (u v : Vec3 α) : (ofCross u).apply v = u.cross v := by
  ext <;>
  · simp only [ofCross, apply, sumProducts, Vec3.cross]
    ring

namespace Rotation

variable {u : Vec3 α} {turn : Turn α}

theorem about_apply (u : Vec3 α) (turn : Turn α) (v : Vec3 α) :
    (about u turn).apply v =
      v + (u.cross v).scale turn.sine +
        (u.cross (u.cross v)).scale (2 * (turn.halfSine * turn.halfSine)) := by
  unfold about
  simp only [Mat3.add_apply, Mat3.scale_apply, Mat3.mul_apply, Mat3.identity_apply,
    Mat3.ofCross_apply]

theorem transpose_about (u : Vec3 α) (turn : Turn α) :
    (about u turn).transpose = about u turn.reverse := by
  ext <;>
  · simp only [about, Turn.reverse, Mat3.ofCross, Mat3.identity, Mat3.add_eq, Mat3.scale, Mat3.mul,
      Mat3.apply, Mat3.transpose, Mat3.sumProducts, Vec3.add_eq, Vec3.map]
    ring

theorem about_apply_reverse (hu : u.dot u = 1) (hturn : turn.IsExact) (v : Vec3 α) :
    (about u turn).apply ((about u turn.reverse).apply v) = v := by
  rw [about_apply, about_apply]
  simp only [Vec3.cross_add, Vec3.cross_scale, Vec3.cross_cross_cross, hu]
  unfold Turn.IsExact at hturn
  -- The first cross product cancels. What is left of the second one is the relation of the sines.
  generalize u.cross v = first
  generalize u.cross first = second
  ext <;> simp only [Vec3.add_eq, Vec3.scale_eq, Turn.reverse]
  · linear_combination -second.x * hturn
  · linear_combination -second.y * hturn
  · linear_combination -second.z * hturn

theorem isOrthogonal_about (hu : u.dot u = 1) (hturn : turn.IsExact) :
    (about u turn).IsOrthogonal := by
  rw [Mat3.isOrthogonal_iff_apply, transpose_about]
  constructor
  · exact about_apply_reverse hu hturn
  · have hback := about_apply_reverse hu hturn.reverse
    rwa [Turn.reverse_reverse] at hback

/-! ## Orientations -/

theorem isOrthogonal_ofTurns {turns : Vec3 (Turn α)} (hx : turns.x.IsExact) (hy : turns.y.IsExact)
    (hz : turns.z.IsExact) : (ofTurns turns).matrix.IsOrthogonal := by
  have hrx := isOrthogonal_about (u := ⟨1, 0, 0⟩) (by simp [Vec3.dot]) hx
  have hry := isOrthogonal_about (u := ⟨0, 1, 0⟩) (by simp [Vec3.dot]) hy
  have hrz := isOrthogonal_about (u := ⟨0, 0, 1⟩) (by simp [Vec3.dot]) hz
  exact (hrz.mul hry).mul hrx

end Rotation

end TestBeam
