import Mathlib.Algebra.Ring.Basic
import Mathlib.Tactic.Ring
import TestBeam.Geometry.Vector

/-!
# Vectors over a ring

Read over a commutative ring, vectors are an additive group with a scalar product. The cross product is
perpendicular to its factors, and its square is the square of the area that they span.
-/

namespace TestBeam

attribute [ext] Vec3

namespace Vec3

variable {α : Type}

/-! ## Components -/

theorem add_eq [Add α] (a b : Vec3 α) : a + b = ⟨a.x + b.x, a.y + b.y, a.z + b.z⟩ :=
  rfl

theorem scale_eq [Mul α] (a : Vec3 α) (k : α) : a.scale k = ⟨a.x * k, a.y * k, a.z * k⟩ :=
  rfl

instance [AddCommGroup α] : AddCommGroup (Vec3 α) where
  add_assoc _ _ _ := Vec3.ext (add_assoc _ _ _) (add_assoc _ _ _) (add_assoc _ _ _)
  zero_add _ := Vec3.ext (zero_add _) (zero_add _) (zero_add _)
  add_zero _ := Vec3.ext (add_zero _) (add_zero _) (add_zero _)
  add_comm _ _ := Vec3.ext (add_comm _ _) (add_comm _ _) (add_comm _ _)
  neg_add_cancel _ := Vec3.ext (neg_add_cancel _) (neg_add_cancel _) (neg_add_cancel _)
  sub_eq_add_neg _ _ := rfl
  nsmul := nsmulRec
  zsmul := zsmulRec

variable [CommRing α] (a b c : Vec3 α) (k : α)

/-! ## Scalar products -/

theorem scale_one : a.scale 1 = a := by
  simp only [scale_eq, mul_one]

theorem scale_scale (l : α) : (a.scale k).scale l = a.scale (k * l) := by
  simp only [scale_eq, mul_assoc]

theorem dot_comm : a.dot b = b.dot a := by
  unfold dot
  ring

theorem dot_add : a.dot (b + c) = a.dot b + a.dot c := by
  simp only [dot, add_eq]
  ring

theorem dot_scale : a.dot (b.scale k) = a.dot b * k := by
  simp only [dot, scale_eq]
  ring

theorem dot_self_combination (l : α) :
    (a.scale k + b.scale l).dot (a.scale k + b.scale l) =
      k * k * a.dot a + 2 * (k * l * a.dot b) + l * l * b.dot b := by
  simp only [dot, scale_eq, add_eq]
  ring

/-! ## Cross products -/

theorem cross_add : a.cross (b + c) = a.cross b + a.cross c := by
  ext <;>
  · simp only [cross, add_eq]
    ring

theorem cross_scale : a.cross (b.scale k) = (a.cross b).scale k := by
  ext <;>
  · simp only [cross, scale_eq]
    ring

theorem dot_cross_left : a.dot (a.cross b) = 0 := by
  unfold dot cross
  ring

theorem dot_cross_right : b.dot (a.cross b) = 0 := by
  unfold dot cross
  ring

theorem dot_cross_self : (a.cross b).dot (a.cross b) = a.dot a * b.dot b - a.dot b * a.dot b := by
  unfold dot cross
  ring

theorem cross_cross_cross : a.cross (a.cross (a.cross b)) = (a.cross b).scale (-a.dot a) := by
  ext <;>
  · simp only [cross, dot, scale_eq]
    ring

end Vec3

end TestBeam
