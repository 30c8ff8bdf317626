import Mathlib.Tactic.Linarith
import TestBeam.Geometry.Matrix
import TestBeam.Proofs.Geometry.Vector

/-!
# Orthogonal matrices

A matrix is determined by the images of vectors. The transpose of an orthogonal matrix is its inverse.
Products of such matrices are orthogonal, and they keep scalar products.
-/

namespace TestBeam.Mat3

attribute [ext] Mat3

variable {α : Type} [CommRing α] {a b : Mat3 α}

theorem add_eq {α : Type} [Add α] (a b : Mat3 α) :
    a + b = ⟨a.first + b.first, a.second + b.second, a.third + b.third⟩ :=
  rfl

/-! ## Images of vectors -/

section Images

variable (a b : Mat3 α) (v w : Vec3 α)

theorem identity_apply : identity.apply v = v := by
  ext <;>
  · simp only [identity, apply, sumProducts]
    ring

theorem add_apply : (a + b).apply v = a.apply v + b.apply v := by
  ext <;>
  · simp only [apply, sumProducts, add_eq, Vec3.add_eq]
    ring

theorem scale_apply (k : α) : (a.scale k).apply v = (a.apply v).scale k := by
  ext <;>
  · simp only [apply, sumProducts, scale, Vec3.map, Vec3.scale_eq]
    ring

theorem mul_apply : (a.mul b).apply v = a.apply (b.apply v) := by
  ext <;>
  · simp only [mul, apply, transpose, sumProducts]
    ring

theorem apply_add : a.apply (v + w) = a.apply v + a.apply w := by
  ext <;>
  · simp only [apply, sumProducts, Vec3.add_eq]
    ring

theorem apply_scale (k : α) : a.apply (v.scale k) = (a.apply v).scale k := by
  ext <;>
  · simp only [apply, sumProducts, Vec3.scale_eq]
    ring

theorem apply_zero : a.apply 0 = 0 := by
  have h := a.apply_add 0 0
  rwa [add_zero, left_eq_add] at h

theorem apply_dot : (a.apply v).dot w = v.dot (a.transpose.apply w) := by
  simp only [apply, transpose, sumProducts, Vec3.dot]
  ring

end Images

theorem ext_apply (h : ∀ v, a.apply v = b.apply v) : a = b := by
  have hx := h ⟨1, 0, 0⟩
  have hy := h ⟨0, 1, 0⟩
  have hz := h ⟨0, 0, 1⟩
  simp only [apply, sumProducts, Vec3.mk.injEq, zero_add, mul_one, mul_zero, add_zero] at hx hy hz
  ext
  exacts [hx.1, hy.1, hz.1, hx.2.1, hy.2.1, hz.2.1, hx.2.2, hy.2.2, hz.2.2]

theorem mul_transpose_eq (a b : Mat3 α) : (a.mul b).transpose = b.transpose.mul a.transpose := by
  ext <;>
  · simp only [mul, apply, transpose, sumProducts]
    ring

/-! ## Orthogonality -/

/-- The transpose is the inverse, on both sides. -/
structure IsOrthogonal (a : Mat3 α) : Prop where
  mul_transpose : a.mul a.transpose = identity
  transpose_mul : a.transpose.mul a = identity

theorem isOrthogonal_iff_apply : a.IsOrthogonal ↔
    (∀ v, a.apply (a.transpose.apply v) = v) ∧ ∀ v, a.transpose.apply (a.apply v) = v := by
  constructor
  · rintro ⟨hright, hleft⟩
    constructor <;> intro v
    · rw [← mul_apply, hright, identity_apply]
    · rw [← mul_apply, hleft, identity_apply]
  · rintro ⟨hright, hleft⟩
    constructor <;> apply ext_apply <;> intro v
    · rw [mul_apply, hright, identity_apply]
    · rw [mul_apply, hleft, identity_apply]

theorem IsOrthogonal.apply_transpose (h : a.IsOrthogonal) (v : Vec3 α) :
    a.apply (a.transpose.apply v) = v :=
  (isOrthogonal_iff_apply.mp h).1 v

theorem IsOrthogonal.transpose_apply (h : a.IsOrthogonal) (v : Vec3 α) :
    a.transpose.apply (a.apply v) = v :=
  (isOrthogonal_iff_apply.mp h).2 v

theorem IsOrthogonal.transpose (h : a.IsOrthogonal) : a.transpose.IsOrthogonal :=
  ⟨h.transpose_mul, h.mul_transpose⟩

theorem IsOrthogonal.dot_apply (h : a.IsOrthogonal) (v w : Vec3 α) :
    (a.apply v).dot (a.apply w) = v.dot w := by
  rw [apply_dot, h.transpose_apply]

theorem isOrthogonal_identity : (identity : Mat3 α).IsOrthogonal := by
  apply isOrthogonal_iff_apply.mpr
  constructor <;> intro v
  · exact (identity_apply _).trans (identity_apply v)
  · exact (identity_apply _).trans (identity_apply v)

theorem IsOrthogonal.mul (ha : a.IsOrthogonal) (hb : b.IsOrthogonal) : (a.mul b).IsOrthogonal := by
  apply isOrthogonal_iff_apply.mpr
  constructor <;> intro v
  · rw [mul_transpose_eq, mul_apply, mul_apply, hb.apply_transpose, ha.apply_transpose]
  · rw [mul_transpose_eq, mul_apply, mul_apply, ha.transpose_apply, hb.transpose_apply]

theorem IsOrthogonal.dot_self_rows (h : a.IsOrthogonal) :
    a.first.dot a.first = 1 ∧ a.second.dot a.second = 1 ∧ a.third.dot a.third = 1 := by
  -- The rows are the images of the axes under the transpose.
  refine ⟨?_, ?_, ?_⟩
  · simpa [apply, Mat3.transpose, sumProducts, Vec3.dot] using h.transpose.dot_apply ⟨1, 0, 0⟩ ⟨1, 0, 0⟩
  · simpa [apply, Mat3.transpose, sumProducts, Vec3.dot] using h.transpose.dot_apply ⟨0, 1, 0⟩ ⟨0, 1, 0⟩
  · simpa [apply, Mat3.transpose, sumProducts, Vec3.dot] using h.transpose.dot_apply ⟨0, 0, 1⟩ ⟨0, 0, 1⟩

/-- No entry of an orthogonal matrix is greater than one. -/
theorem IsOrthogonal.mul_self_le_one {α : Type} [CommRing α] [LinearOrder α] [IsStrictOrderedRing α]
    {a : Mat3 α} (h : a.IsOrthogonal) : ∀ x ∈ a.toList, x * x ≤ 1 := by
  have hrow (v : Vec3 α) (hv : v.dot v = 1) : ∀ x ∈ v.toList, x * x ≤ 1 := by
    have hx := mul_self_nonneg v.x
    have hy := mul_self_nonneg v.y
    have hz := mul_self_nonneg v.z
    simp only [Vec3.toList, List.mem_cons, List.not_mem_nil, or_false, forall_eq_or_imp, forall_eq]
    unfold Vec3.dot at hv
    refine ⟨?_, ?_, ?_⟩ <;> linarith
  obtain ⟨hfirst, hsecond, hthird⟩ := h.dot_self_rows
  unfold toList
  simp only [List.forall_mem_append]
  exact ⟨⟨hrow _ hfirst, hrow _ hsecond⟩, hrow _ hthird⟩

end TestBeam.Mat3
