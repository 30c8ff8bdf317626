import TestBeam.Geometry.Placement
import TestBeam.Proofs.Geometry.Matrix

/-!
# Placements are rigid motions

Where the orientation is orthogonal, the way from the global frame into the frame of a detector and the way
back undo each other. Both keep scalar products, and both map lines to lines.
-/

namespace TestBeam

variable {α : Type} [CommRing α]

/-! ## Orientations -/

/-- Both ways undo each other and keep scalar products. -/
structure Rotation.IsRigid (r : Rotation α) : Prop where
  applyInverse_apply : ∀ v, r.applyInverse (r.apply v) = v
  apply_applyInverse : ∀ v, r.apply (r.applyInverse v) = v
  dot_apply : ∀ v w, (r.apply v).dot (r.apply w) = v.dot w
  dot_applyInverse : ∀ v w, (r.applyInverse v).dot (r.applyInverse w) = v.dot w

theorem Rotation.isRigid_of_isOrthogonal {r : Rotation α} (h : r.matrix.IsOrthogonal) : r.IsRigid where
  applyInverse_apply := h.transpose_apply
  apply_applyInverse := h.apply_transpose
  dot_apply := h.dot_apply
  dot_applyInverse := h.transpose.dot_apply

/-! ## Lines -/

def Vec3.linePoint (position direction : Vec3 α) (t : α) : Vec3 α :=
  position + direction.scale t

namespace Placement

variable {p : Placement α}

theorem toLocal_linePoint (p : Placement α) (position direction : Vec3 α) (t : α) :
    p.toLocal (position.linePoint direction t) =
      (p.toLocal position).linePoint (p.orientation.applyInverse direction) t := by
  unfold toLocal Vec3.linePoint Rotation.applyInverse
  rw [add_sub_right_comm, Mat3.apply_add, Mat3.apply_scale]

/-! ## Frames -/

/-- Both ways undo each other, and the centre of the detector is the origin of its frame. -/
structure IsRigid (p : Placement α) : Prop where
  toGlobal_toLocal : ∀ point, p.toGlobal (p.toLocal point) = point
  toLocal_toGlobal : ∀ point, p.toLocal (p.toGlobal point) = point
  toLocal_position : p.toLocal p.position = 0

theorem isRigid_of_isOrthogonal (h : p.orientation.matrix.IsOrthogonal) : p.IsRigid := by
  have hr := Rotation.isRigid_of_isOrthogonal h
  constructor
  · intro point
    unfold toGlobal toLocal
    rw [hr.apply_applyInverse, sub_add_cancel]
  · intro point
    unfold toGlobal toLocal
    rw [add_sub_cancel_right, hr.applyInverse_apply]
  · unfold toLocal
    rw [sub_self]
    exact Mat3.apply_zero _

end Placement

end TestBeam
