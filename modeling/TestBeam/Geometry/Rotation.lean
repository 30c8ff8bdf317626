import TestBeam.Geometry.Matrix

/-!
# Rotations

A turn about a unit axis `u` is `1 + s W + 2 h² W²`, where `W` is the matrix of the cross product with
`u`, `s` is the sine of the angle and `h` the sine of half the angle. The orientation of a detector
is three such turns about the global axes `x`, `y` and `z`, in that order.
-/

namespace TestBeam

/-- An angle, given by its sine and the sine of its half. -/
structure Turn (α : Type) where
  sine : α
  halfSine : α
  deriving Repr

/-- An angle in radians. -/
def Turn.ofAngle (phi : Float) : Turn Float :=
  ⟨phi.sin, (phi / 2).sin⟩

/-- The matrix of the cross product with `u`. -/
def Mat3.ofCross {α : Type} [Zero α] [Neg α] (u : Vec3 α) : Mat3 α :=
  ⟨⟨0, -u.z, u.y⟩, ⟨u.z, 0, -u.x⟩, ⟨-u.y, u.x, 0⟩⟩

/-- The orientation of a detector relative to the global frame. -/
structure Rotation (α : Type) where
  matrix : Mat3 α
  deriving BEq, Repr

namespace Rotation

variable {α : Type} [Zero α] [One α] [Add α] [Neg α] [Mul α]

def identity : Rotation α :=
  ⟨Mat3.identity⟩

/-- The turn about the axis `u`, which has length one. -/
def about [OfNat α 2] (u : Vec3 α) (turn : Turn α) : Mat3 α :=
  let w := Mat3.ofCross u
  Mat3.identity + w.scale turn.sine + (w.mul w).scale (2 * (turn.halfSine * turn.halfSine))

/-- Turns about the global axes `x`, `y` and `z`, in that order. -/
def ofTurns [OfNat α 2] (turns : Vec3 (Turn α)) : Rotation α :=
  let rx := about ⟨1, 0, 0⟩ turns.x
  let ry := about ⟨0, 1, 0⟩ turns.y
  let rz := about ⟨0, 0, 1⟩ turns.z
  ⟨(rz.mul ry).mul rx⟩

/-- From the frame of the detector into the global frame. -/
def apply (r : Rotation α) (v : Vec3 α) : Vec3 α :=
  r.matrix.apply v

/-- From the global frame into the frame of the detector. -/
def applyInverse (r : Rotation α) (v : Vec3 α) : Vec3 α :=
  r.matrix.transpose.apply v

/-- The orientation for three angles in radians. -/
def ofAngles (angles : Vec3 Float) : Rotation Float :=
  ofTurns (angles.map Turn.ofAngle)

end Rotation

/-! ## Turns about any axis -/

structure AxisError where
  axis : Vec3 Float

def AxisError.message (e : AxisError) : String :=
  "rotation_matrix() requires u to be a unit vector, got " ++ e.axis.display

/-- The turn about a given axis, which must have length one. -/
def Rotation.about? (u : Vec3 Float) (phi : Float) : Except AxisError (Mat3 Float) :=
  if Scalar.isClose u.length 1 then .ok (Rotation.about u (Turn.ofAngle phi))
  else .error ⟨u⟩

end TestBeam
