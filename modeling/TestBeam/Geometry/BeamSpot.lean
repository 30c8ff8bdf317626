import TestBeam.Geometry.Vector

/-!
# Beam spots

A beam starts in a disk that is perpendicular to its direction. A point of the disk is given by its
distance from the centre and the cosine and sine of its angle.
-/

namespace TestBeam

variable {α : Type} [Zero α] [One α] [Add α] [Neg α] [Sub α] [Mul α] [Div α] [SquareRoot α]
  [OfScientific α] [LT α] [LE α] [DecidableLT α] [DecidableLE α]

/-- Two directions that span the disk of a beam along `direction`. -/
def spotBasis (direction : Vec3 α) : Vec3 α × Vec3 α :=
  let u := direction.orthogonal?.getD ⟨1, 0, 0⟩
  (u, direction.cross u)

/-- The offset of a point of the disk from its centre. -/
def spotOffset (direction : Vec3 α) (distance cosine sine : α) : Vec3 α :=
  let (u, v) := spotBasis direction
  u.scale (distance * cosine) + v.scale (distance * sine)

/-- The point of a disk for a share of its area, which lies inside of the point, and for an angle. -/
def spotPoint (centre direction : Vec3 α) (radius share cosine sine : α) : Vec3 α :=
  centre + spotOffset direction (radius * SquareRoot.sqrt share) cosine sine

end TestBeam
