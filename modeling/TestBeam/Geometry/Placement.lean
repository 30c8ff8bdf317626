import TestBeam.Geometry.Rotation

/-!
# Placed detectors

A placement puts a detector into the global frame. The layout of a run is the list of all placements,
and its bounds are the box around their centres.
-/

namespace TestBeam

/-- One detector in the global frame. -/
structure Placement (α : Type) where
  name : String
  model : String
  position : Vec3 α
  orientation : Rotation α

namespace Placement

variable {α : Type} [Zero α] [One α] [Add α] [Neg α] [Mul α]

def toLocal (p : Placement α) (point : Vec3 α) : Vec3 α :=
  p.orientation.applyInverse (point - p.position)

def toGlobal (p : Placement α) (point : Vec3 α) : Vec3 α :=
  p.orientation.apply point + p.position

/--
Where the straight line through `position` along `direction` meets the plane of the sensor, in the
frame of the detector. A line that is parallel to the plane up to `threshold` meets it nowhere.
-/
def crossing? [Div α] [LT α] [DecidableLT α] (p : Placement α) (threshold : α)
    (position direction : Vec3 α) : Option (Vec3 α) :=
  let start := p.toLocal position
  let along := p.orientation.applyInverse direction
  if Scalar.absolute along.z < threshold then none
  else some (start + along.scale (-start.z / along.z))

end Placement

/-- All placed detectors, with extra space around the outermost ones. -/
structure DetectorLayout (α : Type) where
  margin : α
  placements : List (Placement α)

namespace DetectorLayout

variable {α : Type}

def get? (layout : DetectorLayout α) (name : String) : Option (Placement α) :=
  layout.placements.find? (·.name == name)

/-- The component-wise combination of all centres. -/
def extreme (pick : α → α → α) (start : Vec3 α) (placements : List (Placement α)) : Vec3 α :=
  placements.foldl
    (fun v p => ⟨pick v.x p.position.x, pick v.y p.position.y, pick v.z p.position.z⟩) start

/-- The box around all centres, widened by the margin. -/
def bounds? [Add α] [Neg α] [LT α] [LE α] [DecidableLT α] [DecidableLE α]
    (layout : DetectorLayout α) : Option (Vec3 α × Vec3 α) :=
  layout.placements.head?.map fun first =>
    let low := extreme Scalar.lower first.position layout.placements
    let high := extreme Scalar.upper first.position layout.placements
    (low - Vec3.uniform layout.margin, high + Vec3.uniform layout.margin)

end DetectorLayout

end TestBeam
