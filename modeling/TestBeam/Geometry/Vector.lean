import TestBeam.Decimal.Layout
import TestBeam.Geometry.Scalar

/-!
# Vectors

Positions and directions in the global frame or in the frame of one detector.
-/

namespace TestBeam

/-- Three components. -/
structure Vec3 (α : Type) where
  x : α
  y : α
  z : α
  deriving BEq, DecidableEq, Repr

namespace Vec3

variable {α β : Type}

def map (f : α → β) (v : Vec3 α) : Vec3 β :=
  ⟨f v.x, f v.y, f v.z⟩

def toList (v : Vec3 α) : List α :=
  [v.x, v.y, v.z]

/-- The same value in every component. -/
def uniform (k : α) : Vec3 α :=
  ⟨k, k, k⟩

/-! ## Arithmetic -/

instance [Zero α] : Zero (Vec3 α) := ⟨uniform 0⟩

instance [Add α] : Add (Vec3 α) := ⟨fun a b => ⟨a.x + b.x, a.y + b.y, a.z + b.z⟩⟩

instance [Neg α] : Neg (Vec3 α) := ⟨map (- ·)⟩

instance [Add α] [Neg α] : Sub (Vec3 α) := ⟨fun a b => a + -b⟩

def scale [Mul α] (v : Vec3 α) (k : α) : Vec3 α :=
  v.map (· * k)

def dot [Add α] [Mul α] (a b : Vec3 α) : α :=
  a.x * b.x + a.y * b.y + a.z * b.z

def cross [Sub α] [Mul α] (a b : Vec3 α) : Vec3 α :=
  ⟨a.y * b.z - a.z * b.y, a.z * b.x - a.x * b.z, a.x * b.y - a.y * b.x⟩

def length [Add α] [Mul α] [SquareRoot α] (v : Vec3 α) : α :=
  SquareRoot.sqrt (v.dot v)

/-! ## Directions -/

section Directions

variable [Zero α] [One α] [Add α] [Neg α] [Sub α] [Mul α] [Div α] [SquareRoot α] [OfScientific α]
  [LT α] [LE α] [DecidableLT α] [DecidableLE α]

/-- Every component is equal up to the tolerance. -/
def isClose (a b : Vec3 α) : Bool :=
  (a - b).toList.all fun c => Scalar.absolute c < Scalar.tolerance

/-- The vector of length one with the same direction. A null vector has none. -/
def normalize? (v : Vec3 α) : Option (Vec3 α) :=
  if Scalar.tolerance ≤ v.length then some (v.scale (1 / v.length)) else none

/--
Some vector of length one that is perpendicular. The helper axis is `x` unless the direction is
nearly along `x`, so the cross product stays away from zero.
-/
def orthogonal? (v : Vec3 α) : Option (Vec3 α) :=
  v.normalize?.bind fun unit =>
    let helper : Vec3 α := if Scalar.absolute unit.x < 0.9 then ⟨1, 0, 0⟩ else ⟨0, 1, 0⟩
    (unit.cross helper).normalize?

end Directions

/-- The components in parentheses, with a fixed number of places. -/
def display (v : Vec3 Float) (places : Nat := 3) : String :=
  "(" ++ ", ".intercalate (v.toList.map (Decimal.fixed places)) ++ ")"

end Vec3

end TestBeam
