import TestBeam.Geometry.Vector

/-!
# Matrices

Three rows of three. Sums of products run from the left and start at zero.
-/

namespace TestBeam

/-- A matrix given by its rows. -/
structure Mat3 (α : Type) where
  first : Vec3 α
  second : Vec3 α
  third : Vec3 α
  deriving BEq, DecidableEq, Repr

namespace Mat3

variable {α : Type}

def toList (m : Mat3 α) : List α :=
  m.first.toList ++ m.second.toList ++ m.third.toList

def transpose (m : Mat3 α) : Mat3 α :=
  ⟨⟨m.first.x, m.second.x, m.third.x⟩, ⟨m.first.y, m.second.y, m.third.y⟩,
    ⟨m.first.z, m.second.z, m.third.z⟩⟩

def identity [Zero α] [One α] : Mat3 α :=
  ⟨⟨1, 0, 0⟩, ⟨0, 1, 0⟩, ⟨0, 0, 1⟩⟩

instance [Add α] : Add (Mat3 α) :=
  ⟨fun a b => ⟨a.first + b.first, a.second + b.second, a.third + b.third⟩⟩

def scale [Mul α] (m : Mat3 α) (k : α) : Mat3 α :=
  ⟨m.first.map (k * ·), m.second.map (k * ·), m.third.map (k * ·)⟩

/-- The scalar product, summed from zero. -/
def sumProducts [Zero α] [Add α] [Mul α] (a b : Vec3 α) : α :=
  0 + a.x * b.x + a.y * b.y + a.z * b.z

def apply [Zero α] [Add α] [Mul α] (m : Mat3 α) (v : Vec3 α) : Vec3 α :=
  ⟨sumProducts m.first v, sumProducts m.second v, sumProducts m.third v⟩

/-- Row `i` of the product is row `i` of the left factor against every column of the right one. -/
def mul [Zero α] [Add α] [Mul α] (a b : Mat3 α) : Mat3 α :=
  let columns := b.transpose
  ⟨columns.apply a.first, columns.apply a.second, columns.apply a.third⟩

end Mat3

end TestBeam
