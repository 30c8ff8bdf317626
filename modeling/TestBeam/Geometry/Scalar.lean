/-!
# Scalars

Geometry asks its scalars only for the operations that it uses. A run uses doubles. Statements about
rotations, crossings and bins can be read over rings and ordered fields, where the same definitions
are exact.
-/

namespace TestBeam

class SquareRoot (α : Type) where
  sqrt : α → α

/-- Scalars with a whole part. Values below zero have the whole part zero. -/
class WholePart (α : Type) where
  wholePart : α → Nat

instance : SquareRoot Float := ⟨Float.sqrt⟩

instance : WholePart Float := ⟨fun x => x.toUInt64.toNat⟩

instance natCastFloat : NatCast Float := ⟨Float.ofNat⟩

namespace Scalar

variable {α : Type}

def absolute [Zero α] [Neg α] [LT α] [DecidableLT α] (x : α) : α :=
  if x < 0 then -x else x

/-- Lengths below this count as zero. -/
def tolerance [OfScientific α] : α := 1e-13

/-- Equality up to the tolerance. -/
def isClose [Zero α] [Neg α] [Sub α] [LT α] [DecidableLT α] [OfScientific α] (x y : α) : Bool :=
  absolute (x - y) < tolerance

/-- The smaller value. A value that does not compare to itself is passed over. -/
def lower [LT α] [LE α] [DecidableLT α] [DecidableLE α] (x y : α) : α :=
  if y < x then y else if x ≤ x then x else y

/-- The larger value. A value that does not compare to itself is passed over. -/
def upper [LT α] [LE α] [DecidableLT α] [DecidableLE α] (x y : α) : α :=
  if x < y then y else if x ≤ x then x else y

end Scalar

end TestBeam
