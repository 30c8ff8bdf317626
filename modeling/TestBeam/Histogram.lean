import TestBeam.Geometry.Scalar

/-!
# Histograms

A square histogram centred on the origin. Its bins cover `[-range / 2, range / 2)` on both axes. A
point outside only counts as overflow.
-/

namespace TestBeam

/-! ## Bins of one axis -/

/-- The bin of a value on an axis of `bins` equal bins around zero. -/
def binIndex? {α : Type} [Zero α] [One α] [OfNat α 2] [Add α] [Mul α] [Div α] [LT α] [LE α]
    [DecidableLT α] [DecidableLE α] [NatCast α] [WholePart α] (range : α) (bins : Nat)
    (value : α) : Option Nat :=
  let fraction := (value + range / 2) / range
  if 0 ≤ fraction ∧ fraction < 1 then
    some (min (WholePart.wholePart (fraction * (bins : α))) (bins - 1))
  else none

/-! ## Counts -/

/-- Counts are stored row by row, `binsX` of them in each row. -/
structure Histogram where
  binsX : Nat
  binsY : Nat
  range : Float
  counts : Array Nat
  entries : Nat
  overflow : Nat

/-- Why a histogram cannot be made. -/
inductive HistogramError where
  | binCount (binsX binsY : Nat)
  | range
  deriving DecidableEq, Repr

/-- A histogram has at most this many bins. -/
def maxBins : Nat := 16777216

def HistogramError.message : HistogramError → String
  | .binCount x y =>
    toString x ++ " x " ++ toString y ++ " bins, expected between 1 and " ++ toString maxBins ++
      " in total"
  | .range => "range must be positive"

namespace Histogram

def make (binsX binsY : Nat) (range : Float) : Except HistogramError Histogram :=
  let bins := binsX * binsY
  if bins = 0 || maxBins < bins then .error (.binCount binsX binsY)
  else if 0 < range && range.isFinite then
    .ok { binsX, binsY, range, counts := Array.replicate bins 0, entries := 0, overflow := 0 }
  else .error .range

/-- The cell of a point, if it lies inside. -/
def cell? (h : Histogram) (x y : Float) : Option Nat :=
  match binIndex? h.range h.binsX x, binIndex? h.range h.binsY y with
  | some i, some j => some (j * h.binsX + i)
  | _, _ => none

/-- Counts one point. -/
def fill (h : Histogram) (x y : Float) : Histogram :=
  match h.cell? x y with
  | some k => { h with entries := h.entries + 1, counts := h.counts.modify k (· + 1) }
  | none => { h with entries := h.entries + 1, overflow := h.overflow + 1 }

/-- The count of column `i` in row `j`. -/
def count? (h : Histogram) (i j : Nat) : Option Nat :=
  if i < h.binsX && j < h.binsY then h.counts[j * h.binsX + i]? else none

end Histogram

end TestBeam
