import Mathlib.Algebra.Ring.Nat
import TestBeam.Proofs.Result
import TestBeam.Stage.PlaneHistogram

/-!
# Counting particles

Every point that a histogram is given is counted once, in a cell or as overflow. A particle that flies
parallel to the plane is the only one that is not counted.
-/

namespace TestBeam

/-! ## Histograms -/

theorem sum_modify_succ {counts : List Nat} {k : Nat} (h : k < counts.length) :
    (counts.modify k (· + 1)).sum = counts.sum + 1 := by
  induction counts generalizing k with
  | nil => simp at h
  | cons n counts ih =>
    cases k with
    | zero =>
      rw [List.modify_zero_cons, List.sum_cons, List.sum_cons]
      omega
    | succ k =>
      rw [List.modify_succ_cons, List.sum_cons, List.sum_cons, ih (Nat.lt_of_succ_lt_succ h)]
      omega

theorem binIndex?_lt {range value : Float} {bins i : Nat} (hbins : 0 < bins)
    (h : binIndex? range bins value = some i) : i < bins := by
  unfold binIndex? at h
  simp only at h
  split at h
  · obtain rfl := Option.some.inj h
    exact Nat.lt_of_le_of_lt (Nat.min_le_right _ _) (Nat.sub_lt hbins Nat.one_pos)
  · cases h

namespace Histogram

/-- There is a cell for every pair of bins, and every entry is in one of them or is overflow. -/
structure Accounted (h : Histogram) : Prop where
  rows : 0 < h.binsX
  columns : 0 < h.binsY
  size : h.counts.size = h.binsX * h.binsY
  total : h.counts.sum + h.overflow = h.entries

variable {h : Histogram}

theorem Accounted.address_lt (ha : h.Accounted) {i j : Nat} (hi : i < h.binsX) (hj : j < h.binsY) :
    j * h.binsX + i < h.counts.size :=
  calc j * h.binsX + i < j * h.binsX + h.binsX := Nat.add_lt_add_left hi _
    _ = (j + 1) * h.binsX := (Nat.succ_mul j h.binsX).symm
    _ ≤ h.binsY * h.binsX := Nat.mul_le_mul_right _ hj
    _ = h.counts.size := by rw [ha.size, Nat.mul_comm]

theorem Accounted.cell?_lt (ha : h.Accounted) {x y : Float} {k : Nat} (hk : h.cell? x y = some k) :
    k < h.counts.size := by
  unfold cell? at hk
  split at hk
  · rename_i i j hi hj
    obtain rfl := Option.some.inj hk
    exact ha.address_lt (binIndex?_lt ha.rows hi) (binIndex?_lt ha.columns hj)
  · cases hk

theorem accounted_make {binsX binsY : Nat} {range : Float} (hmake : make binsX binsY range = .ok h) :
    h.Accounted ∧ h.binsX = binsX ∧ h.binsY = binsY ∧ h.entries = 0 := by
  unfold make at hmake
  simp only at hmake
  split at hmake
  · cases hmake
  · rename_i hbins
    split at hmake
    · obtain rfl := Except.ok.inj hmake
      simp only [Bool.or_eq_true, decide_eq_true_eq, not_or] at hbins
      have hpos := Nat.pos_of_ne_zero hbins.1
      refine ⟨⟨Nat.pos_of_mul_pos_right hpos, Nat.pos_of_mul_pos_left hpos, by simp, ?_⟩, rfl, rfl,
        rfl⟩
      rw [← Array.sum_toList]
      simp
    · cases hmake

theorem Accounted.fill (ha : h.Accounted) (x y : Float) :
    (h.fill x y).Accounted ∧ (h.fill x y).binsX = h.binsX ∧ (h.fill x y).binsY = h.binsY ∧
      (h.fill x y).entries = h.entries + 1 := by
  have htotal := ha.total
  unfold Histogram.fill
  split
  · rename_i k hk
    have hlt := ha.cell?_lt hk
    refine ⟨⟨ha.rows, ha.columns, ?_, ?_⟩, rfl, rfl, rfl⟩
    · simp only [Array.size_modify, ha.size]
    · rw [← Array.sum_toList, Array.toList_modify,
        sum_modify_succ (by rwa [Array.length_toList]), Array.sum_toList]
      simp only
      omega
  · exact ⟨⟨ha.rows, ha.columns, ha.size, by simp only; omega⟩, rfl, rfl, rfl⟩

end Histogram

/-! ## Particles -/

namespace Stage.PlaneHistogram

def isParallel (placement : Placement Float) (vertex : PrimaryVertex) : Bool :=
  Scalar.absolute (placement.orientation.applyInverse vertex.direction).z < parallelThreshold

variable {h : Histogram}

theorem crossing?_eq_none_iff (placement : Placement Float) (vertex : PrimaryVertex) :
    placement.crossing? parallelThreshold vertex.position vertex.direction = none ↔
      isParallel placement vertex = true := by
  unfold Placement.crossing? isParallel
  simp only [decide_eq_true_eq]
  split <;> simp_all

theorem countVertex_accounted (placement : Placement Float) (ha : h.Accounted)
    (vertex : PrimaryVertex) :
    (countVertex placement h vertex).Accounted ∧
      (countVertex placement h vertex).binsX = h.binsX ∧
      (countVertex placement h vertex).binsY = h.binsY ∧
      (countVertex placement h vertex).entries + (if isParallel placement vertex then 1 else 0) =
        h.entries + 1 := by
  have hparallel := crossing?_eq_none_iff placement vertex
  unfold countVertex
  split
  · rename_i hit hcrossing
    obtain ⟨hafter, hx, hy, hentries⟩ := ha.fill hit.x hit.y
    refine ⟨hafter, hx, hy, ?_⟩
    rw [if_neg (by simp [← hparallel, hcrossing]), hentries]
  · rename_i hcrossing
    exact ⟨ha, rfl, rfl, by rw [if_pos (hparallel.mp hcrossing)]⟩

theorem countAll_accounted (placement : Placement Float) (ha : h.Accounted)
    (vertices : List PrimaryVertex) :
    (countAll placement h vertices).Accounted ∧
      (countAll placement h vertices).binsX = h.binsX ∧
      (countAll placement h vertices).binsY = h.binsY ∧
      (countAll placement h vertices).entries + vertices.countP (isParallel placement) =
        h.entries + vertices.length := by
  induction vertices generalizing h with
  | nil => exact ⟨ha, rfl, rfl, rfl⟩
  | cons vertex vertices ih =>
    obtain ⟨hafter, hx, hy, hentries⟩ := countVertex_accounted placement ha vertex
    obtain ⟨hlast, hx', hy', hall⟩ := ih hafter
    refine ⟨hlast, hx'.trans hx, hy'.trans hy, ?_⟩
    rw [List.countP_cons, List.length_cons]
    change (countAll placement (countVertex placement h vertex) vertices).entries + _ = _
    omega

theorem countAll_append (placement : Placement Float) (h : Histogram)
    (first more : List PrimaryVertex) :
    countAll placement h (first ++ more) = countAll placement (countAll placement h first) more :=
  List.foldl_append

end Stage.PlaneHistogram

end TestBeam
