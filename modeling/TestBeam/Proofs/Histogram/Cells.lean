import Mathlib.Algebra.Order.BigOperators.Group.List
import Mathlib.Algebra.Order.Group.Nat
import TestBeam.Proofs.Stage.Counting

/-!
# The cells of a histogram

A histogram can be made for every number of cells up to the limit. It keeps one count for each pair of
bins, whatever points it is given, and each point changes one count or the overflow.
-/

namespace TestBeam.Histogram

/-! ## Sizes -/

/-- The number of cells for sizes of 64 bits, if the product does not wrap and is allowed. -/
def wordCells? (binsX binsY : UInt64) : Option UInt64 :=
  if BitVec.umulOverflow binsX.toBitVec binsY.toBitVec then none
  else if 1 ≤ (binsX * binsY).toNat ∧ (binsX * binsY).toNat ≤ maxBins then some (binsX * binsY)
  else none

theorem wordCells?_eq (binsX binsY : UInt64) :
    (wordCells? binsX binsY).map UInt64.toNat =
      if 1 ≤ binsX.toNat * binsY.toNat ∧ binsX.toNat * binsY.toNat ≤ maxBins then
        some (binsX.toNat * binsY.toNat)
      else none := by
  -- The limit is far below the numbers at which a product wraps.
  unfold wordCells? BitVec.umulOverflow maxBins
  simp only [UInt64.toNat_toBitVec, UInt64.toNat_mul, decide_eq_true_eq]
  split
  case isTrue hwraps =>
    rw [if_neg (by omega)]
    rfl
  case isFalse hfits =>
    rw [Nat.mod_eq_of_lt (Nat.lt_of_not_le hfits)]
    split
    · rw [Option.map_some, UInt64.toNat_mul, Nat.mod_eq_of_lt (Nat.lt_of_not_le hfits)]
    · rfl

theorem exists_make_iff {binsX binsY : Nat} {range : Float} :
    (∃ h, make binsX binsY range = .ok h) ↔
      (1 ≤ binsX * binsY ∧ binsX * binsY ≤ maxBins) ∧ 0 < range ∧ range.isFinite = true := by
  unfold make
  simp only [Bool.or_eq_true, Bool.and_eq_true, decide_eq_true_eq]
  constructor
  · rintro ⟨h, hmake⟩
    split at hmake
    case isTrue => cases hmake
    case isFalse hcells =>
      split at hmake
      case isTrue hrange => exact ⟨by omega, hrange⟩
      case isFalse => cases hmake
  · rintro ⟨hcells, hrange⟩
    rw [if_neg (by omega), if_pos hrange]
    exact ⟨_, rfl⟩

/-! ## Addresses -/

theorem address_inj {width i j i' j' : Nat} (hi : i < width) (hi' : i' < width)
    (h : j * width + i = j' * width + i') : i = i' ∧ j = j' := by
  have hwidth : 0 < width := Nat.zero_lt_of_lt hi
  rw [Nat.mul_comm j, Nat.mul_comm j'] at h
  constructor
  · have hmod := congrArg (· % width) h
    simpa only [Nat.mul_add_mod, Nat.mod_eq_of_lt hi, Nat.mod_eq_of_lt hi'] using hmod
  · have hdiv := congrArg (· / width) h
    simpa only [Nat.mul_add_div hwidth, Nat.div_eq_of_lt hi, Nat.div_eq_of_lt hi', Nat.add_zero]
      using hdiv

variable {h : Histogram} {binsX binsY fills : Nat} {range : Float}

theorem count?_inside {i j : Nat} (hi : i < h.binsX) (hj : j < h.binsY) :
    h.count? i j = h.counts[j * h.binsX + i]? := by
  unfold count?
  rw [if_pos (by simp [hi, hj])]

theorem Accounted.isSome_count?_iff (ha : h.Accounted) {i j : Nat} :
    (h.count? i j).isSome ↔ i < h.binsX ∧ j < h.binsY := by
  constructor
  · intro hsome
    by_contra hout
    unfold count? at hsome
    rw [if_neg (by simpa using hout)] at hsome
    cases hsome
  · rintro ⟨hi, hj⟩
    rw [count?_inside hi hj, isSome_getElem?]
    exact ha.address_lt hi hj

/-! ## One point -/

/-- What one point changes. It adds one to the count of its two bins, or it lies outside of an axis and
adds one to the overflow. -/
def Counts (h : Histogram) (x y : Float) (next : Histogram) : Prop :=
  (∃ i j n, binIndex? h.range h.binsX x = some i ∧ binIndex? h.range h.binsY y = some j ∧
      i < h.binsX ∧ j < h.binsY ∧ h.count? i j = some n ∧ next.count? i j = some (n + 1) ∧
      (∀ k, k ≠ j * h.binsX + i → next.counts[k]? = h.counts[k]?) ∧ next.overflow = h.overflow) ∨
    ((binIndex? h.range h.binsX x = none ∨ binIndex? h.range h.binsY y = none) ∧
      next.counts = h.counts ∧ next.overflow = h.overflow + 1)

theorem cell?_eq_some_iff {x y : Float} {k : Nat} :
    h.cell? x y = some k ↔ ∃ i j, binIndex? h.range h.binsX x = some i ∧
      binIndex? h.range h.binsY y = some j ∧ j * h.binsX + i = k := by
  unfold cell?
  split
  case h_1 hx hy => simp [hx, hy]
  case h_2 hnot =>
    constructor
    · intro hk
      cases hk
    · rintro ⟨i, j, hx, hy, -⟩
      exact (hnot i j hx hy).elim

theorem cell?_eq_none_iff {x y : Float} :
    h.cell? x y = none ↔ binIndex? h.range h.binsX x = none ∨ binIndex? h.range h.binsY y = none := by
  unfold cell?
  split
  case h_1 hx hy => simp [hx, hy]
  case h_2 hnot =>
    cases hx : binIndex? h.range h.binsX x with
    | none => simp
    | some i =>
      cases hy : binIndex? h.range h.binsY y with
      | none => simp
      | some j => exact (hnot i j hx hy).elim

theorem Accounted.counts_fill (ha : h.Accounted) (x y : Float) : h.Counts x y (h.fill x y) := by
  unfold Histogram.fill
  split
  case h_2 hcell => exact .inr ⟨cell?_eq_none_iff.mp hcell, rfl, rfl⟩
  case h_1 k hcell =>
    obtain ⟨i, j, hx, hy, rfl⟩ := cell?_eq_some_iff.mp hcell
    have hi := binIndex?_lt ha.rows hx
    have hj := binIndex?_lt ha.columns hy
    have hk := ha.address_lt hi hj
    refine .inl ⟨i, j, h.counts[j * h.binsX + i], hx, hy, hi, hj, ?_, ?_, ?_, rfl⟩
    · rw [count?_inside hi hj, Array.getElem?_eq_getElem hk]
    · unfold count?
      rw [if_pos (by simp [hi, hj]), Array.getElem?_modify, if_pos rfl, Array.getElem?_eq_getElem hk]
      rfl
    · intro k hne
      simp [Array.getElem?_modify, hne.symm]

/-! ## Any number of points -/

/-- What stays true of a histogram while points are counted. -/
structure Sound (binsX binsY : Nat) (range : Float) (fills : Nat) (h : Histogram) : Prop
    extends h.Accounted where
  binsX_eq : h.binsX = binsX
  binsY_eq : h.binsY = binsY
  range_eq : h.range = range
  bounded : h.counts.size ≤ maxBins
  entries_eq : h.entries = fills

def fillAll (h : Histogram) (points : List (Float × Float)) : Histogram :=
  points.foldl (fun h point => h.fill point.1 point.2) h

theorem range_make (hmake : make binsX binsY range = .ok h) : h.range = range := by
  unfold make at hmake
  simp only at hmake
  split at hmake
  · cases hmake
  · split at hmake
    · obtain rfl := Except.ok.inj hmake
      rfl
    · cases hmake

theorem range_fill (h : Histogram) (x y : Float) : (h.fill x y).range = h.range := by
  unfold Histogram.fill
  split <;> rfl

theorem sound_make (hmake : make binsX binsY range = .ok h) : h.Sound binsX binsY range 0 := by
  have ⟨ha, hx, hy, hentries⟩ := accounted_make hmake
  have hbounds := (exists_make_iff.mp ⟨h, hmake⟩).1
  refine ⟨ha, hx, hy, range_make hmake, ?_, hentries⟩
  rw [ha.size, hx, hy]
  exact hbounds.2

theorem Sound.fill (hs : h.Sound binsX binsY range fills) (x y : Float) :
    (h.fill x y).Sound binsX binsY range (fills + 1) := by
  have ⟨ha, hx, hy, hentries⟩ := hs.toAccounted.fill x y
  refine ⟨ha, hx.trans hs.binsX_eq, hy.trans hs.binsY_eq, (range_fill h x y).trans hs.range_eq, ?_, ?_⟩
  · rw [ha.size, hx, hy, ← hs.size]
    exact hs.bounded
  · rw [hentries, hs.entries_eq]

theorem Sound.fillAll (hs : h.Sound binsX binsY range fills) (points : List (Float × Float)) :
    (h.fillAll points).Sound binsX binsY range (fills + points.length) := by
  induction points generalizing h fills with
  | nil => exact hs
  | cons point points ih =>
    rw [List.length_cons, Nat.add_comm points.length, ← Nat.add_assoc]
    exact ih (hs.fill point.1 point.2)

theorem Sound.count_le (hs : h.Sound binsX binsY range fills) :
    h.overflow ≤ fills ∧ ∀ n ∈ h.counts, n ≤ fills := by
  have htotal := hs.total
  rw [hs.entries_eq] at htotal
  refine ⟨by omega, fun n hn => ?_⟩
  have hle : n ≤ h.counts.sum := by
    rw [← Array.sum_toList]
    exact List.le_sum_of_mem (Array.mem_toList_iff.mpr hn)
  omega

/-- A histogram can be made exactly for the allowed sizes. Behind any points it has its sizes, one count
for every pair of bins, and every point in one counter, and the next point goes to one counter. -/
theorem make_fillAll_sound (binsX binsY : Nat) (range : Float) :
    ((∃ h, make binsX binsY range = .ok h) ↔
        (1 ≤ binsX * binsY ∧ binsX * binsY ≤ 2 ^ 24) ∧ 0 < range ∧ range.isFinite = true) ∧
      (∀ x y : UInt64, x.toNat = binsX → y.toNat = binsY →
        (wordCells? x y).map UInt64.toNat =
          if 1 ≤ binsX * binsY ∧ binsX * binsY ≤ 2 ^ 24 then some (binsX * binsY) else none) ∧
      ∀ h, make binsX binsY range = .ok h → ∀ points,
        (h.fillAll points).Sound binsX binsY range points.length ∧
          ((h.fillAll points).overflow ≤ points.length ∧
            ∀ n ∈ (h.fillAll points).counts, n ≤ points.length) ∧
          (∀ x y k, (h.fillAll points).cell? x y = some k → k < (h.fillAll points).counts.size) ∧
          (∀ x y, (h.fillAll points).Counts x y ((h.fillAll points).fill x y)) ∧
          (∀ i j, ((h.fillAll points).count? i j).isSome ↔ i < binsX ∧ j < binsY) ∧
          (∀ i j, i < binsX → j < binsY →
            (h.fillAll points).count? i j = (h.fillAll points).counts[j * binsX + i]?) ∧
          ∀ i j i' j', i < binsX → i' < binsX → j * binsX + i = j' * binsX + i' → i = i' ∧ j = j' := by
  refine ⟨exists_make_iff, ?_, ?_⟩
  · rintro x y rfl rfl
    exact wordCells?_eq x y
  · intro h hmake points
    have hs := (sound_make hmake).fillAll points
    rw [Nat.zero_add] at hs
    have ha := hs.toAccounted
    refine ⟨hs, hs.count_le, fun x y k => ha.cell?_lt, ha.counts_fill, ?_, ?_, ?_⟩
    · intro i j
      rw [ha.isSome_count?_iff, hs.binsX_eq, hs.binsY_eq]
    · intro i j hi hj
      rw [← hs.binsX_eq] at hi ⊢
      exact count?_inside hi (hs.binsY_eq ▸ hj)
    · intro i j i' j' hi hi' heq
      exact address_inj hi hi' heq

theorem entries_four_by_two :
    ∃ h, make 4 2 8 = .ok h ∧ (h.fillAll [(-3.9, -3.9), (3.9, 3.9), (0, 0), (4, 0)]).entries = 4 := by
  obtain ⟨hmake, -, hsound⟩ := make_fillAll_sound 4 2 8
  obtain ⟨h, hok⟩ := hmake.mpr ⟨by decide, by decide +kernel⟩
  exact ⟨h, hok, (hsound h hok _).1.entries_eq⟩

end TestBeam.Histogram
