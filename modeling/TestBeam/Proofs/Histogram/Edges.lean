import Mathlib.Algebra.Order.Floor.Semiring
import Mathlib.Data.Rat.Floor
import Mathlib.Tactic.Linarith
import TestBeam.Histogram

/-!
# The edges of bins

Read over an ordered field, the bins of an axis cut the interval `[-range / 2, range / 2)` into parts of
equal width. Each part has its lower edge and not its upper one.
-/

namespace TestBeam

/-! ## Edges -/

section Edges

variable {α : Type} [Field α]

/-- The lower edge of bin `i`, which is the upper edge of the bin in front of it. -/
def binEdge (range : α) (bins i : Nat) : α :=
  -range / 2 + i * range / bins

theorem binEdge_zero (range : α) (bins : Nat) : binEdge range bins 0 = -range / 2 := by
  simp [binEdge]

variable [LinearOrder α] [IsStrictOrderedRing α] {range : α} {bins : Nat}

theorem binEdge_self (hbins : 0 < bins) : binEdge range bins bins = range / 2 := by
  have hne : (bins : α) ≠ 0 := Nat.cast_ne_zero.mpr hbins.ne'
  unfold binEdge
  rw [mul_div_cancel_left₀ _ hne]
  ring

theorem binEdge_mono (hrange : 0 < range) {i j : Nat} (h : i ≤ j) :
    binEdge range bins i ≤ binEdge range bins j := by
  unfold binEdge
  gcongr

theorem binEdge_lt_succ (hrange : 0 < range) (hbins : 0 < bins) (i : Nat) :
    binEdge range bins i < binEdge range bins (i + 1) := by
  have hpos : (0 : α) < bins := Nat.cast_pos.mpr hbins
  unfold binEdge
  gcongr
  exact Nat.lt_succ_self i

end Edges

/-! ## Places on the axis -/

section Places

variable {α : Type} [Field α] [LinearOrder α]

/-- The place of a value on the axis, which goes from zero to one. -/
def axisFraction (range value : α) : α :=
  (value + range / 2) / range

def IsInside (range value : α) : Prop :=
  0 ≤ axisFraction range value ∧ axisFraction range value < 1

instance (range value : α) : Decidable (IsInside range value) :=
  inferInstanceAs (Decidable (_ ∧ _))

variable [IsStrictOrderedRing α] {range value : α} {bins i : Nat}

theorem isInside_iff (hrange : 0 < range) :
    IsInside range value ↔ -range / 2 ≤ value ∧ value < range / 2 := by
  unfold IsInside axisFraction
  rw [le_div_iff₀ hrange, div_lt_one hrange, zero_mul]
  constructor
  · rintro ⟨hlow, hhigh⟩
    constructor <;> linarith
  · rintro ⟨hlow, hhigh⟩
    constructor <;> linarith

theorem isInside_of_edges (hrange : 0 < range) (hi : i < bins)
    (hlow : binEdge range bins i ≤ value) (hhigh : value < binEdge range bins (i + 1)) :
    IsInside range value := by
  apply (isInside_iff hrange).mpr
  constructor
  · calc -range / 2 = binEdge range bins 0 := (binEdge_zero range bins).symm
      _ ≤ binEdge range bins i := binEdge_mono hrange (Nat.zero_le i)
      _ ≤ value := hlow
  · calc value < binEdge range bins (i + 1) := hhigh
      _ ≤ binEdge range bins bins := binEdge_mono hrange hi
      _ = range / 2 := binEdge_self (Nat.zero_lt_of_lt hi)

theorem le_axisFraction_mul_iff (hrange : 0 < range) (hbins : 0 < bins) :
    (i : α) ≤ axisFraction range value * bins ↔ binEdge range bins i ≤ value := by
  have hpos : (0 : α) < bins := Nat.cast_pos.mpr hbins
  have hscaled : axisFraction range value * bins = (value + range / 2) * bins / range := by
    unfold axisFraction
    ring
  have hedge : binEdge range bins i = i * range / bins - range / 2 := by
    unfold binEdge
    ring
  rw [hscaled, hedge, le_div_iff₀ hrange, sub_le_iff_le_add, div_le_iff₀ hpos]

end Places

/-! ## Bins -/

variable {α : Type} [Field α] [LinearOrder α] [IsStrictOrderedRing α] [FloorSemiring α]

/-- Over an ordered field, the whole part is the floor. -/
instance floorWholePart : WholePart α := ⟨Nat.floor⟩

/-- The bin of a value without the bound that keeps it below the number of bins. -/
def unboundedIndex? (range : α) (bins : Nat) (value : α) : Option Nat :=
  if IsInside range value then some ⌊axisFraction range value * bins⌋₊ else none

variable {range value : α} {bins i : Nat}

theorem floor_lt_bins (hbins : 0 < bins) (hinside : IsInside range value) :
    ⌊axisFraction range value * bins⌋₊ < bins := by
  rw [Nat.floor_lt' hbins.ne']
  exact mul_lt_of_lt_one_left (Nat.cast_pos.mpr hbins) hinside.2

theorem floor_eq_iff_edges (hrange : 0 < range) (hbins : 0 < bins)
    (hinside : IsInside range value) :
    ⌊axisFraction range value * bins⌋₊ = i ↔
      binEdge range bins i ≤ value ∧ value < binEdge range bins (i + 1) := by
  have hnonneg : 0 ≤ axisFraction range value * bins :=
    mul_nonneg hinside.1 (Nat.cast_nonneg bins)
  rw [Nat.floor_eq_iff hnonneg, le_axisFraction_mul_iff hrange hbins, ← Nat.cast_add_one, ← not_le,
    le_axisFraction_mul_iff hrange hbins, not_le]

theorem binIndex?_eq_unbounded (hbins : 0 < bins) (range value : α) :
    binIndex? range bins value = unboundedIndex? range bins value := by
  unfold binIndex? unboundedIndex?
  apply if_ctx_congr Iff.rfl ?_ (fun _ => rfl)
  intro hinside
  have hlt : ⌊axisFraction range value * bins⌋₊ < bins := floor_lt_bins hbins hinside
  exact congrArg some (Nat.min_eq_left (Nat.le_sub_one_of_lt hlt))

theorem binIndex?_eq_none_iff_edges (hrange : 0 < range) (hbins : 0 < bins) :
    binIndex? range bins value = none ↔ value < -range / 2 ∨ range / 2 ≤ value := by
  have houtside : unboundedIndex? range bins value = none ↔ ¬ IsInside range value := by
    unfold unboundedIndex?
    simp
  rw [binIndex?_eq_unbounded hbins, houtside, isInside_iff hrange, not_and_or, not_le, not_lt]

theorem binIndex?_eq_some_iff_edges (hrange : 0 < range) (hbins : 0 < bins) :
    binIndex? range bins value = some i ↔
      i < bins ∧ binEdge range bins i ≤ value ∧ value < binEdge range bins (i + 1) := by
  rw [binIndex?_eq_unbounded hbins]
  unfold unboundedIndex?
  constructor
  · intro h
    split at h
    case isTrue hinside =>
      obtain rfl := Option.some.inj h
      exact ⟨floor_lt_bins hbins hinside, (floor_eq_iff_edges hrange hbins hinside).mp rfl⟩
    case isFalse => cases h
  · rintro ⟨hi, hlow, hhigh⟩
    have hinside := isInside_of_edges hrange hi hlow hhigh
    rw [if_pos hinside, (floor_eq_iff_edges hrange hbins hinside).mpr ⟨hlow, hhigh⟩]

theorem existsUnique_edges_iff (hrange : 0 < range) (hbins : 0 < bins) :
    (∃! i, i < bins ∧ binEdge range bins i ≤ value ∧ value < binEdge range bins (i + 1)) ↔
      -range / 2 ≤ value ∧ value < range / 2 := by
  rw [← isInside_iff hrange]
  constructor
  · rintro ⟨i, ⟨hi, hlow, hhigh⟩, -⟩
    exact isInside_of_edges hrange hi hlow hhigh
  · intro hinside
    obtain ⟨i, hi⟩ : ∃ i, binIndex? range bins value = some i := by
      rw [binIndex?_eq_unbounded hbins]
      exact ⟨_, if_pos hinside⟩
    refine ⟨i, (binIndex?_eq_some_iff_edges hrange hbins).mp hi, fun j hj => ?_⟩
    apply Option.some.inj
    rw [← (binIndex?_eq_some_iff_edges hrange hbins).mpr hj, hi]

theorem binIndex?_mono {v w : α} {j : Nat} (hrange : 0 < range) (hbins : 0 < bins) (hle : v ≤ w)
    (hv : binIndex? range bins v = some i) (hw : binIndex? range bins w = some j) : i ≤ j := by
  obtain ⟨-, hlow, -⟩ := (binIndex?_eq_some_iff_edges hrange hbins).mp hv
  obtain ⟨-, -, hhigh⟩ := (binIndex?_eq_some_iff_edges hrange hbins).mp hw
  by_contra hlt
  have hedges : binEdge range bins (j + 1) ≤ binEdge range bins i := binEdge_mono hrange (by omega)
  linarith

theorem binIndex?_binEdge (hrange : 0 < range) (hi : i < bins) :
    binIndex? range bins (binEdge range bins i) = some i := by
  have hbins : 0 < bins := Nat.zero_lt_of_lt hi
  apply (binIndex?_eq_some_iff_edges hrange hbins).mpr
  exact ⟨hi, le_rfl, binEdge_lt_succ hrange hbins i⟩

/-- The bins cut the axis into parts. Each value of the axis is in one part and each part has values,
bins follow the order of the values, and the bound on the index never matters. -/
theorem binIndex?_partitions (range : α) (bins : Nat) (hrange : 0 < range) (hbins : 1 ≤ bins) :
    (∀ v, binIndex? range bins v = none ↔ v < -range / 2 ∨ range / 2 ≤ v) ∧
      (∀ v i, binIndex? range bins v = some i ↔
        i < bins ∧ binEdge range bins i ≤ v ∧ v < binEdge range bins (i + 1)) ∧
      (∀ v, (∃! i, i < bins ∧ binEdge range bins i ≤ v ∧ v < binEdge range bins (i + 1)) ↔
        -range / 2 ≤ v ∧ v < range / 2) ∧
      (∀ v w i j, v ≤ w → binIndex? range bins v = some i → binIndex? range bins w = some j → i ≤ j) ∧
      (∀ i, i < bins → ∃ v, binIndex? range bins v = some i) ∧
      ∀ v, binIndex? range bins v = unboundedIndex? range bins v := by
  refine ⟨?_, ?_, ?_, ?_, ?_, ?_⟩
  · intro v
    exact binIndex?_eq_none_iff_edges hrange hbins
  · intro v i
    exact binIndex?_eq_some_iff_edges hrange hbins
  · intro v
    exact existsUnique_edges_iff hrange hbins
  · intro v w i j hle hv hw
    exact binIndex?_mono hrange hbins hle hv hw
  · intro i hi
    exact ⟨binEdge range bins i, binIndex?_binEdge hrange hi⟩
  · intro v
    exact binIndex?_eq_unbounded hbins range v

theorem binIndex?_zero_of_four : (0 : ℚ) < 8 ∧ 1 ≤ 4 ∧ binIndex? (8 : ℚ) 4 0 = some 2 := by
  have hrange : (0 : ℚ) < 8 := by norm_num
  obtain ⟨-, hsome, -⟩ := binIndex?_partitions (8 : ℚ) 4 hrange (by decide)
  refine ⟨hrange, by decide, (hsome 0 2).mpr ⟨by decide, ?_, ?_⟩⟩
  · norm_num [binEdge]
  · norm_num [binEdge]

end TestBeam
