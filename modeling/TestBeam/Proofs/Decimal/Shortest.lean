import TestBeam.Decimal.Shortest
import TestBeam.Proofs.Decimal.Positional
import TestBeam.Proofs.Decimal.Rounding

/-!
# Shortest digits are near enough

The search stops at a decimal inside the rounding interval. Seventeen digits are always near enough.
-/

namespace TestBeam.Decimal

variable {v : Magnitude} {r : Ratio} {tie : Tie}

/-! ## Quotients -/

def Ratio.value (r : Ratio) : ℚ :=
  r.numerator / r.denominator

theorem ratio_value (v : Magnitude) : v.ratio.value = v.mantissa * 2 ^ v.exponent := by
  obtain ⟨m, e⟩ := v
  have hne : (2 : ℚ) ^ (-e).toNat ≠ 0 := by positivity
  unfold Ratio.value Magnitude.ratio
  simp only [Nat.pow_eq]
  push_cast
  rw [div_eq_iff hne, mul_assoc, zpow_mul_pow_neg (by norm_num)]

theorem ratio_denominator_pos (v : Magnitude) : 0 < v.ratio.denominator :=
  Nat.pow_pos (by decide)

theorem shift_denominator_pos (h : 0 < r.denominator) (e : ℤ) : 0 < (r.shift e).denominator :=
  Nat.mul_pos h (Nat.pow_pos (by decide))

theorem shift_value (h : 0 < r.denominator) (e : ℤ) : (r.shift e).value = r.value * 10 ^ e := by
  have hd : (r.denominator : ℚ) ≠ 0 := by exact_mod_cast h.ne'
  have hne : (10 : ℚ) ^ (-e).toNat ≠ 0 := by positivity
  unfold Ratio.value Ratio.shift
  simp only [Nat.pow_eq]
  push_cast
  rw [div_eq_iff (mul_ne_zero hd hne), ← zpow_mul_pow_neg (by norm_num)]
  field_simp

theorem round_cases (r : Ratio) (tie : Tie) :
    (2 * (r.numerator % r.denominator) ≤ r.denominator ∧
        r.round tie = r.numerator / r.denominator) ∨
      (r.denominator ≤ 2 * (r.numerator % r.denominator) ∧
        r.round tie = r.numerator / r.denominator + 1) := by
  cases tie <;> grind [Ratio.round]

theorem round_near (h : 0 < r.denominator) (tie : Tie) :
    r.value - 1 / 2 ≤ r.round tie ∧ (r.round tie : ℚ) ≤ r.value + 1 / 2 := by
  have hd : (0 : ℚ) < r.denominator := by exact_mod_cast h
  have hdivision : (r.numerator : ℚ) =
      r.denominator * (r.numerator / r.denominator : ℕ) + (r.numerator % r.denominator : ℕ) := by
    exact_mod_cast (Nat.div_add_mod _ _).symm
  have hmod : ((r.numerator % r.denominator : ℕ) : ℚ) ≤ r.denominator := by
    exact_mod_cast (Nat.mod_lt _ h).le
  have hvalue : r.value = (r.numerator / r.denominator : ℕ) +
      (r.numerator % r.denominator : ℕ) / (r.denominator : ℚ) := by
    unfold Ratio.value
    rw [hdivision]
    field_simp
  rcases round_cases r tie with ⟨hhalf, hround⟩ | ⟨hhalf, hround⟩
  · have htwice : (2 : ℚ) * (r.numerator % r.denominator : ℕ) ≤ r.denominator := by
      exact_mod_cast hhalf
    have hle : ((r.numerator % r.denominator : ℕ) : ℚ) / r.denominator ≤ 1 / 2 := by
      rw [div_le_iff₀ hd]
      linarith
    have hge : (0 : ℚ) ≤ (r.numerator % r.denominator : ℕ) / r.denominator := by positivity
    rw [hround, hvalue]
    constructor <;> linarith
  · have htwice : (r.denominator : ℚ) ≤ 2 * (r.numerator % r.denominator : ℕ) := by
      exact_mod_cast hhalf
    have hge : 1 / 2 ≤ ((r.numerator % r.denominator : ℕ) : ℚ) / r.denominator := by
      rw [le_div_iff₀ hd]
      linarith
    have hle : ((r.numerator % r.denominator : ℕ) : ℚ) / r.denominator ≤ 1 := by
      rw [div_le_one hd]
      exact hmod
    rw [hround, hvalue]
    push_cast
    constructor <;> linarith

theorem pow_leadingExponent_le (h : 0 < r.denominator) (hpos : 0 < r.numerator) :
    (10 : ℚ) ^ r.leadingExponent ≤ r.value := by
  have hd : (0 : ℚ) < r.denominator := by exact_mod_cast h
  unfold Ratio.value
  rw [le_div_iff₀ hd, Ratio.leadingExponent]
  split
  · rename_i hge
    have hwhole : 0 < r.numerator / r.denominator := Nat.div_pos hge h
    have hdigits := pow_length_digits_le hwhole
    have hlength := List.length_pos_iff.mpr (digits_ne_nil (r.numerator / r.denominator))
    have hexp : ((digits (r.numerator / r.denominator)).length : ℤ) - 1 =
        ((digits (r.numerator / r.denominator)).length - 1 : ℕ) := by omega
    rw [hexp, zpow_natCast]
    exact_mod_cast (Nat.mul_le_mul_right _ hdigits).trans (Nat.div_mul_le_self _ _)
  · rename_i hlt
    have hdigits := lt_pow_length_digits ((r.denominator - 1) / r.numerator)
    rw [Nat.div_lt_iff_lt_mul hpos] at hdigits
    have hle : r.denominator ≤
        10 ^ (digits ((r.denominator - 1) / r.numerator)).length * r.numerator := by omega
    rw [zpow_neg, zpow_natCast, inv_mul_le_iff₀ (by positivity)]
    exact_mod_cast hle

/-! ## The search -/

theorem exists_low (v : Magnitude) : ∃ b : ℕ, b ≤ 2 ∧ v.below = b / 4 ∧
    v.interval.low = Magnitude.ratio ⟨4 * v.mantissa - b, v.exponent - 2⟩ := by
  unfold Magnitude.below Magnitude.interval
  by_cases h : v.mantissa = 2 ^ 52 ∧ -1074 < v.exponent
  · refine ⟨1, by decide, ?_, ?_⟩
    · rw [if_pos h]
      norm_num
    · rw [if_pos (by simpa using h)]
  · refine ⟨2, by decide, ?_, ?_⟩
    · rw [if_neg h]
      norm_num
    · rw [if_neg (by simpa using h)]

theorem quarters_value (v : Magnitude) (n : ℕ) (shift : ℤ) :
    ((Magnitude.ratio ⟨n, v.exponent - 2⟩).shift shift).value =
      n / 4 * 2 ^ v.exponent * 10 ^ shift := by
  have hfour : (2 : ℚ) ^ (2 : ℤ) = 4 := by norm_num
  rw [shift_value (ratio_denominator_pos _), ratio_value, zpow_sub₀ (by norm_num), hfour]
  ring

section Grid

variable {c : ℚ} {e shift : ℤ} (hr : 0 < r.denominator) (hvalue : r.value = c * 2 ^ e * 10 ^ shift)
include hr hvalue

theorem numerator_le_iff (n : ℕ) :
    r.numerator ≤ n * r.denominator ↔ c ≤ n * 10 ^ (-shift) / 2 ^ e := by
  have hd : (0 : ℚ) < r.denominator := by exact_mod_cast hr
  rw [le_div_iff₀ (by positivity), zpow_neg, ← div_eq_mul_inv, le_div_iff₀ (by positivity), ← hvalue,
    Ratio.value, div_le_iff₀ hd]
  exact_mod_cast Iff.rfl

theorem le_numerator_iff (n : ℕ) :
    n * r.denominator ≤ r.numerator ↔ n * 10 ^ (-shift) / 2 ^ e ≤ c := by
  have hd : (0 : ℚ) < r.denominator := by exact_mod_cast hr
  rw [div_le_iff₀ (by positivity), zpow_neg, ← div_eq_mul_inv, div_le_iff₀ (by positivity), ← hvalue,
    Ratio.value, le_div_iff₀ hd]
  exact_mod_cast Iff.rfl

end Grid

theorem rounds_of_contains (hpos : 0 < v.mantissa) {shift : ℤ} {n : ℕ}
    (h : v.interval.contains shift n = true) : v.Rounds (n * 10 ^ (-shift)) := by
  have hlow : (v.interval.low.shift shift).value =
      (v.mantissa - v.below) * 2 ^ v.exponent * 10 ^ shift := by
    obtain ⟨b, hb, hbelow, hlow⟩ := exists_low v
    rw [hlow, quarters_value, hbelow, Nat.cast_sub (by omega)]
    push_cast
    ring
  have hhigh : (v.interval.high.shift shift).value =
      (v.mantissa + 1 / 2) * 2 ^ v.exponent * 10 ^ shift := by
    unfold Magnitude.interval
    simp only [quarters_value]
    push_cast
    ring
  have hlowPos : 0 < (v.interval.low.shift shift).denominator :=
    shift_denominator_pos (ratio_denominator_pos _) shift
  have hsame : (v.interval.low.shift shift).denominator = (v.interval.high.shift shift).denominator :=
    rfl
  have hlowLe := numerator_le_iff hlowPos hlow n
  have hleLow := le_numerator_iff hlowPos hlow n
  have hhighLe := numerator_le_iff (hsame ▸ hlowPos) hhigh n
  have hleHigh := le_numerator_iff (hsame ▸ hlowPos) hhigh n
  simp only [Interval.contains] at h
  rw [hsame] at h hlowLe hleLow
  -- The ends belong to the interval of an even mantissa only.
  split at h
  · rename_i hclosed
    have heven : v.mantissa % 2 = 0 := by simpa [Magnitude.interval] using hclosed
    simp only [Bool.and_eq_true, decide_eq_true_eq] at h
    exact ⟨hlowLe.mp h.1, hleHigh.mp h.2, fun hodd => by omega⟩
  · simp only [Bool.and_eq_true, decide_eq_true_eq] at h
    have hlt := not_le.mp (mt hleLow.mpr (not_le.mpr h.1))
    have hgt := not_le.mp (mt hhighLe.mpr (not_le.mpr h.2))
    exact ⟨hlt.le, hgt.le, fun _ => ⟨hlt, hgt⟩⟩

theorem rounds_of_nearest? (hpos : 0 < v.mantissa) {shift : ℤ} {n : ℕ}
    (h : v.interval.nearest? shift tie = some n) : v.Rounds (n * 10 ^ (-shift)) := by
  simp only [Interval.nearest?] at h
  split at h
  · exact absurd h (by simp)
  · rename_i hfloor _
    obtain rfl := Option.some.inj h
    exact rounds_of_contains hpos hfloor
  · rename_i _ hceil
    obtain rfl := Option.some.inj h
    exact rounds_of_contains hpos hceil
  · rename_i hfloor hceil
    obtain rfl := Option.some.inj h
    rcases round_cases (v.interval.middle.shift shift) tie with ⟨-, hround⟩ | ⟨-, hround⟩
    · rw [hround]
      exact rounds_of_contains hpos hfloor
    · rw [hround]
      exact rounds_of_contains hpos hceil

/-- One unit of the seventeenth digit, measured in units of the last place. -/
def lastDigit (v : Magnitude) (leading : ℤ) : ℚ :=
  10 ^ (leading - 16) / 2 ^ v.exponent

theorem lastDigit_lt (hv : v.Canonical) {leading : ℤ}
    (hleading : (10 : ℚ) ^ leading ≤ v.mantissa * 2 ^ v.exponent) :
    lastDigit v leading < 1 ∧ lastDigit v leading / 2 < v.below := by
  have hten : (10 : ℚ) ^ (16 : ℤ) = 10 ^ 16 := zpow_natCast 10 16
  have hle : lastDigit v leading * 10 ^ 16 ≤ v.mantissa := by
    unfold lastDigit
    rw [zpow_sub₀ (by norm_num), hten, div_div, div_mul_eq_mul_div, div_le_iff₀ (by positivity)]
    have hmul := mul_le_mul_of_nonneg_right hleading (by positivity : (0 : ℚ) ≤ 10 ^ 16)
    linarith
  have hmantissa : (v.mantissa : ℚ) + 1 ≤ 2 ^ 53 := by exact_mod_cast hv.mantissa_lt
  refine ⟨by linarith, ?_⟩
  unfold Magnitude.below
  split <;> rename_i hmin
  · have hmin : (v.mantissa : ℚ) = 2 ^ 52 := by exact_mod_cast hmin.1
    linarith
  · linarith

theorem rounds_round (hv : v.Canonical) {leading : ℤ}
    (hleading : (10 : ℚ) ^ leading ≤ v.mantissa * 2 ^ v.exponent) :
    v.Rounds (((v.interval.middle.shift (16 - leading)).round tie : ℕ) * 10 ^ (leading - 16)) := by
  -- The decimal is off by half a unit of its last digit, which is less than half the way to a neighbour.
  obtain ⟨hone, hbelow⟩ := lastDigit_lt hv hleading
  have hpos : 0 < lastDigit v leading := by
    unfold lastDigit
    positivity
  have hmiddle : (v.interval.middle.shift (16 - leading)).value * lastDigit v leading =
      v.mantissa := by
    unfold lastDigit Magnitude.interval
    rw [quarters_value, ← neg_sub leading 16, zpow_neg]
    push_cast
    field_simp
  obtain ⟨hlow, hhigh⟩ := round_near (shift_denominator_pos (ratio_denominator_pos _) (16 - leading))
    (r := v.interval.middle.shift (16 - leading)) tie
  have hlow := mul_le_mul_of_nonneg_right hlow hpos.le
  have hhigh := mul_le_mul_of_nonneg_right hhigh hpos.le
  generalize (Ratio.round _ tie : ℕ) = n at hlow hhigh ⊢
  have hvalue : (n : ℚ) * 10 ^ (leading - 16) / 2 ^ v.exponent = n * lastDigit v leading := by
    unfold lastDigit
    ring
  have hlt : v.mantissa - v.below < n * 10 ^ (leading - 16) / 2 ^ v.exponent := by linarith
  have hgt : n * 10 ^ (leading - 16) / 2 ^ v.exponent < (v.mantissa : ℚ) + 1 / 2 := by linarith
  exact ⟨hlt.le, hgt.le, fun _ => ⟨hlt, hgt⟩⟩

theorem rounds_search (hv : v.Canonical) (hpos : 0 < v.mantissa) {leading : ℤ}
    (hleading : (10 : ℚ) ^ leading ≤ v.mantissa * 2 ^ v.exponent) {more count : ℕ}
    (hcount : more + count = 16) : v.Rounds (v.interval.search tie leading more count).value := by
  induction more generalizing count with
  | zero =>
    obtain rfl : count = 16 := by omega
    exact rounds_round hv hleading
  | succ more ih =>
    unfold Interval.search
    split
    · rename_i n hn
      have hrounds := rounds_of_nearest? hpos hn
      rw [neg_sub] at hrounds
      exact hrounds
    · exact ih (by omega)

theorem reduce_value (s : Scaled) : s.reduce.value = s.value := by
  unfold Scaled.reduce
  split
  · rename_i hzero
    have hcoefficient : (s.coefficient : ℚ) = 10 * (s.coefficient / 10 : ℕ) := by
      exact_mod_cast (Nat.mul_div_cancel' (Nat.dvd_of_mod_eq_zero hzero)).symm
    unfold Scaled.value
    rw [hcoefficient, zpow_add_one₀ (by norm_num)]
    ring
  · rfl

theorem rounds_shortest (hv : v.Canonical) (hpos : 0 < v.mantissa) (tie : Tie) :
    v.Rounds (v.shortest tie).value := by
  have hratio := pow_leadingExponent_le (ratio_denominator_pos v)
    (Nat.mul_pos hpos (Nat.pow_pos (by decide)))
  rw [ratio_value] at hratio
  unfold Magnitude.shortest
  rw [if_neg hpos.ne', reduce_value]
  exact rounds_search hv hpos hratio rfl

theorem shortest_plain (hv : v.Canonical) (tie : Tie) : (v.shortest tie).plain := by
  rcases Nat.eq_zero_or_pos v.mantissa with hzero | hpos
  · right
    unfold Magnitude.shortest
    rw [if_pos hzero]
  · left
    apply Nat.pos_of_ne_zero
    intro hcoefficient
    have hlow := (rounds_shortest hv hpos tie).low
    have hbelow := v.below_le
    have hone : (1 : ℚ) ≤ v.mantissa := by exact_mod_cast hpos
    unfold Scaled.value at hlow
    simp only [hcoefficient, Nat.cast_zero, zero_mul, zero_div] at hlow
    linarith

end TestBeam.Decimal
