import Mathlib
import TestBeam.Decimal.Binary64

/-!
# Rounding to a double

A number that lies nearer to a double than to its neighbours is rounded to it. Half-way between two
doubles the one with the even mantissa is taken.
-/

namespace TestBeam.Decimal

open Float.Model Float.Model.UnpackedFloat

/-! ## Residual bits -/

/-- What an accuracy says of the part of a number behind its mantissa. -/
def Measures : Accuracy → ℚ → Prop
  | .exact, x => x = 0
  | .inexact .lt, x => 0 < x ∧ x < 1 / 2
  | .inexact .eq, x => x = 1 / 2
  | .inexact .gt, x => 1 / 2 < x ∧ x < 1

def Stands (em : ExtendedMantissa) (x : ℚ) : Prop :=
  Measures em.accuracy (x - em.mantissa)

theorem Measures.bounds {a : Accuracy} {x : ℚ} (h : Measures a x) : 0 ≤ x ∧ x < 1 := by
  cases a with
  | exact =>
    have hx : x = 0 := h
    constructor <;> linarith
  | inexact o =>
    cases o with
    | lt => exact ⟨h.1.le, by linarith [h.2]⟩
    | eq =>
      have hx : x = 1 / 2 := h
      constructor <;> linarith
    | gt => exact ⟨by linarith [h.1], h.2⟩

theorem stands_ofMantissaAndAccuracy {a : Accuracy} {x : ℚ} {m : ℕ} (h : Measures a (x - m)) :
    Stands (.ofMantissaAndAccuracy m a) x := by
  cases a with
  | exact => exact h
  | inexact o => cases o <;> exact h

theorem Stands.shiftRightOne {em : ExtendedMantissa} {x : ℚ} (h : Stands em x) :
    Stands em.shiftRightOne (x / 2) := by
  obtain ⟨m, round, sticky⟩ := em
  have hm : (m : ℚ) = 2 * (m / 2 : ℕ) + (m % 2 : ℕ) := by
    exact_mod_cast (Nat.div_add_mod m 2).symm
  rcases Nat.mod_two_eq_zero_or_one m with hmod | hmod
  all_goals
    rw [hmod] at hm
    push_cast at hm
    cases round <;> cases sticky
    all_goals
      simp [Stands, Measures, ExtendedMantissa.accuracy, ExtendedMantissa.shiftRightOne, hmod]
        at h ⊢
      first
        | linarith
        | constructor <;> linarith

theorem Stands.shiftRight {em : ExtendedMantissa} {x : ℚ} (h : Stands em x) (n : ℕ) :
    Stands (em >>> n) (x / 2 ^ n) := by
  change Stands (n.repeat ExtendedMantissa.shiftRightOne em) _
  induction n with
  | zero => simpa [Nat.repeat] using h
  | succ n ih =>
    rw [pow_succ, ← div_div]
    exact ih.shiftRightOne

theorem Stands.roundedMantissa {em : ExtendedMantissa} {x : ℚ} (h : Stands em x) {n : ℕ}
    (hlow : (n : ℚ) - 1 / 2 ≤ x) (hhigh : x ≤ n + 1 / 2)
    (hodd : n % 2 = 1 → (n : ℚ) - 1 / 2 < x ∧ x < n + 1 / 2) : em.roundedMantissa = n := by
  obtain ⟨m, round, sticky⟩ := em
  have hbounds := h.bounds
  have hle : m ≤ n := by
    have : (m : ℚ) < n + 1 := by linarith
    exact Nat.le_of_lt_succ (by exact_mod_cast this)
  have hge : n ≤ m + 1 := by
    have : (n : ℚ) < m + 2 := by linarith
    exact Nat.le_of_lt_succ (by exact_mod_cast this)
  have hup (hx : (m : ℚ) + 1 / 2 < x) : n = m + 1 := by
    have : (m : ℚ) < n := by linarith
    have : m < n := by exact_mod_cast this
    omega
  have hdown (hx : x < (m : ℚ) + 1 / 2) : n = m := by
    have : (n : ℚ) < m + 1 := by linarith
    have : n < m + 1 := by exact_mod_cast this
    omega
  cases round <;> cases sticky
  · have hx : x - m = 0 := h
    exact (hdown (by linarith)).symm
  · have hx : 0 < x - m ∧ x - m < 1 / 2 := h
    exact (hdown (by linarith)).symm
  · have hx : x - m = 1 / 2 := h
    change m + m % 2 = n
    rcases Nat.mod_two_eq_zero_or_one n with heven | hn
    · omega
    -- An odd number has no half-way point in its interval.
    · have hstrict := hodd hn
      have hlt : (n : ℚ) < m + 1 := by linarith
      have hgt : (m : ℚ) < n := by linarith
      have : n < m + 1 := by exact_mod_cast hlt
      have : m < n := by exact_mod_cast hgt
      omega
  · have hx : 1 / 2 < x - m ∧ x - m < 1 := h
    exact (hup (by linarith)).symm

/-! ## Target exponents -/

theorem targetExponent_eq (m : ℕ) (e : ℤ) :
    Format.binary64.targetExponent (totalExponent m e) = max ((m.log2 : ℤ) + e - 52) (-1074) := by
  simp only [Format.targetExponent, totalExponent, Format.mantissaBits, Format.minExponent]
  norm_num
  omega

theorem shiftRight_mantissa (em : ExtendedMantissa) (n : ℕ) :
    (em >>> n).mantissa = em.mantissa / 2 ^ n := by
  change (n.repeat ExtendedMantissa.shiftRightOne em).mantissa = _
  induction n with
  | zero => simp [Nat.repeat]
  | succ n ih =>
    change (n.repeat ExtendedMantissa.shiftRightOne em).mantissa / 2 = _
    rw [ih, Nat.div_div_eq_div_mul, pow_succ]

theorem shiftToTargetExponent_of_lt {m : ℕ} {e : ℤ} (hm : m < 2 ^ 53) (he : -1074 ≤ e) :
    shiftToTargetExponent Format.binary64 m e .exact = (⟨m, false, false⟩, e) := by
  have hlog : m.log2 < 53 := by
    rcases Nat.eq_zero_or_pos m with rfl | hpos
    · simp
    · exact (Nat.log2_lt hpos.ne').mpr hm
  have hshift : (Format.binary64.targetExponent (totalExponent m e) - e).toNat = 0 := by
    rw [targetExponent_eq]
    omega
  simp only [shiftToTargetExponent, shiftToExponent, hshift]
  simp [ExtendedMantissa.ofMantissaAndAccuracy]
  rfl

theorem shiftToTargetExponent_two_pow {e : ℤ} (he : -1074 ≤ e) :
    shiftToTargetExponent Format.binary64 (2 ^ 53) e .exact = (⟨2 ^ 52, false, false⟩, e + 1) := by
  have hshift : (Format.binary64.targetExponent (totalExponent (2 ^ 53) e) - e).toNat = 1 := by
    rw [targetExponent_eq, Nat.log2_two_pow]
    omega
  simp only [shiftToTargetExponent, shiftToExponent, hshift]
  rfl

/-! ## Rounding intervals -/

/-- The form in which a double keeps a magnitude. -/
structure Magnitude.Canonical (v : Magnitude) : Prop where
  mantissa_lt : v.mantissa < 2 ^ 53
  exponent_ge : -1074 ≤ v.exponent
  full : v.exponent = -1074 ∨ 2 ^ 52 ≤ v.mantissa

/-- The distance to the half-way point below, in units of the last place. -/
def Magnitude.below (v : Magnitude) : ℚ :=
  if v.mantissa = 2 ^ 52 ∧ -1074 < v.exponent then 1 / 4 else 1 / 2

/-- The numbers that are rounded to `v`. -/
structure Magnitude.Rounds (v : Magnitude) (q : ℚ) : Prop where
  low : v.mantissa - v.below ≤ q / 2 ^ v.exponent
  high : q / 2 ^ v.exponent ≤ v.mantissa + 1 / 2
  odd : v.mantissa % 2 = 1 →
    v.mantissa - v.below < q / 2 ^ v.exponent ∧ q / 2 ^ v.exponent < v.mantissa + 1 / 2

variable {v : Magnitude} {q : ℚ}

theorem Magnitude.below_le (v : Magnitude) : v.below ≤ 1 / 2 := by
  unfold Magnitude.below
  split <;> norm_num

theorem zpow_mul_pow_neg {b : ℚ} (hb : b ≠ 0) (e : ℤ) : b ^ e * b ^ (-e).toNat = b ^ e.toNat := by
  rw [← zpow_natCast, ← zpow_natCast, ← zpow_add₀ hb]
  congr 1
  omega

theorem div_zpow_add (q : ℚ) (e : ℤ) (k : ℕ) : q / 2 ^ (e + k) = q / 2 ^ e / 2 ^ k := by
  rw [zpow_add₀ (by norm_num), zpow_natCast, div_div]

theorem exists_rounds_of_range {e : ℤ} (he : -1074 ≤ e) (hlow : 2 ^ 52 ≤ q / 2 ^ e)
    (hhigh : q / 2 ^ e < 2 ^ 53) :
    ∃ v : Magnitude, v.Canonical ∧ 0 < v.mantissa ∧ v.exponent ≤ e + 1 ∧ v.Rounds q := by
  -- Every number of the range is rounded down, or up, where it may gain a bit.
  have hnonneg : 0 ≤ q / 2 ^ e := le_trans (by norm_num) hlow
  obtain ⟨m, hm⟩ : ∃ m, m = ⌊q / 2 ^ e⌋₊ := ⟨_, rfl⟩
  obtain ⟨hfloor, hceil⟩ := (Nat.floor_eq_iff hnonneg).mp hm.symm
  have hfull : 2 ^ 52 ≤ m := hm ▸ Nat.le_floor (by exact_mod_cast hlow)
  have hbits : m < 2 ^ 53 := by exact_mod_cast hfloor.trans_lt hhigh
  by_cases hdown : q / 2 ^ e < m + 1 / 2 ∨ q / 2 ^ e = m + 1 / 2 ∧ m % 2 = 0
  · refine ⟨⟨m, e⟩, ⟨hbits, he, .inr hfull⟩, by simp only; omega, by simp, ?_⟩
    have hbelow : (0 : ℚ) < (⟨m, e⟩ : Magnitude).below := by
      unfold Magnitude.below
      split <;> norm_num
    refine ⟨?_, ?_, fun hodd => ?_⟩ <;> simp only
    · linarith
    · rcases hdown with hdown | ⟨hdown, -⟩ <;> linarith
    · rcases hdown with hdown | ⟨-, heven⟩
      · constructor <;> linarith
      · simp only at hodd
        omega
  · have hup : (m : ℚ) + 1 / 2 ≤ q / 2 ^ e := by
      by_contra hlt
      exact hdown (.inl (not_le.mp hlt))
    -- Rounded up, a mantissa of ones is a power of two and takes the next exponent.
    by_cases hcarry : m + 1 = 2 ^ 53
    · have hcarryRat : (m : ℚ) + 1 = 2 ^ 53 := by exact_mod_cast hcarry
      have hquarter : (⟨2 ^ 52, e + 1⟩ : Magnitude).below = 1 / 4 :=
        if_pos ⟨rfl, by simp only; omega⟩
      have hhalf : q / 2 ^ (e + 1) = q / 2 ^ e / 2 := by
        rw [zpow_add_one₀ (by norm_num), div_div]
      refine ⟨⟨2 ^ 52, e + 1⟩, ⟨by norm_num, by simp only; omega, .inr le_rfl⟩, by norm_num,
        le_rfl, ?_⟩
      refine ⟨?_, ?_, fun hodd => absurd hodd (by norm_num)⟩
      · rw [hquarter, hhalf]
        push_cast
        linarith
      · rw [hhalf]
        push_cast
        linarith
    · have hbelow : (⟨m + 1, e⟩ : Magnitude).below = 1 / 2 := by
        refine if_neg fun hmin => ?_
        have : m + 1 = 2 ^ 52 := hmin.1
        omega
      refine ⟨⟨m + 1, e⟩, ⟨by simp only; omega, he, .inr (by simp only; omega)⟩, by simp, by simp, ?_⟩
      refine ⟨?_, ?_, fun hodd => ?_⟩ <;> simp only [hbelow] <;> push_cast
      · linarith
      · linarith
      · have hne : q / 2 ^ e ≠ m + 1 / 2 := by
          intro heq
          simp only at hodd
          exact hdown (.inr ⟨heq, by omega⟩)
        have hgt := lt_of_le_of_ne hup hne.symm
        constructor <;> linarith

theorem exists_rounds_of_pos {m : ℕ} {t : ℤ} (hm : 0 < m) (ht : -1022 ≤ m.log2 + t) :
    ∃ v : Magnitude, v.Canonical ∧ 0 < v.mantissa ∧ v.exponent ≤ m.log2 + t - 51 ∧
      v.Rounds (m * 2 ^ t) := by
  have hscale : (m * 2 ^ t / 2 ^ (m.log2 + t - 52 : ℤ) : ℚ) = m * 2 ^ 52 / 2 ^ m.log2 := by
    rw [zpow_sub₀ (by norm_num), zpow_add₀ (by norm_num), zpow_natCast]
    field_simp
  have hlow : (2 : ℚ) ^ m.log2 ≤ m := by exact_mod_cast Nat.log2_self_le hm.ne'
  have hhigh : (m : ℚ) < 2 ^ m.log2 * 2 := by
    rw [← pow_succ]
    exact_mod_cast Nat.lt_log2_self
  obtain ⟨v, hv, hpos, hexponent, hrounds⟩ :
      ∃ v : Magnitude, v.Canonical ∧ 0 < v.mantissa ∧ v.exponent ≤ m.log2 + t - 52 + 1 ∧
        v.Rounds (m * 2 ^ t) := by
    apply exists_rounds_of_range (by omega) <;> rw [hscale]
    · rw [le_div_iff₀ (by positivity)]
      linarith
    · rw [div_lt_iff₀ (by positivity)]
      linarith
  exact ⟨v, hv, hpos, by omega, hrounds⟩

theorem Magnitude.Canonical.full_of_gt (hv : v.Canonical) (h : -1074 < v.exponent) :
    (2 ^ 52 : ℚ) ≤ v.mantissa := by
  have hfull : 2 ^ 52 ≤ v.mantissa := hv.full.resolve_left (by omega)
  exact_mod_cast hfull

theorem Magnitude.Rounds.not_above (hv : v.Canonical) (hq : v.Rounds q) {t : ℤ}
    (hlow : (2 : ℚ) ^ 52 ≤ q / 2 ^ t) : ¬v.exponent < t := by
  intro hgt
  obtain ⟨k, rfl⟩ := Int.le.dest hgt.le
  have htwo : (2 : ℚ) ≤ 2 ^ k := by
    apply le_self_pow₀ (by norm_num)
    omega
  have hmantissa : (v.mantissa : ℚ) + 1 ≤ 2 ^ 53 := by exact_mod_cast hv.mantissa_lt
  have hhigh := hq.high
  have hscaled : q / 2 ^ (v.exponent + k : ℤ) * 2 ^ k = q / 2 ^ v.exponent := by
    rw [div_zpow_add]
    field_simp
  have hmul := mul_le_mul hlow htwo (by norm_num) (by linarith)
  linarith

theorem Magnitude.Rounds.of_below (hv : v.Canonical) (hq : v.Rounds q) {t : ℤ} (ht : -1074 ≤ t)
    (hlt : t < v.exponent) (hhigh : q / 2 ^ t < 2 ^ 53) :
    v.mantissa = 2 ^ 52 ∧ v.exponent = t + 1 := by
  -- Only the least mantissa of an exponent has numbers one exponent below that are rounded to it.
  obtain ⟨k, hk⟩ := Int.le.dest hlt.le
  have hbelow := v.below_le
  have hfull := hv.full_of_gt (by omega)
  have hscaled : q / 2 ^ t = q / 2 ^ v.exponent * 2 ^ k := by
    rw [← hk, div_zpow_add]
    field_simp
  have hbound : (v.mantissa - v.below) * 2 ^ k < (2 ^ 53 : ℚ) := by
    have hmul := mul_le_mul_of_nonneg_right hq.low (by positivity : (0 : ℚ) ≤ 2 ^ k)
    linarith
  have hk1 : k = 1 := by
    by_contra hne
    have hfour : (2 : ℚ) ^ 2 ≤ 2 ^ k := by
      apply pow_le_pow_right₀ (by norm_num)
      omega
    have hhalf : (2 : ℚ) ^ 52 - 1 / 2 ≤ v.mantissa - v.below := by linarith
    have hmul := mul_le_mul hhalf hfour (by norm_num) (by linarith)
    linarith
  subst hk1
  refine ⟨?_, by omega⟩
  have hmost : (v.mantissa : ℚ) < 2 ^ 52 + 1 := by linarith
  have hmostNat : v.mantissa < 2 ^ 52 + 1 := by exact_mod_cast hmost
  have hfullNat : 2 ^ 52 ≤ v.mantissa := by exact_mod_cast hfull
  omega

def Magnitude.Precedes (v w : Magnitude) : Prop :=
  v.exponent < w.exponent ∨ v.exponent = w.exponent ∧ v.mantissa < w.mantissa

theorem Magnitude.Rounds.precedes {w : Magnitude} (hv : v.Canonical) (hq : v.Rounds q)
    (hw : w.Canonical) (hle : q / 2 ^ w.exponent ≤ w.mantissa - 1) : v.Precedes w := by
  have hmost : (w.mantissa : ℚ) + 1 ≤ 2 ^ 53 := by exact_mod_cast hw.mantissa_lt
  have hbelow := v.below_le
  rcases lt_trichotomy v.exponent w.exponent with hlt | heq | hgt
  · exact .inl hlt
  · have hlow := hq.low
    rw [heq] at hlow
    have hmantissa : (v.mantissa : ℚ) < w.mantissa := by linarith
    exact .inr ⟨heq, by exact_mod_cast hmantissa⟩
  · obtain ⟨hmin, hexponent⟩ := hq.of_below hv hw.exponent_ge hgt (by linarith)
    have hlow := hq.low
    rw [hexponent, zpow_add_one₀ (by norm_num), ← div_div, hmin] at hlow
    push_cast at hlow
    linarith

theorem Magnitude.Rounds.target (hv : v.Canonical) (hq : v.Rounds q) {f : ℕ} {t : ℤ}
    (hf : f < 2 ^ 53) (hfull : t = -1074 ∨ 2 ^ 52 ≤ f) (ht : -1074 ≤ t)
    (hlow : (f : ℚ) ≤ q / 2 ^ t) (hhigh : q / 2 ^ t < f + 1) :
    t = v.exponent ∨ (v.mantissa = 2 ^ 52 ∧ v.exponent = t + 1) := by
  have hf53 : (f : ℚ) + 1 ≤ 2 ^ 53 := by exact_mod_cast hf
  have hge := hv.exponent_ge
  rcases lt_trichotomy t v.exponent with hlt | heq | hgt
  · exact .inr (hq.of_below hv ht hlt (by linarith))
  · exact .inl heq
  · have hf52 : 2 ^ 52 ≤ f := hfull.resolve_left (by omega)
    have hf52Rat : (2 ^ 52 : ℚ) ≤ f := by exact_mod_cast hf52
    exact absurd hgt (hq.not_above hv (by linarith))

theorem div_two_pow_lt {m k : ℕ} (hk : m.log2 ≤ 52 + k) : m / 2 ^ k < 2 ^ 53 := by
  rw [Nat.div_lt_iff_lt_mul (by positivity), ← pow_add]
  exact Nat.lt_log2_self.trans_le (Nat.pow_le_pow_right (by decide) (by omega))

theorem le_div_two_pow {m k : ℕ} (hm : m ≠ 0) (hk : 52 + k ≤ m.log2) : 2 ^ 52 ≤ m / 2 ^ k := by
  rw [Nat.le_div_iff_mul_le (by positivity), ← pow_add]
  exact (Nat.pow_le_pow_right (by decide) hk).trans (Nat.log2_self_le hm)

/-- The first shift leaves 53 bits, or fewer at the least exponent, and loses nothing of the number. -/
theorem exists_shiftToTargetExponent {m : ℕ} {e : ℤ} {a : Accuracy}
    (ha : Measures a (q / 2 ^ e - m)) (he : e ≤ max ((m.log2 : ℤ) + e - 52) (-1074)) :
    ∃ em t, shiftToTargetExponent Format.binary64 m e a = (em, t) ∧ Stands em (q / 2 ^ t) ∧
      -1074 ≤ t ∧ em.mantissa < 2 ^ 53 ∧ (t = -1074 ∨ 2 ^ 52 ≤ em.mantissa) := by
  obtain ⟨k, hk⟩ := Int.le.dest he
  have htarget := targetExponent_eq m e
  rw [← hk] at htarget
  have hmantissa : (ExtendedMantissa.ofMantissaAndAccuracy m a >>> k).mantissa = m / 2 ^ k := by
    rw [shiftRight_mantissa]
    cases a with
    | exact => rfl
    | inexact o => cases o <;> rfl
  refine ⟨ExtendedMantissa.ofMantissaAndAccuracy m a >>> k, e + k, ?_, ?_, by omega, ?_, ?_⟩
  · simp [shiftToTargetExponent, shiftToExponent, htarget]
  · rw [div_zpow_add]
    exact (stands_ofMantissaAndAccuracy ha).shiftRight k
  · rw [hmantissa]
    exact div_two_pow_lt (by omega)
  · rw [hmantissa]
    rcases Nat.eq_zero_or_pos m with rfl | hm
    · simp at hk he
      omega
    by_cases h : e + k = -1074
    · exact .inl h
    · exact .inr (le_div_two_pow hm.ne' (by omega))

/-- A number of the interval is rounded to its double, from any mantissa that has bits enough. -/
theorem Magnitude.Rounds.roundWithAccuracy (hv : v.Canonical) (hpos : 0 < v.mantissa)
    (hq : v.Rounds q) (sign : Sign) {m : ℕ} {e : ℤ} {a : Accuracy} (ha : Measures a (q / 2 ^ e - m))
    (he : e ≤ max ((m.log2 : ℤ) + e - 52) (-1074)) :
    roundWithAccuracy Format.binary64 sign m e a = .finite sign v.mantissa v.exponent hpos := by
  obtain ⟨em, t, hshift, hstands, ht, hlt, hfull⟩ := exists_shiftToTargetExponent ha he
  have hbounds := hstands.bounds
  have hlt' : (em.mantissa : ℚ) + 1 ≤ 2 ^ 53 := by exact_mod_cast hlt
  have hlow := hq.low
  have hhigh := hq.high
  have hbelow := v.below_le
  rcases hq.target hv hlt hfull ht (by linarith) (by linarith) with rfl | ⟨hmin, hexp⟩
  · have hr : em.roundedMantissa = v.mantissa :=
      hstands.roundedMantissa (by linarith) hhigh fun hodd => by
        have := hq.odd hodd
        constructor <;> linarith
    simp only [UnpackedFloat.roundWithAccuracy, hshift, hr,
      shiftToTargetExponent_of_lt hv.mantissa_lt hv.exponent_ge, dif_neg hpos.ne']
  -- The mantissa is rounded up to one bit more, and is shifted once again.
  · have hscaled : q / 2 ^ t = q / 2 ^ v.exponent * 2 := by
      rw [hexp, zpow_add_one₀ (by norm_num)]
      field_simp
    have hminRat : (v.mantissa : ℚ) = 2 ^ 52 := by exact_mod_cast hmin
    have hquarter : v.below = 1 / 4 := if_pos ⟨hmin, by omega⟩
    have hr : em.roundedMantissa = 2 ^ 53 :=
      hstands.roundedMantissa (by push_cast; linarith) (by push_cast; linarith) fun hodd =>
        absurd hodd (by decide)
    simp only [UnpackedFloat.roundWithAccuracy, hshift, hr, shiftToTargetExponent_two_pow ht]
    simp [hmin, hexp]

end TestBeam.Decimal
