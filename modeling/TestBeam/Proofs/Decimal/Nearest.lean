import TestBeam.Decimal.Reading
import TestBeam.Proofs.Decimal.Parts
import TestBeam.Proofs.Decimal.Positional

/-!
# The nearest double

A decimal in the rounding interval of a double reads as that double.
-/

namespace TestBeam.Decimal

open Float.Model Float.Model.UnpackedFloat

variable {v : Magnitude} {m₁ m₂ : ℕ} {e₁ e₂ : ℤ}

/-! ## Products and quotients -/

theorem Magnitude.Rounds.mul (hv : v.Canonical) (hpos : 0 < v.mantissa)
    (hq : v.Rounds (m₁ * 2 ^ e₁ * (m₂ * 2 ^ e₂))) (hbits : 2 ^ 52 ≤ m₁ * m₂) (s₁ s₂ : Sign)
    (h₁ : 0 < m₁) (h₂ : 0 < m₂) :
    UnpackedFloat.mul Format.binary64 (.finite s₁ m₁ e₁ h₁) (.finite s₂ m₂ e₂ h₂) =
      .finite (s₁ * s₂) v.mantissa v.exponent hpos := by
  have hlog : 52 ≤ (m₁ * m₂).log2 := (Nat.le_log2 (by positivity)).mpr hbits
  refine hq.roundWithAccuracy hv hpos _ ?_ (by omega)
  change _ = (0 : ℚ)
  rw [zpow_add₀ (by norm_num)]
  push_cast
  field_simp
  ring

theorem measures_accuracyOfFraction {n d : ℕ} (h : n < d) :
    Measures (accuracyOfFraction n d) (n / d) := by
  have hd : (0 : ℚ) < d := by exact_mod_cast Nat.zero_lt_of_lt h
  have hlt : (n : ℚ) < d := by exact_mod_cast h
  unfold accuracyOfFraction
  split
  · rename_i hzero
    simp [Measures, hzero]
  · rename_i hne
    have hpos : (0 : ℚ) < n := by exact_mod_cast Nat.pos_of_ne_zero hne
    cases hcompare : compare (2 * n) d with
    | lt =>
      have h2 : (2 * n : ℚ) < d := by exact_mod_cast Nat.compare_eq_lt.mp hcompare
      exact ⟨by positivity, by rw [div_lt_iff₀ hd]; linarith⟩
    | eq =>
      have h2 : (2 * n : ℚ) = d := by exact_mod_cast Nat.compare_eq_eq.mp hcompare
      change (n : ℚ) / d = 1 / 2
      rw [div_eq_iff hd.ne']
      linarith
    | gt =>
      have h2 : (d : ℚ) < 2 * n := by exact_mod_cast Nat.compare_eq_gt.mp hcompare
      exact ⟨by rw [lt_div_iff₀ hd]; linarith, by rw [div_lt_iff₀ hd]; linarith⟩

theorem le_log2_div (s : ℕ) (h₁ : 0 < m₁) (h₂ : 0 < m₂) :
    m₁.log2 + s ≤ ((m₁ <<< s) / m₂).log2 + m₂.log2 + 1 := by
  -- The shifted quotient has one bit less than the difference of the lengths, or as many.
  have hlow : 2 ^ (m₁.log2 + s) ≤ m₁ <<< s := by
    rw [pow_add, Nat.shiftLeft_eq]
    exact Nat.mul_le_mul_right _ (Nat.log2_self_le h₁.ne')
  have hhigh : m₁ <<< s < 2 ^ (((m₁ <<< s) / m₂).log2 + 1 + (m₂.log2 + 1)) := by
    rw [pow_add]
    calc m₁ <<< s < m₂ * ((m₁ <<< s) / m₂ + 1) := Nat.lt_mul_div_succ _ h₂
      _ ≤ m₂ * 2 ^ (((m₁ <<< s) / m₂).log2 + 1) := Nat.mul_le_mul_left _ Nat.lt_log2_self
      _ ≤ 2 ^ (m₂.log2 + 1) * 2 ^ (((m₁ <<< s) / m₂).log2 + 1) :=
        Nat.mul_le_mul_right _ Nat.lt_log2_self.le
      _ = _ := Nat.mul_comm _ _
  have := (Nat.pow_lt_pow_iff_right (by decide)).mp (hlow.trans_lt hhigh)
  omega

theorem Magnitude.Rounds.div (hv : v.Canonical) (hpos : 0 < v.mantissa)
    (hq : v.Rounds (m₁ * 2 ^ e₁ / (m₂ * 2 ^ e₂))) (s₁ s₂ : Sign) (h₁ : 0 < m₁) (h₂ : 0 < m₂) :
    UnpackedFloat.div Format.binary64 (.finite s₁ m₁ e₁ h₁) (.finite s₂ m₂ e₂ h₂) =
      .finite (s₁ / s₂) v.mantissa v.exponent hpos := by
  have htarget : Format.binary64.targetExponent (totalExponent m₁ e₁ - totalExponent m₂ e₂) =
      max ((m₁.log2 : ℤ) + e₁ - m₂.log2 - e₂ - 53) (-1074) := by
    simp only [Format.targetExponent, totalExponent, Format.mantissaBits, Format.minExponent]
    norm_num
    omega
  simp only [UnpackedFloat.div, divCore, htarget]
  generalize ht : min (e₁ - e₂) (max _ (-1074)) = t
  obtain ⟨s, hs⟩ := Int.le.dest (by omega : t ≤ e₁ - e₂)
  obtain rfl : e₁ = t + s + e₂ := by omega
  rw [show (t + s + e₂ - e₂ - t).toNat = s by omega]
  have hlog := le_log2_div s h₁ h₂
  refine hq.roundWithAccuracy hv hpos _ ?_ (by omega)
  have hdivision : ((m₁ <<< s : ℕ) : ℚ) = m₂ * ((m₁ <<< s) / m₂ : ℕ) + ((m₁ <<< s) % m₂ : ℕ) := by
    exact_mod_cast (Nat.div_add_mod _ _).symm
  have hm₂ : (m₂ : ℚ) ≠ 0 := by exact_mod_cast h₂.ne'
  have hvalue : (m₁ : ℚ) * 2 ^ (t + s + e₂) / (m₂ * 2 ^ e₂) / 2 ^ t = (m₁ <<< s : ℕ) / m₂ := by
    rw [zpow_add₀ (by norm_num), zpow_add₀ (by norm_num), zpow_natCast, Nat.shiftLeft_eq]
    push_cast
    field_simp
  have hmeasures := measures_accuracyOfFraction (Nat.mod_lt (m₁ <<< s) h₂)
  rw [hvalue, hdivision]
  convert hmeasures using 1
  field_simp
  ring

/-! ## Positive doubles -/

theorem unpack_of_magnitude {x : Float} (hfinite : x.isFinite = true)
    (hsign : isNegative x = false) (h : magnitude x = v) :
    x.toModel.unpack = v.unpacked .positive := by
  rw [unpack_eq hfinite, hsign, h]
  rfl

theorem eq_of_unpacked {x y : Float} {sign : Sign} (hx : x.toModel.unpack = v.unpacked sign)
    (hy : y.toModel.unpack = v.unpacked sign) : x = y := by
  have hfinite : (v.unpacked sign).isFinite = true := by
    unfold Magnitude.unpacked
    split <;> rfl
  have hxfinite : x.isFinite = true := (congrArg UnpackedFloat.isFinite hx).trans hfinite
  have hyfinite : y.isFinite = true := (congrArg UnpackedFloat.isFinite hy).trans hfinite
  rw [← ofModel_pack hxfinite, ← ofModel_pack hyfinite, ← unpack_eq hxfinite, ← unpack_eq hyfinite,
    hx, hy]

section Positive

variable {x y : Float} {w r : Magnitude} (hx : x.toModel.unpack = v.unpacked .positive)
  (hy : y.toModel.unpack = w.unpacked .positive) (hv : 0 < v.mantissa) (hw : 0 < w.mantissa)

include hx hy hv hw

theorem Magnitude.Precedes.lt (h : v.Precedes w) : x < y := by
  have hlt : x.toModel.unpack.lt y.toModel.unpack = true := by
    rw [hx, hy, Magnitude.unpacked, Magnitude.unpacked, dif_neg hv.ne', dif_neg hw.ne']
    unfold UnpackedFloat.lt UnpackedFloat.compare
    rcases h with hexponent | ⟨hexponent, hmantissa⟩
    · simp [Int.compare_eq_lt.mpr hexponent]
    · simp [hexponent, Nat.compare_eq_lt.mpr hmantissa]
  exact decide_eq_true hlt

variable (hr : r.Canonical) (hpos : 0 < r.mantissa) (hle : r.exponent ≤ 971)

include hr hpos hle

theorem unpack_mul (hbits : 2 ^ 52 ≤ v.mantissa * w.mantissa)
    (hrounds : r.Rounds (v.mantissa * 2 ^ v.exponent * (w.mantissa * 2 ^ w.exponent))) :
    (x * y).toModel.unpack = r.unpacked .positive := by
  have hmul := hrounds.mul hr hpos hbits .positive .positive hv hw
  change (Float.Model.pack (UnpackedFloat.mul Format.binary64 x.toModel.unpack
    y.toModel.unpack)).unpack = _
  rw [hx, hy, Magnitude.unpacked, Magnitude.unpacked, dif_neg hv.ne', dif_neg hw.ne', hmul]
  have hpack := unpack_pack hr hle .positive
  rwa [Magnitude.unpacked, dif_neg hpos.ne'] at hpack ⊢

theorem unpack_div
    (hrounds : r.Rounds (v.mantissa * 2 ^ v.exponent / (w.mantissa * 2 ^ w.exponent))) :
    (x / y).toModel.unpack = r.unpacked .positive := by
  have hdiv := hrounds.div hr hpos .positive .positive hv hw
  change (Float.Model.pack (UnpackedFloat.div Format.binary64 x.toModel.unpack
    y.toModel.unpack)).unpack = _
  rw [hx, hy, Magnitude.unpacked, Magnitude.unpacked, dif_neg hv.ne', dif_neg hw.ne', hdiv]
  have hpack := unpack_pack hr hle .positive
  rwa [Magnitude.unpacked, dif_neg hpos.ne'] at hpack ⊢

end Positive

/-! ## Small factors -/

theorem Magnitude.rounds_self (v : Magnitude) : v.Rounds (v.mantissa * 2 ^ v.exponent) := by
  have hself : (v.mantissa * 2 ^ v.exponent / 2 ^ v.exponent : ℚ) = v.mantissa := by field_simp
  have hbelow : 0 < v.below := by
    unfold Magnitude.below
    split <;> norm_num
  refine ⟨?_, ?_, fun _ => ?_⟩ <;> rw [hself]
  · linarith
  · linarith
  · constructor <;> linarith

theorem powersOfTen : ∀ e : Fin Float.exactlyRepresentablePowersOfTen.size,
    Float.exactlyRepresentablePowersOfTen[e].isFinite = true ∧
      isNegative Float.exactlyRepresentablePowersOfTen[e] = false ∧
      0 < (magnitude Float.exactlyRepresentablePowersOfTen[e]).mantissa ∧
      (magnitude Float.exactlyRepresentablePowersOfTen[e]).mantissa *
          2 ^ (magnitude Float.exactlyRepresentablePowersOfTen[e]).exponent.toNat =
        10 ^ e.val * 2 ^ (-(magnitude Float.exactlyRepresentablePowersOfTen[e]).exponent).toNat := by
  decide +kernel

theorem unpack_powerOfTen {e : ℕ} (h : e < Float.exactlyRepresentablePowersOfTen.size) :
    ∃ (m : ℕ) (t : ℤ) (hm : 0 < m),
      Float.exactlyRepresentablePowersOfTen[e].toModel.unpack = .finite .positive m t hm ∧
        (m * 2 ^ t : ℚ) = 10 ^ e := by
  obtain ⟨hfinite, hsign, hpos, hvalue⟩ := powersOfTen ⟨e, h⟩
  simp only [Fin.getElem_fin] at hfinite hsign hpos hvalue
  refine ⟨_, (magnitude Float.exactlyRepresentablePowersOfTen[e]).exponent, hpos, ?_, ?_⟩
  · rw [unpack_eq hfinite, hsign, Magnitude.unpacked, dif_neg hpos.ne']
    rfl
  · generalize magnitude _ = v at hvalue ⊢
    obtain ⟨m, t⟩ := v
    have hvalueRat : (m : ℚ) * 2 ^ t.toNat = 10 ^ e * 2 ^ (-t).toNat := by exact_mod_cast hvalue
    have hne : (2 : ℚ) ^ (-t).toNat ≠ 0 := by positivity
    apply mul_right_cancel₀ hne
    rw [mul_assoc, zpow_mul_pow_neg (by norm_num), hvalueRat]

theorem unpack_toFloat {m : ℕ} (hpos : 0 < m) (hlt : m < 2 ^ 53) :
    ∃ (k : ℕ) (h : 0 < m * 2 ^ k), 2 ^ 52 ≤ m * 2 ^ k ∧ m * 2 ^ k < 2 ^ 53 ∧
      m.toUInt64.toFloat.toModel.unpack = .finite .positive (m * 2 ^ k) (-k) h := by
  have hlog : m.log2 < 53 := (Nat.log2_lt hpos.ne').mpr hlt
  obtain ⟨k, hk⟩ := Nat.exists_eq_add_of_le (Nat.le_of_lt_succ hlog)
  have hfull : 2 ^ 52 ≤ m * 2 ^ k := by
    rw [hk, pow_add]
    exact Nat.mul_le_mul_right _ (Nat.log2_self_le hpos.ne')
  have hbits : m * 2 ^ k < 2 ^ 53 := by
    rw [show 53 = m.log2 + 1 + k by omega, pow_add]
    exact Nat.mul_lt_mul_of_pos_right Nat.lt_log2_self (by positivity)
  -- Shifted up to 53 bits the number is a mantissa, so nothing is rounded.
  have hcanonical : (⟨m * 2 ^ k, -k⟩ : Magnitude).Canonical :=
    ⟨hbits, by simp only; omega, .inr hfull⟩
  have hnat : m.toUInt64.toNat = m := by
    simp
    omega
  have hround : UnpackedFloat.ofUInt64 Format.binary64 m.toUInt64 =
      (⟨m * 2 ^ k, -k⟩ : Magnitude).unpacked .positive := by
    have hcompare : compare (m : ℤ) 0 = .gt := by
      rw [Int.compare_eq_gt]
      omega
    simp only [UnpackedFloat.ofUInt64, UnpackedFloat.ofNat, UnpackedFloat.ofInt,
      UnpackedFloat.normalize, hnat, hcompare, UnpackedFloat.round, targetExponent_eq,
      decreaseExponent]
    have hamount : ((0 : ℤ) - max (((m : ℤ).toNat.log2 : ℤ) + 0 - 52) (-1074)).toNat = k := by
      rw [Int.toNat_natCast]
      omega
    have hrounds := (⟨m * 2 ^ k, -k⟩ : Magnitude).rounds_self
    rw [hamount, Int.toNat_natCast, Nat.shiftLeft_eq, zero_sub, Magnitude.unpacked,
      dif_neg (by positivity)]
    refine hrounds.roundWithAccuracy hcanonical (by positivity) _ ?_ ?_
    · change _ = (0 : ℚ)
      simp
    · have := (Nat.le_log2 (by positivity : m * 2 ^ k ≠ 0)).mpr hfull
      omega
  refine ⟨k, by positivity, hfull, hbits, ?_⟩
  change (Float.Model.pack (UnpackedFloat.ofUInt64 _ _)).unpack = _
  rw [hround, unpack_pack hcanonical (by simp only; omega), Magnitude.unpacked, dif_neg (by positivity)]

/-! ## Decimals -/

theorem Magnitude.Rounds.range {q : ℚ} (hv : v.Canonical) (hpos : 0 < v.mantissa)
    (hle : v.exponent ≤ 971) (hq : v.Rounds q) : 1 / 2 ^ 1075 ≤ q ∧ q ≤ 2 ^ 1024 := by
  have hlow := hq.low
  have hhigh := hq.high
  have hpow : (0 : ℚ) < 2 ^ v.exponent := by positivity
  have hbelow := v.below_le
  have hone : (1 : ℚ) ≤ v.mantissa := by exact_mod_cast hpos
  have hlt : (v.mantissa : ℚ) + 1 ≤ 2 ^ 53 := by exact_mod_cast hv.mantissa_lt
  have hleast : (2 : ℚ) ^ (-1074 : ℤ) ≤ 2 ^ v.exponent :=
    zpow_le_zpow_right₀ (by norm_num) hv.exponent_ge
  have hmost : (2 : ℚ) ^ v.exponent ≤ 2 ^ (971 : ℤ) := zpow_le_zpow_right₀ (by norm_num) hle
  have hleast' : (2 : ℚ) ^ (-1074 : ℤ) = 1 / 2 ^ 1074 := by
    rw [zpow_neg, one_div]
    rfl
  have hmost' : (2 : ℚ) ^ (971 : ℤ) = 2 ^ 971 := zpow_natCast 2 971
  have hqeq : q = q / 2 ^ v.exponent * 2 ^ v.exponent := by field_simp
  constructor
  · calc (1 / 2 ^ 1075 : ℚ) = 1 / 2 * (1 / 2 ^ 1074) := by
          rw [one_div_mul_one_div_rev, ← pow_succ]
      _ ≤ q / 2 ^ v.exponent * 2 ^ v.exponent := by
        rw [← hleast']
        exact mul_le_mul (by linarith) hleast (by positivity) (by linarith)
      _ = q := hqeq.symm
  · calc q = q / 2 ^ v.exponent * 2 ^ v.exponent := hqeq
      _ ≤ 2 ^ 53 * 2 ^ 971 := by
        rw [← hmost']
        exact mul_le_mul (by linarith) hmost hpow.le (by positivity)
      _ = 2 ^ 1024 := by rw [← pow_add]

theorem Magnitude.Rounds.size {m : ℕ} {e : ℤ} (hv : v.Canonical) (hpos : 0 < v.mantissa)
    (hle : v.exponent ≤ 971) (hq : v.Rounds (m * 10 ^ e)) :
    0 < m ∧ -324 < (digits m).length + e ∧ (digits m).length + e < 310 := by
  obtain ⟨hlow, hhigh⟩ := hq.range hv hpos hle
  have hm : 0 < m := by
    rcases Nat.eq_zero_or_pos m with rfl | hm
    · rw [Nat.cast_zero, zero_mul] at hlow
      exact absurd hlow (not_le.mpr (by positivity))
    · exact hm
  -- The two ends of the range, each compared with a power of ten.
  have htiny : (2 : ℚ) ^ 1075 < 10 ^ (324 : ℤ) := by
    have : 2 ^ 1075 < 10 ^ 324 := by decide +kernel
    exact_mod_cast this
  have hhuge : (2 : ℚ) ^ 1024 < 10 ^ (309 : ℤ) := by
    have : 2 ^ 1024 < 10 ^ 309 := by decide +kernel
    exact_mod_cast this
  have hten : (0 : ℚ) < 10 ^ e := by positivity
  have hlength := List.length_pos_iff.mpr (digits_ne_nil m)
  have hlt : (m : ℚ) < 10 ^ (digits m).length := by exact_mod_cast lt_pow_length_digits m
  have hge : (10 : ℚ) ^ ((digits m).length - 1) ≤ m := by exact_mod_cast pow_length_digits_le hm
  refine ⟨hm, ?_, ?_⟩
  · have hsmall : (10 : ℚ) ^ (-324 : ℤ) < 10 ^ ((digits m).length + e : ℤ) := by
      calc (10 : ℚ) ^ (-324 : ℤ) < 1 / 2 ^ 1075 := by
            rw [zpow_neg, one_div]
            exact inv_strictAnti₀ (by positivity) htiny
        _ ≤ m * 10 ^ e := hlow
        _ < 10 ^ (digits m).length * 10 ^ e := mul_lt_mul_of_pos_right hlt hten
        _ = 10 ^ ((digits m).length + e : ℤ) := by
          rw [zpow_add₀ (by norm_num), zpow_natCast]
    exact (zpow_lt_zpow_iff_right₀ (by norm_num)).mp hsmall
  · have hlarge : (10 : ℚ) ^ (((digits m).length - 1 : ℕ) + e : ℤ) < 10 ^ (309 : ℤ) := by
      calc (10 : ℚ) ^ (((digits m).length - 1 : ℕ) + e : ℤ)
          = 10 ^ ((digits m).length - 1) * 10 ^ e := by
            rw [zpow_add₀ (by norm_num), zpow_natCast]
        _ ≤ m * 10 ^ e := mul_le_mul_of_nonneg_right hge hten.le
        _ ≤ 2 ^ 1024 := hhigh
        _ < 10 ^ (309 : ℤ) := hhuge
    have := (zpow_lt_zpow_iff_right₀ (by norm_num)).mp hlarge
    omega

theorem Magnitude.Rounds.model_ofScientific {m : ℕ} {e : ℤ} (hv : v.Canonical)
    (hpos : 0 < v.mantissa) (hle : v.exponent ≤ 971) (hq : v.Rounds (m * 10 ^ e)) :
    UnpackedFloat.ofScientific Format.binary64 m e = v.unpacked .positive := by
  obtain ⟨hm, hsmall, hlarge⟩ := hq.size hv hpos hle
  have hlength : (digits m).length ≤ m.log2 + 1 := by
    have hpow : 2 ^ ((digits m).length - 1) ≤ m :=
      (Nat.pow_le_pow_left (by decide) _).trans (pow_length_digits_le hm)
    have := (Nat.le_log2 hm.ne').mpr hpow
    omega
  have hpositive := List.length_pos_iff.mpr (digits_ne_nil m)
  have hguard : ¬ e > 2 ^ Format.binary64.exponentBits := by
    change ¬ e > 2048
    omega
  have hguard' : ¬ e < -(2 ^ Format.binary64.exponentBits + m.log2) := by
    change ¬ e < -(2048 + m.log2)
    omega
  unfold Magnitude.unpacked
  rw [dif_neg hpos.ne', UnpackedFloat.ofScientific, dif_neg hm.ne',
    if_neg hguard, if_neg hguard']
  split
  · rename_i hsign
    obtain ⟨n, rfl⟩ := Int.eq_ofNat_of_zero_le hsign
    refine Magnitude.Rounds.mul hv hpos ?_ ?_ .positive .positive _ _
    · convert hq using 1
      rw [Nat.shiftLeft_eq, show ((Format.binary64.mantissaBits : ℕ) : ℤ) = 53 from rfl,
        show Format.binary64.mantissaBits = 53 from rfl]
      simp
      ring
    · rw [Nat.shiftLeft_eq, show Format.binary64.mantissaBits = 53 from rfl]
      have hten : 0 < 10 ^ n := by positivity
      exact le_trans (by norm_num) (Nat.mul_le_mul (Nat.mul_le_mul_right (2 ^ 53) hm) hten)
  · rename_i hsign
    obtain ⟨n, rfl⟩ := Int.exists_eq_neg_ofNat (by omega : e ≤ 0)
    refine Magnitude.Rounds.div hv hpos ?_ .positive .positive _ _
    convert hq using 1
    simp [div_eq_mul_inv]

theorem Magnitude.Rounds.ofScientific {m : ℕ} {e : ℤ} (hv : v.Canonical)
    (hpos : 0 < v.mantissa) (hle : v.exponent ≤ 971) (hq : v.Rounds (m * 10 ^ e)) :
    Float.ofScientific m (e < 0) e.natAbs = .ofModel (.pack (v.unpacked .positive)) := by
  obtain ⟨hm, -, -⟩ := hq.size hv hpos hle
  unfold Float.ofScientific
  split
  · -- Coefficient and power of ten are doubles here, and one operation on them rounds once.
    rename_i hfast
    obtain ⟨k, hmk, hfull, -, hunpack⟩ := unpack_toFloat hm hfast.1
    have hbound : e.natAbs < Float.exactlyRepresentablePowersOfTen.size :=
      Nat.lt_succ_of_le hfast.2
    obtain ⟨p, t, hp, hpower, hvalue⟩ := unpack_powerOfTen hbound
    have hexact : ((m * 2 ^ k : ℕ) : ℚ) * 2 ^ (-k : ℤ) = m := by
      push_cast
      rw [zpow_neg, zpow_natCast]
      field_simp
    unfold Magnitude.unpacked
    rw [dif_neg hpos.ne']
    by_cases hsign : e < 0
    · simp only [hsign]
      change Float.ofModel (.pack (UnpackedFloat.div _ _ _)) = _
      rw [hunpack, hpower]
      congr 2
      refine Magnitude.Rounds.div hv hpos ?_ .positive .positive hmk hp
      rw [hexact, hvalue]
      obtain ⟨n, rfl⟩ := Int.exists_eq_neg_ofNat hsign.le
      simpa [div_eq_mul_inv] using hq
    · simp only [hsign]
      change Float.ofModel (.pack (UnpackedFloat.mul _ _ _)) = _
      rw [hunpack, hpower]
      congr 2
      refine Magnitude.Rounds.mul hv hpos ?_ ?_ .positive .positive hmk hp
      · rw [hexact, hvalue]
        obtain ⟨n, rfl⟩ := Int.eq_ofNat_of_zero_le (Int.not_lt.mp hsign)
        simpa using hq
      · exact hfull.trans (Nat.le_mul_of_pos_right _ hp)
  · rw [← hq.model_ofScientific hv hpos hle]
    have hexp : (if decide (e < 0) then Int.negOfNat e.natAbs else Int.ofNat e.natAbs) = e := by
      by_cases hsign : e < 0
      · rw [if_pos (decide_eq_true hsign), Int.negOfNat_eq, Int.ofNat_eq_natCast]
        omega
      · rw [if_neg (by simpa using hsign), Int.ofNat_eq_natCast]
        omega
    simp only [hexp]
    rfl

theorem nearestDouble_zero (e : ℤ) : nearestDouble 0 e = 0 := by
  simp [nearestDouble]

theorem Magnitude.Rounds.nearestDouble {m : ℕ} {e : ℤ} (hv : v.Canonical)
    (hpos : 0 < v.mantissa) (hle : v.exponent ≤ 971) (hq : v.Rounds (m * 10 ^ e)) :
    nearestDouble m e = .ofModel (.pack (v.unpacked .positive)) := by
  obtain ⟨hm, hsmall, hlarge⟩ := hq.size hv hpos hle
  have hguard : (m = 0 || (digits m).length + e < -400) = false := by
    simp
    omega
  unfold Decimal.nearestDouble
  simp only [hguard]
  rw [if_neg (by simp), if_neg (by omega)]
  exact hq.ofScientific hv hpos hle

theorem neg_ofModel_pack {sign : Sign} (hv : v.Canonical) (hle : v.exponent ≤ 971) :
    -Float.ofModel (.pack (v.unpacked sign)) = .ofModel (.pack (v.unpacked (-sign))) := by
  change Float.ofModel (.pack (UnpackedFloat.neg _)) = _
  rw [unpack_pack hv hle]
  unfold Magnitude.unpacked
  split <;> rfl

/-- A decimal in the interval of a double, with the sign of the double, is read as that double. -/
theorem toFloat_eq {x : Float} (h : x.isFinite = true) {m : ℕ} {e : ℤ}
    (hq : if (magnitude x).mantissa = 0 then m = 0 else (magnitude x).Rounds (m * 10 ^ e)) :
    (Literal.finite (isNegative x) m e).toFloat = x := by
  obtain ⟨hv, hle⟩ := canonical_magnitude h
  have hnearest : Decimal.nearestDouble m e = .ofModel (.pack ((magnitude x).unpacked .positive)) := by
    split at hq
    · rename_i hzero
      rw [hq, nearestDouble_zero, Magnitude.unpacked, dif_pos hzero]
      rfl
    · rename_i hne
      exact hq.nearestDouble hv (Nat.pos_of_ne_zero hne) hle
  have hself := ofModel_pack h
  rw [Literal.toFloat, hnearest]
  cases hsign : isNegative x with
  | false =>
    rw [hsign] at hself
    exact hself
  | true =>
    rw [hsign] at hself
    exact (neg_ofModel_pack hv hle).trans hself

end TestBeam.Decimal
