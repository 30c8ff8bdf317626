import TestBeam.Proofs.Decimal.Nearest
import TestBeam.Proofs.Decimal.Shortest

/-!
# Products that overflow

A product of two doubles is finite exactly if the exact product lies below the half-way point between the
greatest double and the power of two above it.
-/

namespace TestBeam.Decimal

open Float.Model Float.Model.UnpackedFloat

/-- Half-way between the greatest double and `2 ^ 1024`. -/
def limit : ℚ :=
  2 ^ 1024 - 2 ^ 970

variable {v : Magnitude} {q : ℚ}

/-! ## The greatest exponent -/

theorem limit_eq_below : limit = (2 ^ 53 - 1 / 2) * 2 ^ 971 := by
  have hhigh : (2 : ℚ) ^ 1024 = 2 ^ 53 * 2 ^ 971 := by rw [← pow_add]
  have hlow : (2 : ℚ) ^ 971 = 2 ^ 970 * 2 := pow_succ 2 970
  unfold limit
  rw [hhigh, hlow]
  generalize (2 : ℚ) ^ 970 = p
  ring

theorem limit_eq_above : limit = (2 ^ 52 - 1 / 4) * 2 ^ 972 := by
  have hhigh : (2 : ℚ) ^ 1024 = 2 ^ 52 * 2 ^ 972 := by rw [← pow_add]
  have hlow : (2 : ℚ) ^ 972 = 2 ^ 970 * 4 := by
    rw [pow_add 2 970 2]
    norm_num
  unfold limit
  rw [hhigh, hlow]
  generalize (2 : ℚ) ^ 970 = p
  ring

theorem Magnitude.Rounds.lt_limit (hv : v.Canonical) (hq : v.Rounds q) (hle : v.exponent ≤ 971) :
    q < limit := by
  have hpow : (0 : ℚ) < 2 ^ v.exponent := by positivity
  have hmost : (2 : ℚ) ^ v.exponent ≤ 2 ^ 971 := by
    rw [← zpow_natCast]
    exact zpow_le_zpow_right₀ (by norm_num) hle
  have hscaled : q / 2 ^ v.exponent < 2 ^ 53 - 1 / 2 := by
    have hlt := hv.mantissa_lt
    rcases Nat.lt_or_ge v.mantissa (2 ^ 53 - 1) with hless | hgreatest
    · have hless' : (v.mantissa : ℚ) + 2 ≤ 2 ^ 53 := by
        exact_mod_cast (by omega : v.mantissa + 2 ≤ 2 ^ 53)
      linarith [hq.high]
    · have heq : v.mantissa = 2 ^ 53 - 1 := by omega
      have hodd := (hq.odd (by omega)).2
      rw [heq] at hodd
      norm_num at hodd ⊢
      exact hodd
  calc q = q / 2 ^ v.exponent * 2 ^ v.exponent := by field_simp
    _ < (2 ^ 53 - 1 / 2) * 2 ^ v.exponent := mul_lt_mul_of_pos_right hscaled hpow
    _ ≤ (2 ^ 53 - 1 / 2) * 2 ^ 971 := mul_le_mul_of_nonneg_left hmost (by norm_num)
    _ = limit := limit_eq_below.symm

theorem Magnitude.Rounds.limit_le (hv : v.Canonical) (hq : v.Rounds q) (hlt : 971 < v.exponent) :
    limit ≤ q := by
  have hleast : (2 : ℚ) ^ 972 ≤ 2 ^ v.exponent := by
    rw [← zpow_natCast]
    exact zpow_le_zpow_right₀ (by norm_num) (by omega)
  have hscaled : 2 ^ 52 - 1 / 4 ≤ q / 2 ^ v.exponent := by
    have hfull := hv.full_of_gt (by omega)
    have hlow := hq.low
    unfold Magnitude.below at hlow
    split at hlow
    · linarith
    · rename_i hne
      have hne' : v.mantissa ≠ 2 ^ 52 := fun heq => hne ⟨heq, by omega⟩
      have hfullNat : 2 ^ 52 ≤ v.mantissa := by exact_mod_cast hfull
      have hmore : (2 ^ 52 : ℚ) + 1 ≤ v.mantissa := by
        exact_mod_cast (by omega : 2 ^ 52 + 1 ≤ v.mantissa)
      linarith
  calc limit = (2 ^ 52 - 1 / 4) * 2 ^ 972 := limit_eq_above
    _ ≤ q / 2 ^ v.exponent * 2 ^ v.exponent :=
      mul_le_mul hscaled hleast (by positivity) (le_trans (by norm_num) hscaled)
    _ = q := by field_simp

theorem Magnitude.Rounds.exponent_le_iff (hv : v.Canonical) (hq : v.Rounds q) :
    v.exponent ≤ 971 ↔ q < limit := by
  refine ⟨hq.lt_limit hv, fun hlt => ?_⟩
  by_contra hgt
  exact absurd hlt (not_lt.mpr (hq.limit_le hv (not_le.mp hgt)))

theorem value_lt_limit {x : Float} (h : x.isFinite = true) : (magnitude x).ratio.value < limit := by
  obtain ⟨hv, hle⟩ := canonical_magnitude h
  rw [ratio_value]
  exact (magnitude x).rounds_self.lt_limit hv hle

/-! ## Equal numbers -/

theorem isFinite_of_beq {x y : Float} (h : (x == y) = true) (hy : y.isFinite = true) :
    x.isFinite = true := by
  have hsame : x.toModel.unpack.beq y.toModel.unpack = true := h
  have hfinite : y.toModel.unpack.isFinite = true := hy
  change x.toModel.unpack.isFinite = true
  generalize x.toModel.unpack = a, y.toModel.unpack = b at *
  cases a with
  | finite sign m e hm => rfl
  | zero sign => rfl
  | infinity sign =>
    cases b <;> cases sign <;> simp_all [UnpackedFloat.beq, UnpackedFloat.compare, UnpackedFloat.isFinite]
  | notANumber =>
    cases b <;> simp_all [UnpackedFloat.beq, UnpackedFloat.compare, UnpackedFloat.isFinite]

/-! ## Packing -/

theorem isFinite_unpacked (v : Magnitude) (sign : Sign) : (v.unpacked sign).isFinite = true := by
  unfold Magnitude.unpacked
  split <;> rfl

theorem isFinite_pack_of_le (hv : v.Canonical) (hle : v.exponent ≤ 971) (sign : Sign) :
    (Float.Model.pack (v.unpacked sign)).unpack.isFinite = true := by
  rw [unpack_pack hv hle]
  exact isFinite_unpacked v sign

theorem isFinite_pack_of_gt {m : ℕ} {e : ℤ} (hm : 0 < m) (hgt : 971 < e) (sign : Sign) :
    (Float.Model.pack (.finite sign m e hm)).unpack.isFinite = false := by
  -- A greater exponent does not fit, and infinity stands for the number.
  have hpack : UnpackedFloat.pack Format.binary64 (.finite sign m e hm) =
      packedInfinity Format.binary64 sign := by
    refine if_pos ?_
    simp only [Format.exponentBias]
    norm_num
    omega
  change (UnpackedFloat.unpack Format.binary64 (UnpackedFloat.pack Format.binary64 _)).isFinite = false
  rw [hpack]
  cases sign <;> rfl

theorem isFinite_pack_iff (hv : v.Canonical) (hpos : 0 < v.mantissa) (sign : Sign) :
    (Float.Model.pack (.finite sign v.mantissa v.exponent hpos)).unpack.isFinite = true ↔
      v.exponent ≤ 971 := by
  by_cases hle : v.exponent ≤ 971
  · have hfinite := isFinite_pack_of_le hv hle sign
    rw [Magnitude.unpacked, dif_neg hpos.ne'] at hfinite
    exact iff_of_true hfinite hle
  · rw [isFinite_pack_of_gt hpos (not_le.mp hle)]
    simp [hle]

/-! ## Small products -/

theorem mul_zpow_lt (m : ℕ) (e : ℤ) : (m : ℚ) * 2 ^ e < 2 ^ (m.log2 + 1 + e : ℤ) := by
  have hbits : (m : ℚ) < 2 ^ (m.log2 + 1 : ℤ) := by exact_mod_cast Nat.lt_log2_self
  rw [zpow_add₀ (by norm_num)]
  exact mul_lt_mul_of_pos_right hbits (by positivity)

theorem roundedMantissa_le (em : ExtendedMantissa) : em.roundedMantissa ≤ em.mantissa + 1 := by
  obtain ⟨m, round, sticky⟩ := em
  cases round <;> cases sticky
  · exact Nat.le_succ m
  · exact Nat.le_succ m
  · change m + m % 2 ≤ m + 1
    omega
  · exact le_rfl

theorem exists_roundWithAccuracy {m : ℕ} {e : ℤ} (hsmall : m.log2 + e < -1022)
    (he : e ≤ max ((m.log2 : ℤ) + e - 52) (-1074)) (sign : Sign) :
    ∃ v : Magnitude, v.Canonical ∧ v.exponent ≤ 971 ∧
      roundWithAccuracy Format.binary64 sign m e .exact = v.unpacked sign := by
  have hexact : Measures .exact ((m * 2 ^ e : ℚ) / 2 ^ e - m) := by
    change _ = (0 : ℚ)
    field_simp
    ring
  obtain ⟨em, t, hshift, hstands, ht, hlt, hfull⟩ := exists_shiftToTargetExponent hexact he
  -- A full mantissa above the least exponent would be a normal double.
  obtain rfl : t = -1074 := by
    refine hfull.resolve_right fun hfull => ?_
    have hmantissa := hstands.bounds.1
    have hfull' : (2 ^ 52 : ℚ) ≤ em.mantissa := by exact_mod_cast hfull
    have hpow : (2 : ℚ) ^ (52 + t : ℤ) < 2 ^ (-1022 : ℤ) := by
      calc (2 : ℚ) ^ (52 + t : ℤ) = 2 ^ 52 * 2 ^ t := by rw [zpow_add₀ (by norm_num)]; rfl
        _ ≤ m * 2 ^ e := by
          rw [← le_div_iff₀ (by positivity)]
          linarith
        _ < 2 ^ (m.log2 + 1 + e : ℤ) := mul_zpow_lt m e
        _ ≤ 2 ^ (-1022 : ℤ) := zpow_le_zpow_right₀ (by norm_num) (by omega)
    have := (zpow_lt_zpow_iff_right₀ (by norm_num)).mp hpow
    omega
  obtain ⟨r, hrounded⟩ : ∃ r, em.roundedMantissa = r := ⟨_, rfl⟩
  have hle : r ≤ em.mantissa + 1 := hrounded ▸ roundedMantissa_le em
  rcases Nat.lt_or_ge r (2 ^ 53) with hless | hcarry
  · refine ⟨⟨r, -1074⟩, ⟨hless, le_rfl, .inl rfl⟩, by norm_num, ?_⟩
    simp only [UnpackedFloat.roundWithAccuracy, hshift, hrounded,
      shiftToTargetExponent_of_lt hless le_rfl]
    rfl
  · obtain rfl : r = 2 ^ 53 := by omega
    refine ⟨⟨2 ^ 52, -1073⟩, ⟨by norm_num, by norm_num, .inr le_rfl⟩, by norm_num, ?_⟩
    simp only [UnpackedFloat.roundWithAccuracy, hshift, hrounded, shiftToTargetExponent_two_pow le_rfl]
    rfl

/-! ## Products -/

theorem mul_pow_lt_limit {m : ℕ} {e : ℤ} (hsmall : m.log2 + e < -1022) : (m * 2 ^ e : ℚ) < limit := by
  calc (m : ℚ) * 2 ^ e < 2 ^ (m.log2 + 1 + e : ℤ) := mul_zpow_lt m e
    _ ≤ 2 ^ (0 : ℤ) := zpow_le_zpow_right₀ (by norm_num) (by omega)
    _ ≤ (2 ^ 53 - 1 / 2) * 2 ^ 971 := by
      have hone : (1 : ℚ) ≤ 2 ^ 971 := one_le_pow₀ (by norm_num)
      rw [zpow_zero]
      exact one_le_mul_of_one_le_of_one_le (by norm_num) hone
    _ = limit := limit_eq_below.symm

theorem isFinite_pack_mul_iff {m₁ m₂ : ℕ} {e₁ e₂ : ℤ} (hm₁ : 0 < m₁) (hm₂ : 0 < m₂)
    (hfull : 2 ^ 52 ≤ m₂) (s₁ s₂ : Sign) :
    (Float.Model.pack (UnpackedFloat.mul Format.binary64 (.finite s₁ m₁ e₁ hm₁)
        (.finite s₂ m₂ e₂ hm₂))).unpack.isFinite = true ↔
      (m₁ * 2 ^ e₁ * (m₂ * 2 ^ e₂) : ℚ) < limit := by
  have hexact : (m₁ * 2 ^ e₁ * (m₂ * 2 ^ e₂) : ℚ) = (m₁ * m₂ : ℕ) * 2 ^ (e₁ + e₂) := by
    rw [zpow_add₀ (by norm_num)]
    push_cast
    ring
  have hbits : 2 ^ 52 ≤ m₁ * m₂ := hfull.trans (Nat.le_mul_of_pos_left m₂ hm₁)
  have hpos : 0 < m₁ * m₂ := Nat.mul_pos hm₁ hm₂
  by_cases hsmall : ((m₁ * m₂).log2 : ℤ) + (e₁ + e₂) < -1022
  · have hlog : 52 ≤ (m₁ * m₂).log2 := (Nat.le_log2 hpos.ne').mpr hbits
    obtain ⟨r, hr, hle, hround⟩ := exists_roundWithAccuracy hsmall (by omega) (s₁ * s₂)
    have hmul : UnpackedFloat.mul Format.binary64 (.finite s₁ m₁ e₁ hm₁) (.finite s₂ m₂ e₂ hm₂) =
        r.unpacked (s₁ * s₂) := hround
    rw [hmul, hexact]
    exact iff_of_true (isFinite_pack_of_le hr hle _) (mul_pow_lt_limit hsmall)
  · obtain ⟨r, hr, hrpos, -, hrounds⟩ := exists_rounds_of_pos hpos (not_lt.mp hsmall)
    rw [← hexact] at hrounds
    rw [hrounds.mul hr hrpos hbits s₁ s₂ hm₁ hm₂, isFinite_pack_iff hr hrpos,
      hrounds.exponent_le_iff hr]

/-- A product of finite doubles, one of them normal, is finite exactly if the exact product is in range. -/
theorem isFinite_mul_iff {x y : Float} (hx : x.isFinite = true) (hy : y.isFinite = true)
    (hfull : 2 ^ 52 ≤ (magnitude y).mantissa) :
    (x * y).isFinite = true ↔
      (magnitude x).ratio.value * (magnitude y).ratio.value < limit := by
  change (Float.Model.pack (UnpackedFloat.mul Format.binary64 x.toModel.unpack
    y.toModel.unpack)).unpack.isFinite = true ↔ _
  rw [unpack_eq hx, unpack_eq hy, ratio_value, ratio_value]
  generalize signOf (isNegative x) = s₁, signOf (isNegative y) = s₂
  generalize magnitude x = v, magnitude y = w at *
  have hw : 0 < w.mantissa := by omega
  rcases Nat.eq_zero_or_pos v.mantissa with hzero | hv
  · have hlimit : (0 : ℚ) < limit := by
      rw [limit_eq_below]
      positivity
    have hfinite : (Float.Model.pack (.zero (s₁ * s₂))).unpack.isFinite = true := by
      cases s₁ <;> cases s₂ <;> rfl
    simp only [Magnitude.unpacked, dif_neg hw.ne', hzero, Nat.cast_zero, zero_mul]
    exact iff_of_true hfinite hlimit
  · simp only [Magnitude.unpacked, dif_neg hv.ne', dif_neg hw.ne']
    exact isFinite_pack_mul_iff hv hw hfull s₁ s₂

end TestBeam.Decimal
