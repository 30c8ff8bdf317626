import TestBeam.Proofs.Decimal.Rounding

/-!
# The parts of a finite double

A finite double is packed from a sign and a canonical magnitude and unpacks to them.
-/

namespace TestBeam.Decimal

open Float.Model Float.Model.UnpackedFloat

/-! ## Fields -/

theorem unpackSign_packComponents {spec : Format} (sign : Sign) (exponent : BitVec spec.exponentBits)
    (mantissa : BitVec spec.mantissaBitsWithoutImplicit) :
    unpackSign (packComponents spec sign exponent mantissa) = sign.toBitVec := by
  ext i hi
  obtain rfl : i = 0 := by omega
  simp [unpackSign, packComponents, BitVec.getLsbD_append, BitVec.getElem_append]

theorem ofBitVec_toBitVec (sign : Sign) : Sign.ofBitVec sign.toBitVec = sign := by
  cases sign <;> rfl

theorem toBitVec_ofBitVec (b : BitVec 1) : (Sign.ofBitVec b).toBitVec = b := by
  decide +revert

theorem packComponents_unpack (b : BitVec Format.binary64.numBits) :
    packComponents Format.binary64 (Sign.ofBitVec (unpackSign b)) (unpackExponent b)
      (unpackMantissa b) = b := by
  rw [packComponents, toBitVec_ofBitVec]
  ext i hi
  have hbit (j : ℕ) (hj : j = i) : b.getLsbD j = b[i] := by
    rw [hj, BitVec.getLsbD_eq_getElem hi]
  rw [BitVec.getElem_append]
  split
  · simp [unpackMantissa, hbit]
  · rename_i hmantissa
    simp at hmantissa hi
    rw [BitVec.getElem_append]
    split
    · simp [unpackExponent]
      exact hbit _ (by omega)
    · rename_i hexponent
      simp at hexponent
      simp [unpackSign]
      exact hbit _ (by omega)

/-! ## Magnitudes -/

def fieldMagnitude (biased fraction : ℕ) : Magnitude :=
  if biased = 0 then ⟨fraction, -1074⟩ else ⟨2 ^ 52 + fraction, biased - 1075⟩

def Magnitude.unpacked (v : Magnitude) (sign : Sign) : UnpackedFloat :=
  if h : v.mantissa = 0 then .zero sign
  else .finite sign v.mantissa v.exponent (Nat.pos_of_ne_zero h)

variable (sign : Sign) {exponent : BitVec 11} {mantissa : BitVec 52}

theorem toNat_one_append (mantissa : BitVec 52) :
    (1#1 ++ mantissa).toNat = 2 ^ 52 + mantissa.toNat := by
  rw [BitVec.toNat_append, ← Nat.shiftLeft_add_eq_or_of_lt mantissa.isLt]
  simp [Nat.shiftLeft_eq]

theorem unpack_packComponents (h : exponent ≠ -1#11) :
    UnpackedFloat.unpack Format.binary64 (packComponents Format.binary64 sign exponent mantissa) =
      (fieldMagnitude exponent.toNat mantissa.toNat).unpacked sign := by
  simp only [UnpackedFloat.unpack, unpackMantissa_packComponents, unpackExponent_packComponents,
    unpackSign_packComponents, ofBitVec_toBitVec]
  rw [if_neg h]
  by_cases hexp : exponent = 0#11
  · subst hexp
    by_cases hm : mantissa = 0#52
    · subst hm
      rfl
    · have hne : mantissa.toNat ≠ 0 := fun h0 => hm (BitVec.eq_of_toNat_eq h0)
      simp [Magnitude.unpacked, fieldMagnitude, hm, hne]
      rfl
  · have hne : exponent.toNat ≠ 0 := fun h0 => hexp (BitVec.eq_of_toNat_eq h0)
    simp [Magnitude.unpacked, fieldMagnitude, hexp, hne, toNat_one_append]
    rfl

theorem toNat_lt_of_ne (h : exponent ≠ -1#11) : exponent.toNat < 2047 := by
  have hne : exponent.toNat ≠ 2047 := fun h0 => h (BitVec.eq_of_toNat_eq h0)
  have := exponent.isLt
  omega

theorem pack_unpacked (h : exponent ≠ -1#11) :
    UnpackedFloat.pack Format.binary64 ((fieldMagnitude exponent.toNat mantissa.toNat).unpacked sign) =
      packComponents Format.binary64 sign exponent mantissa := by
  have hlt := toNat_lt_of_ne h
  have hmantissa := mantissa.isLt
  by_cases hexp : exponent.toNat = 0
  · obtain rfl : exponent = 0 := BitVec.eq_of_toNat_eq hexp
    by_cases hm : mantissa.toNat = 0
    · obtain rfl : mantissa = 0 := BitVec.eq_of_toNat_eq hm
      rfl
    · have hlog : mantissa.toNat.log2 < 52 := (Nat.log2_lt hm).mpr hmantissa
      simp [Magnitude.unpacked, fieldMagnitude, hm, UnpackedFloat.pack, Format.exponentBias,
        Format.mantissaBits]
      omega
  · have hlog : (4503599627370496 + mantissa.toNat).log2 = 52 := by
      rw [Nat.log2_eq_iff (by omega)]
      omega
    have hbiased : ((exponent.toNat : ℤ) - 1075 + 1023 + 52).toNat = exponent.toNat := by omega
    have hfraction : BitVec.ofNat 52 (4503599627370496 + mantissa.toNat) = mantissa := by
      apply BitVec.eq_of_toNat_eq
      rw [BitVec.toNat_ofNat]
      omega
    simp [Magnitude.unpacked, fieldMagnitude, hexp, UnpackedFloat.pack, Format.exponentBias,
      Format.mantissaBits, hlog, hbiased, hfraction]
    omega

theorem canonical_fieldMagnitude (h : exponent ≠ -1#11) :
    (fieldMagnitude exponent.toNat mantissa.toNat).Canonical ∧
      (fieldMagnitude exponent.toNat mantissa.toNat).exponent ≤ 971 := by
  have hlt := toNat_lt_of_ne h
  have hmantissa := mantissa.isLt
  unfold fieldMagnitude
  split
  · exact ⟨⟨by simp only; omega, by simp, .inl rfl⟩, by simp⟩
  · exact ⟨⟨by simp only; omega, by simp only; omega, .inr (by simp only; omega)⟩, by simp only; omega⟩

theorem Magnitude.Canonical.exists_fields {v : Magnitude} (h : v.Canonical) (hle : v.exponent ≤ 971) :
    ∃ (exponent : BitVec 11) (mantissa : BitVec 52), exponent ≠ -1#11 ∧
      v = fieldMagnitude exponent.toNat mantissa.toNat := by
  obtain ⟨m, e⟩ := v
  obtain ⟨hlt, hge, hfull⟩ := h
  simp only at hlt hge hfull hle
  by_cases hm : m < 2 ^ 52
  · refine ⟨0#11, BitVec.ofNat 52 m, by decide, ?_⟩
    obtain rfl : e = -1074 := hfull.resolve_right (by omega)
    have hfraction : (BitVec.ofNat 52 m).toNat = m := by
      rw [BitVec.toNat_ofNat, Nat.mod_eq_of_lt hm]
    rw [hfraction]
    rfl
  · have hbiased : (e + 1075).toNat % 2 ^ 11 = (e + 1075).toNat := Nat.mod_eq_of_lt (by omega)
    refine ⟨BitVec.ofNat 11 (e + 1075).toNat, BitVec.ofNat 52 (m - 2 ^ 52), ?_, ?_⟩
    · intro heq
      have hnat := congrArg BitVec.toNat heq
      rw [BitVec.toNat_ofNat, hbiased] at hnat
      have : (-1#11).toNat = 2047 := rfl
      omega
    · rw [BitVec.toNat_ofNat, BitVec.toNat_ofNat, hbiased, fieldMagnitude, if_neg (by omega),
        Magnitude.mk.injEq]
      omega

/-! ## Doubles -/

def pattern (x : Float) : BitVec Format.binary64.numBits :=
  x.toBits.toBitVec

def signOf (negative : Bool) : Sign :=
  if negative then .negative else .positive

theorem magnitude_eq (x : Float) :
    magnitude x =
      fieldMagnitude (unpackExponent (pattern x)).toNat (unpackMantissa (pattern x)).toNat := by
  simp [unpackExponent, unpackMantissa, Nat.shiftRight_eq_div_pow]
  rfl

theorem signOf_isNegative (x : Float) :
    signOf (isNegative x) = Sign.ofBitVec (unpackSign (pattern x)) := by
  have hlt : (pattern x).toNat < 2 ^ 64 := (pattern x).isLt
  have hsign : (unpackSign (pattern x)).toNat = (pattern x).toNat / 2 ^ 63 := by
    simp [unpackSign, Nat.shiftRight_eq_div_pow]
    omega
  have hcases : (pattern x).toNat / 2 ^ 63 = 0 ∨ (pattern x).toNat / 2 ^ 63 = 1 := by omega
  unfold signOf
  simp only [Sign.ofBitVec, ← BitVec.toNat_inj, hsign, BitVec.toNat_ofNat]
  change (if (pattern x).toNat / 2 ^ 63 == 1 then _ else _) = _
  rcases hcases with h | h <;> rw [h] <;> rfl

theorem exponent_ne_of_isFinite {x : Float} (h : x.isFinite = true) :
    unpackExponent (pattern x) ≠ -1#11 := by
  intro hexp
  have hfinite : (UnpackedFloat.unpack Format.binary64 (pattern x)).isFinite = true := h
  simp only [UnpackedFloat.unpack, hexp, if_true] at hfinite
  split at hfinite <;> exact absurd hfinite Bool.false_ne_true

theorem unpack_eq {x : Float} (h : x.isFinite = true) :
    x.toModel.unpack = (magnitude x).unpacked (signOf (isNegative x)) := by
  rw [signOf_isNegative, magnitude_eq, ← unpack_packComponents _ (exponent_ne_of_isFinite h),
    packComponents_unpack]
  rfl

theorem ofModel_pack {x : Float} (h : x.isFinite = true) :
    Float.ofModel (.pack ((magnitude x).unpacked (signOf (isNegative x)))) = x := by
  have hbits : (Float.Model.pack ((magnitude x).unpacked (signOf (isNegative x)))).toBits =
      x.toModel.toBits := by
    change UInt64.ofBitVec (UnpackedFloat.pack Format.binary64 _) = _
    rw [signOf_isNegative, magnitude_eq, pack_unpacked _ (exponent_ne_of_isFinite h),
      packComponents_unpack]
    rfl
  generalize Float.Model.pack _ = f at hbits ⊢
  obtain ⟨bits, valid⟩ := f
  obtain ⟨⟨bits', valid'⟩⟩ := x
  obtain rfl : bits = bits' := hbits
  rfl

theorem unpack_pack {v : Magnitude} (h : v.Canonical) (hle : v.exponent ≤ 971) (sign : Sign) :
    (Float.Model.pack (v.unpacked sign)).unpack = v.unpacked sign := by
  obtain ⟨exponent, mantissa, hexp, rfl⟩ := h.exists_fields hle
  change UnpackedFloat.unpack _ (UnpackedFloat.pack _ _) = _
  rw [pack_unpacked sign hexp, unpack_packComponents sign hexp]

theorem canonical_magnitude {x : Float} (h : x.isFinite = true) :
    (magnitude x).Canonical ∧ (magnitude x).exponent ≤ 971 := by
  rw [magnitude_eq]
  exact canonical_fieldMagnitude (exponent_ne_of_isFinite h)

end TestBeam.Decimal
