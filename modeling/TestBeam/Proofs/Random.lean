import TestBeam.Dimension
import TestBeam.Proofs.Decimal.Nearest
import TestBeam.Random

/-!
# Outputs of a generator

A generator gives the outputs of its key one after another, from its position on. What is drawn below a
bound is never rounded up to the bound, so each draw takes one output.
-/

namespace TestBeam.Generator

/-! ## Positions -/

def skip (g : Generator) (count : Nat) : Generator :=
  { g with position := g.position + count }

theorem next_skip (g : Generator) (count : Nat) :
    (g.skip count).next = (g.key.output (g.position + count), g.skip (count + 1)) :=
  rfl

theorem repeat_next (g : Generator) (count : Nat) :
    Nat.repeat (fun g => g.next.2) count g = g.skip count := by
  induction count with
  | zero => rfl
  | succ count ih => rw [Nat.repeat, ih, next_skip]

def outputAt (g : Generator) (count : Nat) : UInt64 :=
  (Nat.repeat (fun g => g.next.2) count g).next.1

theorem outputAt_eq (g : Generator) (count : Nat) :
    g.outputAt count = g.key.output (g.position + count) := by
  unfold outputAt
  rw [repeat_next, next_skip]

/-! ## Draws -/

open Decimal

/-- A positive multiple of `2 ^ -52` below one, which a double holds exactly. -/
structure IsMultiple (u : Float) (n : ℕ) (v : Magnitude) : Prop where
  pos : 0 < n
  lt : n < 2 ^ 52
  canonical : v.Canonical
  full : 2 ^ 52 ≤ v.mantissa
  exponent_le : v.exponent ≤ 971
  value : (v.mantissa * 2 ^ v.exponent : ℚ) = n / 2 ^ 52
  unpack : u.toModel.unpack = v.unpacked .positive

theorem exists_isMultiple {n : ℕ} (hpos : 0 < n) (hlt : n < 2 ^ 52) :
    ∃ v, IsMultiple (n.toUInt64.toFloat / 4503599627370496) n v := by
  obtain ⟨k, hk, hfull, hsmall, hunpack⟩ := unpack_toFloat hpos (by omega)
  have hshift : k < 53 := by
    have hpow : 2 ^ k < 2 ^ 53 := (Nat.le_mul_of_pos_left _ hpos).trans_lt hsmall
    exact (Nat.pow_lt_pow_iff_right (by decide)).mp hpow
  have hcanonical : (⟨n * 2 ^ k, -k - 52⟩ : Magnitude).Canonical :=
    ⟨hsmall, by simp only; omega, .inr hfull⟩
  have hvalue : ((n * 2 ^ k : ℕ) * 2 ^ (-k - 52 : ℤ) : ℚ) = n / 2 ^ 52 := by
    push_cast
    rw [zpow_sub₀ (by norm_num), zpow_neg, zpow_natCast]
    field_simp
  have hsteps : (4503599627370496 : Float).toModel.unpack =
      (⟨2 ^ 52, 0⟩ : Magnitude).unpacked .positive := by
    apply unpack_of_magnitude <;> decide +kernel
  have hnumber : n.toUInt64.toFloat.toModel.unpack =
      (⟨n * 2 ^ k, -k⟩ : Magnitude).unpacked .positive := by
    rw [hunpack, Magnitude.unpacked, dif_neg hk.ne']
  have hrounds := (⟨n * 2 ^ k, -k - 52⟩ : Magnitude).rounds_self
  rw [hvalue] at hrounds
  have hle : -(k : ℤ) - 52 ≤ 971 := by omega
  refine ⟨_, hpos, hlt, hcanonical, hfull, hle, hvalue, ?_⟩
  apply unpack_div hnumber hsteps hk (by decide) hcanonical hk hle
  convert hrounds using 1
  push_cast
  rw [zpow_neg, zpow_natCast]
  field_simp
  norm_num

theorem unit_cases (g : Generator) : g.unit.1 = 0 ∨ ∃ n v, IsMultiple g.unit.1 n v := by
  obtain ⟨n, hn⟩ : ∃ n, n = (g.next.1 >>> 12).toNat := ⟨_, rfl⟩
  have hlt : n < 2 ^ 52 := by
    rw [hn, UInt64.toNat_shiftRight, Nat.shiftRight_eq_div_pow]
    exact Nat.div_lt_of_lt_mul g.next.1.toNat_lt
  have hunit : g.unit.1 = n.toUInt64.toFloat / 4503599627370496 := by
    rw [hn, Nat.toUInt64, UInt64.ofNat_toNat]
    rfl
  rw [hunit]
  rcases Nat.eq_zero_or_pos n with rfl | hpos
  · left
    decide +kernel
  · right
    exact ⟨n, exists_isMultiple hpos hlt⟩

theorem unpack_one : (1 : Float).toModel.unpack = (⟨2 ^ 52, -52⟩ : Magnitude).unpacked .positive := by
  apply unpack_of_magnitude <;> decide +kernel

theorem unit_lt_one (g : Generator) : g.unit.1 < 1 := by
  rcases g.unit_cases with h | ⟨n, v, h⟩
  · rw [h]
    decide +kernel
  · have hfull := h.full
    have hlt : (n : ℚ) + 1 ≤ 2 ^ 52 := by exact_mod_cast h.lt
    have hone : (⟨2 ^ 52, -52⟩ : Magnitude).Canonical := ⟨by decide, by decide, .inr le_rfl⟩
    have hrounds := v.rounds_self
    rw [h.value] at hrounds
    apply Magnitude.Precedes.lt h.unpack unpack_one (by omega) (by decide)
    apply hrounds.precedes h.canonical hone
    rw [zpow_neg]
    norm_num at hlt ⊢
    linarith

theorem below_turn_lt (g : Generator) : (g.below (2 * pi)).1 < 2 * pi := by
  -- A multiple of the full angle is at least one unit below it, and stays below it when it is rounded.
  change g.unit.1 * (2 * pi) < 2 * pi
  rcases g.unit_cases with h | ⟨n, v, h⟩
  · rw [h]
    decide +kernel
  · have hpos := h.pos
    have hlt := h.lt
    have hfull := h.full
    have hturn : (2 * pi).toModel.unpack =
        (⟨7074237752028440, -50⟩ : Magnitude).unpacked .positive := by
      apply unpack_of_magnitude <;> decide +kernel
    have hcanonical : (⟨7074237752028440, -50⟩ : Magnitude).Canonical :=
      ⟨by decide, by decide, .inr (by decide)⟩
    have hlog : (n * 7074237752028440).log2 < 105 := by
      apply (Nat.log2_lt (by omega)).mpr
      omega
    obtain ⟨r, hr, hrpos, hrexponent, hrounds⟩ :=
      exists_rounds_of_pos (m := n * 7074237752028440) (t := -102) (by omega) (by omega)
    have hproduct : r.Rounds (v.mantissa * 2 ^ v.exponent *
        ((7074237752028440 : ℕ) * 2 ^ (-50 : ℤ))) := by
      rw [h.value]
      convert hrounds using 1
      push_cast
      norm_num
      ring
    have hbits : 2 ^ 52 ≤ v.mantissa * 7074237752028440 := by omega
    have hdrawn := unpack_mul h.unpack hturn (by omega) (by decide) hr hrpos (by omega) hbits hproduct
    have hmost : (n : ℚ) + 1 ≤ 2 ^ 52 := by exact_mod_cast hlt
    apply Magnitude.Precedes.lt hdrawn hturn hrpos (by decide)
    apply hrounds.precedes hr hcanonical
    push_cast
    norm_num at hmost ⊢
    linarith

theorem unit_mul_one (g : Generator) : g.unit.1 * 1 = g.unit.1 := by
  rcases g.unit_cases with h | ⟨n, v, h⟩
  · rw [h]
    decide +kernel
  · have hfull := h.full
    have hrounds : v.Rounds (v.mantissa * 2 ^ v.exponent * ((2 ^ 52 : ℕ) * 2 ^ (-52 : ℤ))) := by
      convert v.rounds_self using 1
      norm_num
    have hbits : 2 ^ 52 ≤ v.mantissa * 2 ^ 52 := by omega
    apply eq_of_unpacked _ h.unpack
    exact unpack_mul h.unpack unpack_one (by omega) (by decide) h.canonical (by omega) h.exponent_le
      hbits hrounds

theorem below_one (g : Generator) : g.below 1 = g.unit :=
  Prod.ext g.unit_mul_one rfl

/-! ## Repeated draws -/

/-- A draw below a bound, where the next outputs are tried with other scales until one is below it. -/
inductive DrawsBelow : Generator → (bound scale : Float) → Float × Generator → Prop where
  | first {g : Generator} {bound scale : Float} (h : (g.below scale).1 < bound) :
      DrawsBelow g bound scale (g.below scale)
  | again {g : Generator} {bound scale smaller : Float} {drawn : Float × Generator}
      (h : ¬(g.below scale).1 < bound) (hrest : DrawsBelow (g.below scale).2 bound smaller drawn) :
      DrawsBelow g bound scale drawn

theorem drawsBelow_iff {bound : Float} {g : Generator} (h : (g.below bound).1 < bound)
    (drawn : Float × Generator) : g.DrawsBelow bound bound drawn ↔ drawn = g.below bound := by
  constructor
  · intro hdraws
    cases hdraws with
    | first hlt => rfl
    | again hnot hrest => exact absurd h hnot
  · rintro rfl
    exact .first h

theorem draws_once (g : Generator) (drawn : Float × Generator) :
    (g.DrawsBelow 1 1 drawn ↔ drawn = g.unit) ∧
      (g.DrawsBelow (2 * pi) (2 * pi) drawn ↔ drawn = g.below (2 * pi)) := by
  have hunit : (g.below 1).1 < 1 := by
    rw [below_one]
    exact g.unit_lt_one
  rw [drawsBelow_iff hunit, drawsBelow_iff g.below_turn_lt, below_one]
  exact ⟨.rfl, .rfl⟩

end TestBeam.Generator
