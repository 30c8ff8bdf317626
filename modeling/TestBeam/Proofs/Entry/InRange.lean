import TestBeam.Proofs.Decimal.Overflow
import TestBeam.Proofs.Entry.Reading
import TestBeam.Proofs.Quantity.Grammar

/-!
# Quantities in range

A quantity is read as a finite number and then multiplied by the factor of its unit. What is converted is
finite exactly if the exact product is in the range of doubles, which is not checked.
-/

namespace TestBeam

/-! ## Units -/

theorem Dimension.mem_all (d : Dimension) : d ∈ all := by
  cases d <;> decide

namespace MeasureUnit

/-- Every symbol of the table stands for its own unit. -/
theorem find?_of_mem {unit : MeasureUnit} (h : unit ∈ table) : find? unit.symbol = some unit := by
  have hdistinct : (table.map symbol).Nodup := by decide +kernel
  unfold find?
  cases hfound : table.find? (·.symbol == unit.symbol) with
  | none => simpa using List.find?_eq_none.mp hfound unit h
  | some found =>
    have hsymbol : found.symbol = unit.symbol := by simpa using List.find?_some hfound
    have hmem := List.mem_of_find?_eq_some hfound
    rw [List.inj_on_of_nodup_map hdistinct hmem h hsymbol]

/-- Whatever is measured has an internal unit, but for magnetic fields, which are given in teslas. -/
theorem exists_internal {d : Dimension} (hmeasured : d ≠ .dimensionless) (hfield : d ≠ .magneticField) :
    ∃ symbol unit, find? symbol = some unit ∧ unit.dimension = d ∧ unit.factor = 1 := by
  have hall : Dimension.all.all (fun d => d = .dimensionless || d = .magneticField ||
      table.any fun unit => unit.dimension = d && unit.factor = 1) = true := by
    decide +kernel
  have hany : ∃ unit ∈ table, unit.dimension = d ∧ unit.factor = 1 := by
    simpa [hmeasured, hfield] using List.all_eq_true.mp hall d d.mem_all
  obtain ⟨unit, hunit, hd, hfactor⟩ := hany
  exact ⟨unit.symbol, unit, find?_of_mem hunit, hd, hfactor⟩

theorem factor_normal {symbol : String} {unit : MeasureUnit} (h : find? symbol = some unit) :
    unit.factor.isFinite = true ∧ 2 ^ 52 ≤ (Decimal.magnitude unit.factor).mantissa := by
  have hall : table.all (fun unit => unit.factor.isFinite &&
      decide (2 ^ 52 ≤ (Decimal.magnitude unit.factor).mantissa)) = true := by decide +kernel
  have hunit := List.all_eq_true.mp hall unit (List.mem_of_find?_eq_some h)
  simpa using hunit

def large : List String :=
  ["cm", "m", "us", "ms", "s", "GeV", "TeV", "ke", "fC", "C"]

theorem factor_le_one {symbol : String} {unit : MeasureUnit} (h : find? symbol = some unit)
    (hsymbol : symbol ∉ large) : (Decimal.magnitude unit.factor).ratio.value ≤ 1 := by
  have hall : table.all (fun unit => decide (unit.symbol ∈ large) ||
      decide ((Decimal.magnitude unit.factor).ratio.numerator ≤
        (Decimal.magnitude unit.factor).ratio.denominator)) = true := by decide +kernel
  have hunit := List.all_eq_true.mp hall unit (List.mem_of_find?_eq_some h)
  have hname : unit.symbol = symbol := by simpa using List.find?_some h
  have hle : (Decimal.magnitude unit.factor).ratio.numerator ≤
      (Decimal.magnitude unit.factor).ratio.denominator := by
    simpa [hname, hsymbol] using hunit
  have hpos : (0 : ℚ) < (Decimal.magnitude unit.factor).ratio.denominator := by
    exact_mod_cast Decimal.ratio_denominator_pos _
  unfold Decimal.Ratio.value
  rw [div_le_one hpos]
  exact_mod_cast hle

end MeasureUnit

/-! ## Quantities -/

namespace Quantity

/-- The exact value in internal units rounds to a finite double. -/
def InRange (q : Quantity) : Prop :=
  ∀ symbol unit, q.unit = some symbol → MeasureUnit.find? symbol = some unit →
    (Decimal.magnitude q.value).ratio.value * (Decimal.magnitude unit.factor).ratio.value <
      Decimal.limit

variable {text : String} {q : Quantity} {d : Dimension} {x : Float}

theorem inRange_of_no_unit (h : q.unit = none) : q.InRange := by
  intro symbol unit hsymbol
  rw [h] at hsymbol
  cases hsymbol

theorem inRange_of_not_large (hq : q.value.isFinite = true)
    (h : ∀ symbol, q.unit = some symbol → symbol ∉ MeasureUnit.large) : q.InRange := by
  intro symbol unit hsymbol hunit
  have hnonneg : 0 ≤ (Decimal.magnitude q.value).ratio.value := by
    unfold Decimal.Ratio.value
    positivity
  calc (Decimal.magnitude q.value).ratio.value * (Decimal.magnitude unit.factor).ratio.value
      ≤ (Decimal.magnitude q.value).ratio.value * 1 :=
        mul_le_mul_of_nonneg_left (MeasureUnit.factor_le_one hunit (h symbol hsymbol)) hnonneg
    _ < Decimal.limit := by
      rw [mul_one]
      exact Decimal.value_lt_limit hq

theorem toInternal_isFinite_iff (hq : q.value.isFinite = true) (h : q.toInternal d = .ok x) :
    x.isFinite = true ↔ q.InRange := by
  unfold toInternal at h
  split at h
  case h_1 hnone =>
    obtain rfl := Except.ok.inj h
    exact iff_of_true hq (inRange_of_no_unit hnone)
  case h_2 symbol hsymbol =>
    split at h
    case h_1 => cases h
    case h_2 unit hunit =>
      split at h
      · obtain rfl := Except.ok.inj h
        obtain ⟨hfactor, hnormal⟩ := MeasureUnit.factor_normal hunit
        rw [Decimal.isFinite_mul_iff hq hfactor hnormal]
        constructor
        · intro hrange symbol' unit' hsymbol' hunit'
          obtain rfl := Option.some.inj (hsymbol.symm.trans hsymbol')
          obtain rfl := Option.some.inj (hunit.symm.trans hunit')
          exact hrange
        · intro hrange
          exact hrange symbol unit hsymbol hunit
      · cases h

theorem isFinite_of_parse (h : parse text = .ok q) : q.value.isFinite = true :=
  (parse_ok_iff.mp h).finite

theorem read_isFinite_iff (h : read text d = .ok x) :
    ∃ q, parse text = .ok q ∧ (x.isFinite = true ↔ q.InRange) := by
  obtain ⟨q, hparse, hconvert⟩ := exists_of_bind_ok h
  exact ⟨q, hparse, toInternal_isFinite_iff (isFinite_of_parse hparse) hconvert⟩

theorem isWord_of_parse (h : parse text = .ok q) : Text.IsWord (Text.trim text) := by
  obtain ⟨-, hparts⟩ := readsAs_iff.mp (parse_ok_iff.mp h)
  obtain ⟨hne, hnumeric⟩ := isNumeric_of_ofParts hparts
  rw [front_append_ending] at hnumeric
  refine Decimal.isWord_of_isNumeric (fun hnil => hne ?_) hnumeric
  have hfront := front_append_ending (Text.trimChars text.toList)
  rw [hnil] at hfront ⊢
  exact (List.append_eq_nil_iff.mp hfront).1

end Quantity

/-! ## Settings -/

namespace Setting

/-- All quantities in the text of the setting are in range. -/
def InRange (v : Setting) : Prop :=
  ∀ word ∈ Text.words v.display, ∀ q, Quantity.parse word = .ok q → q.InRange

variable {v : Setting} {q : Quantity}

theorem parse_of_normalized (h : (quantity q).normalized = quantity q) :
    Quantity.parse q.display = .ok q := by
  unfold normalized at h
  simp only [ofText] at h
  split at h
  · rename_i p hp
    obtain rfl := Setting.quantity.inj h
    exact (Quantity.parse_of_withUnit hp).1
  · cases h

theorem inRange_iff_of_parse (h : Quantity.parse v.display = .ok q) : v.InRange ↔ q.InRange := by
  have hwords : Text.words v.display = [Text.trim v.display] := by
    rw [← Text.words_trim, (Quantity.isWord_of_parse h).words]
  unfold InRange
  rw [hwords, List.forall_mem_singleton, Quantity.parse_trim, h]
  simp

end Setting

/-! ## Getters -/

def Vec3.IsFinite (w : Vec3 Float) : Prop :=
  w.x.isFinite = true ∧ w.y.isFinite = true ∧ w.z.isFinite = true

namespace Entry

variable {entry : Entry} {key : String} {v : Setting} {d : Dimension} {x : Float}

theorem ok_of_withUnits {α : Type} {r : Except UnitError α} {y : α}
    (h : entry.withUnits key v r = .ok y) : r = .ok y := by
  cases r with
  | ok z => exact congrArg Except.ok (Except.ok.inj h)
  | error cause => cases h

theorem isFinite_of_read {text : String} (h : Quantity.read text d = .ok x) :
    x.isFinite = true ↔ (Setting.text text).InRange := by
  obtain ⟨q, hparse, hfinite⟩ := Quantity.read_isFinite_iff h
  rw [hfinite, Setting.inRange_iff_of_parse (v := .text text) hparse]

theorem inRange_of_readFloat {y : Float} (hword : Text.IsWord v.display)
    (hread : Decimal.readFloat v.display.toList = some y) (hy : y.isFinite = true) : v.InRange := by
  have hchars : Text.trimChars v.display.toList = v.display.toList := by
    rw [← Quantity.toList_trim, isWord_trim hword]
  have hparse : Quantity.parse v.display = .ok ⟨y, none⟩ :=
    Quantity.parse_of_readFloat (by rw [hchars, hread]) hy
  exact (Setting.inRange_iff_of_parse hparse).mpr (Quantity.inRange_of_no_unit rfl)

theorem quantity_isFinite_iff (hnormal : v.normalized = v) (hget : entry.get? key = some v)
    (h : entry.quantity key d = .ok x) : x.isFinite = true ↔ v.InRange := by
  unfold quantity at h
  rw [require_of_get hget] at h
  cases v with
  | text s => exact isFinite_of_read (ok_of_withUnits h)
  | quantity q =>
    have hparse := Setting.parse_of_normalized hnormal
    rw [Quantity.toInternal_isFinite_iff (Quantity.isFinite_of_parse hparse) (ok_of_withUnits h)]
    exact (Setting.inRange_iff_of_parse (v := .quantity q) hparse).symm
  | integer i =>
    obtain rfl := Except.ok.inj h
    obtain ⟨y, hread, hfinite, hsame⟩ := Decimal.readFloat_of_readInt64 (Decimal.readInt64_integer i)
    have hrange := inRange_of_readFloat (v := .integer i) (Decimal.isWord_integer i.toInt)
      (by rw [Setting.display, String.toList_ofList, hread]) hfinite
    exact iff_of_true (Decimal.isFinite_of_beq hsame hfinite) hrange
  | float y =>
    obtain rfl := Except.ok.inj h
    have hfinite := Setting.isFinite_of_normalized hnormal
    obtain ⟨negative, whole, fraction, htext, -, -, -, hread⟩ := Decimal.exists_display hfinite
    have hrange := inRange_of_readFloat (v := .float y) (Decimal.isWord_display hfinite)
      (by rw [Setting.display, htext, hread]) hfinite
    exact iff_of_true hfinite hrange
  | boolean b => cases h

theorem isFinite_of_readVector {w : Vec3 Float} (h : Quantity.readVector v.display d = .ok w) :
    w.IsFinite ↔ v.InRange := by
  obtain ⟨a, b, c, hwords, ha, hb, hc⟩ := (Quantity.readVector_ok_iff rfl w.x w.y w.z).mp h
  obtain ⟨p, hp, hx⟩ := Quantity.read_isFinite_iff ha
  obtain ⟨q, hq, hy⟩ := Quantity.read_isFinite_iff hb
  obtain ⟨r, hr, hz⟩ := Quantity.read_isFinite_iff hc
  unfold Vec3.IsFinite Setting.InRange
  rw [hwords, hx, hy, hz]
  simp [hp, hq, hr]

/-- What the getters give is finite exactly if the setting, or the default in its place, is in range. -/
structure FiniteInRange (entry : Entry) (key : String) (d : Dimension) : Prop where
  quantity : ∀ x, entry.quantity key d = .ok x →
    ∃ v, entry.get? key = some v ∧ (x.isFinite = true ↔ v.InRange)
  vector : ∀ w, entry.vector key d = .ok w →
    ∃ v, entry.get? key = some v ∧ (w.IsFinite ↔ v.InRange)
  quantityOr : ∀ default x, entry.quantityOr key d default = .ok x →
    (x.isFinite = true ↔ ((entry.get? key).getD (.text default)).InRange)
  vectorOr : ∀ default w, entry.vectorOr key d default = .ok w →
    (w.IsFinite ↔ ((entry.get? key).getD (.text default)).InRange)

theorem Normal.normalized_of_get? (h : entry.Normal) (hget : entry.get? key = some v) :
    v.normalized = v := by
  obtain ⟨before, after, hsplit, -⟩ := List.lookup_eq_some_iff.mp hget
  exact h.settings (key, v) (by simp [hsplit])

theorem get?_of_require (h : entry.require key = .ok v) : entry.get? key = some v := by
  unfold require at h
  split at h
  · rename_i w hget
    obtain rfl := Except.ok.inj h
    exact hget
  · cases h

theorem Normal.finiteInRange (h : entry.Normal) (key : String) (d : Dimension) :
    entry.FiniteInRange key d := by
  have hquantity (x : Float) (hx : entry.quantity key d = .ok x) :
      ∃ v, entry.get? key = some v ∧ (x.isFinite = true ↔ v.InRange) := by
    obtain ⟨v, hrequire, -⟩ := exists_of_bind_ok hx
    have hget := get?_of_require hrequire
    exact ⟨v, hget, quantity_isFinite_iff (h.normalized_of_get? hget) hget hx⟩
  have hvector (w : Vec3 Float) (hw : entry.vector key d = .ok w) :
      ∃ v, entry.get? key = some v ∧ (w.IsFinite ↔ v.InRange) := by
    obtain ⟨v, hrequire, hread⟩ := exists_of_bind_ok hw
    exact ⟨v, get?_of_require hrequire, isFinite_of_readVector (ok_of_withUnits hread)⟩
  refine ⟨hquantity, hvector, fun default x hx => ?_, fun default w hw => ?_⟩
  · unfold quantityOr has at hx
    cases hget : entry.get? key with
    | none =>
      rw [hget] at hx
      exact isFinite_of_read (ok_of_withUnits hx)
    | some v =>
      rw [hget] at hx
      exact quantity_isFinite_iff (h.normalized_of_get? hget) hget hx
  · unfold vectorOr has at hw
    cases hget : entry.get? key with
    | none =>
      rw [hget] at hw
      exact isFinite_of_readVector (v := .text default) (ok_of_withUnits hw)
    | some v =>
      rw [hget] at hw
      obtain ⟨v', hget', hfinite⟩ := hvector w hw
      obtain rfl := Option.some.inj (hget.symm.trans hget')
      exact hfinite

/--
A quantity that is read and converted is finite exactly if the exact product of its number and the factor of
its unit is in the range of doubles. Under a unit that is not greater than the internal one it always is. The
same holds of what the getters of an entry give.
-/
theorem converted_finite_iff (d : Dimension) :
    (∀ text x, Quantity.read text d = .ok x →
      ∃ q, Quantity.parse text = .ok q ∧ q.value.isFinite = true ∧
        (x.isFinite = true ↔ q.InRange)) ∧
      (∀ q : Quantity, q.value.isFinite = true →
        (∀ symbol, q.unit = some symbol → symbol ∉ MeasureUnit.large) → q.InRange) ∧
      ∀ c : Configuration, c.Built → ∀ entry ∈ c.entries, ∀ key, entry.FiniteInRange key d := by
  refine ⟨fun text x h => ?_, fun q => Quantity.inRange_of_not_large, ?_⟩
  · obtain ⟨q, hparse, hfinite⟩ := Quantity.read_isFinite_iff h
    exact ⟨q, hparse, Quantity.isFinite_of_parse hparse, hfinite⟩
  · intro c hc entry hentry key
    exact (hc.entries_built entry hentry).normal.finiteInRange key d

theorem converted_finite_gigaelectronvolt :
    ∃ q x, Quantity.parse "2GeV" = .ok q ∧ Quantity.read "2GeV" .energy = .ok x ∧ q.InRange ∧
      (Quantity.mk 2 (some "mm")).InRange ∧
      (ofPairs "source" [("energy", .text "2GeV")]).FiniteInRange "energy" .energy := by
  obtain ⟨hread, hsmall, hgetters⟩ := converted_finite_iff .energy
  have hconverted : (Quantity.read "2GeV" .energy).toOption.map Float.isFinite = some true := by
    decide +kernel
  have hbuilt : (Configuration.setGlobal {} (ofPairs "source" [("energy", .text "2GeV")])).Built :=
    .setGlobal .new (.ofPairs "source" [("energy", .text "2GeV")])
  obtain ⟨x, hx, hxfinite⟩ := exists_of_toOption hconverted
  obtain ⟨q, hparse, -, hfinite⟩ := hread _ x hx
  exact ⟨q, x, hparse, hx, hfinite.mp hxfinite,
    hsmall ⟨2, some "mm"⟩ (by decide +kernel) (by simp [MeasureUnit.large]),
    hgetters _ hbuilt _ (by simp [Configuration.entries, Configuration.setGlobal]) "energy"⟩

/-- The number is finite and the product is not, and the getters hand it on. -/
theorem tera_overflows :
    (∃ q, Quantity.parse "1e308TeV" = .ok q ∧ q.value.isFinite = true) ∧
      (∃ x, Quantity.read "1e308TeV" .energy = .ok x ∧ x.isFinite = false) ∧
      ∃ x, (ofPairs "source" [("energy", .text "1e308TeV")]).quantity "energy" .energy = .ok x ∧
        x.isFinite = false := by
  have hparse : (Quantity.parse "1e308TeV").toOption.map (fun q => q.value.isFinite) = some true := by
    decide +kernel
  have hread : (Quantity.read "1e308TeV" .energy).toOption.map Float.isFinite = some false := by
    decide +kernel
  have hquantity : ((ofPairs "source" [("energy", .text "1e308TeV")]).quantity "energy"
      .energy).toOption.map Float.isFinite = some false := by decide +kernel
  exact ⟨exists_of_toOption hparse, exists_of_toOption hread, exists_of_toOption hquantity⟩

end Entry

end TestBeam
