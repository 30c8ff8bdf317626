import TestBeam.Proofs.Decimal.RoundTrip
import TestBeam.Setting

/-!
# Normalized settings

A quantity prints as its number and its unit, and that text reads back as the same quantity. So a setting
in normalized form is its own normalized form.
-/

namespace TestBeam

/-! ## Characters -/

theorem isBlank_eq_false {c : Char} (h : 0x21 ≤ c.toNat) (h' : c.toNat ≤ 0x7E) :
    Text.isBlank c = false := by
  simp [Text.isBlank]
  omega

theorem toNat_of_isDigit {c : Char} (h : c.isDigit = true) : 48 ≤ c.toNat ∧ c.toNat ≤ 57 := by
  simpa [Char.isDigit, UInt32.le_iff_toNat_le] using h

theorem toNat_of_isAlpha {c : Char} (h : c.isAlpha = true) : 65 ≤ c.toNat ∧ c.toNat ≤ 122 := by
  simp only [Char.isAlpha, Char.isUpper, Char.isLower, ge_iff_le, UInt32.le_iff_toNat_le,
    Bool.or_eq_true, Bool.and_eq_true, decide_eq_true_eq] at h
  change (65 ≤ c.toNat ∧ c.toNat ≤ 90) ∨ (97 ≤ c.toNat ∧ c.toNat ≤ 122) at h
  omega

theorem isDigit_of_isAlpha {c : Char} (h : c.isAlpha = true) : c.isDigit = false := by
  cases hd : c.isDigit with
  | false => rfl
  | true =>
    have := toNat_of_isAlpha h
    have := toNat_of_isDigit hd
    omega

theorem trimChars_of_no_blank {cs : List Char} (h : ∀ c ∈ cs, Text.isBlank c = false) :
    Text.trimChars cs = cs := by
  have hdrop (ds : List Char) (hds : ∀ c ∈ ds, Text.isBlank c = false) :
      ds.dropWhile Text.isBlank = ds := by
    cases ds with
    | nil => rfl
    | cons d ds => simp [hds d (by simp)]
  unfold Text.trimChars
  rw [hdrop cs h, hdrop cs.reverse fun c hc => h c (by simpa using hc),
    List.reverse_reverse]

/-! ## Printed numbers -/

namespace Decimal

theorem exists_display {x : Float} (h : x.isFinite = true) :
    ∃ negative whole fraction, (display x).toList = signed negative (pointed whole fraction) ∧
      whole ≠ [] ∧ (∀ c ∈ whole, c.isDigit = true) ∧ (∀ c ∈ fraction, c.isDigit = true) ∧
      readFloat (signed negative (pointed whole fraction)) = some x := by
  obtain ⟨whole, fraction, hshape⟩ :=
    exists_shape _ (shortest_magnitude_plain h .up) false
  have hread := readFloat_positional h .up false
  rw [hshape.text] at hread
  refine ⟨isNegative x, whole, fraction, ?_, hshape.whole_ne, hshape.whole_digits,
    hshape.fraction_digits, hread⟩
  unfold display
  rw [print_positional plain (fun _ => rfl) h, String.toList_ofList, ← hshape.text]
  rfl

theorem readInt_letters {letters : List Char} (h : ∀ c ∈ letters, c.isAlpha = true) :
    readInt letters = none := by
  cases letters with
  | nil => rfl
  | cons c cs =>
    have hc := h c (by simp)
    have hdigit := isDigit_of_isAlpha hc
    have hminus : c ≠ '-' := by rintro rfl; simp at hc
    have hplus : c ≠ '+' := by rintro rfl; simp at hc
    simp [readInt, spanSign, hminus, hplus, hdigit]

theorem readExponent_letters {letters : List Char} (hne : letters ≠ [])
    (h : ∀ c ∈ letters, c.isAlpha = true) : readExponent letters = none := by
  obtain ⟨c, cs, rfl⟩ := List.exists_cons_of_ne_nil hne
  have hcs := readInt_letters fun d hd => h d (List.mem_cons_of_mem c hd)
  simp [readExponent, hcs]

theorem readFloat_letters (negative : Bool) {whole fraction letters : List Char} (hwhole : whole ≠ [])
    (hwholeDigits : ∀ c ∈ whole, c.isDigit = true) (hfraction : ∀ c ∈ fraction, c.isDigit = true)
    (hne : letters ≠ []) (h : ∀ c ∈ letters, c.isAlpha = true) :
    readFloat (signed negative (pointed whole fraction) ++ letters) = none := by
  have hsplit : signed negative (pointed whole fraction) ++ letters =
      signed negative (pointed whole fraction ++ letters) := by
    cases negative <;> rfl
  have htail : ∀ c, letters.head? = some c → c.isDigit = false ∧ c ≠ '.' := by
    intro c hc
    have halpha := h c (List.mem_of_head? hc)
    refine ⟨isDigit_of_isAlpha halpha, ?_⟩
    rintro rfl
    simp at halpha
  have hliteral := readLiteral_pointed negative hwhole hwholeDigits hfraction htail
  unfold readFloat
  rw [hsplit, hliteral, readExponent_letters hne h]
  rfl

theorem mem_signed_pointed {negative : Bool} {whole fraction : List Char} {c : Char}
    (hwhole : ∀ c ∈ whole, c.isDigit = true) (hfraction : ∀ c ∈ fraction, c.isDigit = true)
    (h : c ∈ signed negative (pointed whole fraction)) : c = '-' ∨ c = '.' ∨ c.isDigit = true := by
  have hpointed (h : c ∈ pointed whole fraction) : c = '.' ∨ c.isDigit = true := by
    rcases List.mem_append.mp h with h | h
    · exact .inr (hwhole c h)
    · split at h
      · simp at h
      · exact (List.mem_cons.mp h).imp id (hfraction c)
  cases negative with
  | true => exact (List.mem_cons.mp h).imp id hpointed
  | false => exact .inr (hpointed h)

end Decimal

namespace Quantity

/-! ## Cutting a text -/

theorem findSome_cuts {α : Type} (f : List Char × List Char → Option α) {a b : List Char}
    (ha : a ≠ []) {r : α} (hr : f (a, b) = some r)
    (hlonger : ∀ c d, b = c ++ d → c ≠ [] → f (a ++ c, d) = none) :
    (cuts (a ++ b)).findSome? f = some r := by
  have hlen := List.length_pos_iff.mpr ha
  suffices hgen : ∀ n, n ≤ b.length →
      ((List.range (a.length + n)).reverse.map fun m =>
        ((a ++ b).take (m + 1), (a ++ b).drop (m + 1))).findSome? f = some r by
    simpa [cuts] using hgen b.length (Nat.le_refl _)
  intro n hn
  induction n with
  | zero =>
    obtain ⟨k, hk⟩ := Nat.exists_eq_add_one.mpr hlen
    have htake : (a ++ b).take (k + 1) = a := by rw [← hk, List.take_left]
    have hdrop : (a ++ b).drop (k + 1) = b := by rw [← hk, List.drop_left]
    rw [Nat.add_zero, hk, List.range_succ, List.reverse_append, List.reverse_singleton,
      List.singleton_append, List.map_cons, List.findSome?_cons, htake, hdrop, hr]
  | succ n ih =>
    have htake : (a ++ b).take (a.length + n + 1) = a ++ b.take (n + 1) := by
      rw [Nat.add_assoc, List.take_length_add_append]
    have hdrop : (a ++ b).drop (a.length + n + 1) = b.drop (n + 1) := by
      rw [Nat.add_assoc, List.drop_length_add_append]
    have hb : b ≠ [] := List.length_pos_iff.mp (by omega)
    have hnone := hlonger (b.take (n + 1)) (b.drop (n + 1)) (List.take_append_drop _ _).symm
      (by simp [hb])
    rw [← Nat.add_assoc, List.range_succ, List.reverse_append, List.reverse_singleton,
      List.singleton_append, List.map_cons, List.findSome?_cons, htake, hdrop, hnone]
    exact ih (by omega)

/-! ## Quantities with a unit -/

theorem ofParts_eq_some_iff {number letters : List Char} {q : Quantity} :
    ofParts? number letters = some q ↔ (∀ c ∈ letters, c.isAlpha = true) ∧
      Decimal.readFloat number = some q.value ∧ q.value.isFinite = true ∧
      q.unit = if letters = [] then none else some (String.ofList letters) := by
  obtain ⟨value, unit⟩ := q
  unfold ofParts?
  by_cases halpha : letters.all Char.isAlpha = true
  · rw [if_pos halpha, Option.bind_eq_some_iff]
    rw [List.all_eq_true] at halpha
    constructor
    · rintro ⟨x, hread, hx⟩
      split at hx
      · rename_i hfinite
        obtain ⟨rfl, rfl⟩ := Quantity.mk.inj (Option.some.inj hx)
        exact ⟨halpha, hread, hfinite, by simp⟩
      · cases hx
    · rintro ⟨-, hread, hfinite, hunit⟩
      refine ⟨value, hread, ?_⟩
      simp only at hfinite hunit
      simp [hfinite, hunit]
  · rw [if_neg halpha]
    rw [List.all_eq_true] at halpha
    simp [halpha]

/-- A text is a quantity if its longest numeric first part is followed by letters only. -/
theorem withUnit_append {number letters : List Char} {x : Float}
    (hblank : ∀ c ∈ number ++ letters, Text.isBlank c = false)
    (hstart : startsNumeric (number ++ letters) = true) (hnumber : number ≠ [])
    (hletters : letters ≠ []) (halpha : ∀ c ∈ letters, c.isAlpha = true)
    (hx : x.isFinite = true) (hread : Decimal.readFloat number = some x)
    (hlonger : ∀ c d, letters = c ++ d → c ≠ [] → Decimal.readFloat (number ++ c) = none) :
    withUnit? (String.ofList (number ++ letters)) = some ⟨x, some (String.ofList letters)⟩ := by
  have hparts : ofParts? number letters = some ⟨x, some (String.ofList letters)⟩ :=
    ofParts_eq_some_iff.mpr ⟨halpha, hread, hx, by simp [hletters]⟩
  have hcuts : (cuts (number ++ letters)).findSome? (fun p => ofParts? p.1 p.2) =
      some ⟨x, some (String.ofList letters)⟩ := by
    apply findSome_cuts _ hnumber hparts
    intro c d hsplit hc
    simp [ofParts?, hlonger c d hsplit hc]
  have hnone : (number ++ letters).any Text.isBlank = false :=
    List.any_eq_false.mpr fun c hc => by simp [hblank c hc]
  have hempty : (number ++ letters).isEmpty = false := by simp [hnumber]
  unfold withUnit? parse
  simp only [String.toList_ofList, trimChars_of_no_blank hblank, hnone, hempty,
    hstart]
  simp [hcuts]

theorem withUnit_display {x : Float} (hx : x.isFinite = true) {letters : List Char}
    (hne : letters ≠ []) (h : ∀ c ∈ letters, c.isAlpha = true) :
    withUnit? (Decimal.display x ++ String.ofList letters) =
      some ⟨x, some (String.ofList letters)⟩ := by
  obtain ⟨negative, whole, fraction, htext, hwhole, hwholeDigits, hfraction, hread⟩ :=
    Decimal.exists_display hx
  have hmem : ∀ c ∈ Decimal.signed negative (Decimal.pointed whole fraction),
      c = '-' ∨ c = '.' ∨ c.isDigit = true :=
    fun c hc => Decimal.mem_signed_pointed hwholeDigits hfraction hc
  have hcons : ∃ c cs, Decimal.signed negative (Decimal.pointed whole fraction) = c :: cs := by
    obtain ⟨c, cs, rfl⟩ := List.exists_cons_of_ne_nil hwhole
    cases negative <;> exact ⟨_, _, rfl⟩
  have hjoin : Decimal.display x ++ String.ofList letters =
      String.ofList (Decimal.signed negative (Decimal.pointed whole fraction) ++ letters) := by
    rw [String.ofList_append, ← htext, String.ofList_toList]
  rw [hjoin]
  refine withUnit_append ?_ ?_ ?_ hne h hx hread ?_
  · intro c hc
    rcases List.mem_append.mp hc with hc | hc
    · rcases hmem c hc with rfl | rfl | hdigit
      · decide
      · decide
      · have := toNat_of_isDigit hdigit
        exact isBlank_eq_false (by omega) (by omega)
    · have := toNat_of_isAlpha (h c hc)
      exact isBlank_eq_false (by omega) (by omega)
  · obtain ⟨c, cs, hcons⟩ := hcons
    have hc := hmem c (by simp [hcons])
    rw [hcons]
    rcases hc with rfl | rfl | hdigit
    · rfl
    · rfl
    · simp [startsNumeric, hdigit]
  · obtain ⟨c, cs, hcons⟩ := hcons
    simp [hcons]
  · -- With letters behind it the number is no literal any more.
    intro c d hsplit hc
    exact Decimal.readFloat_letters negative hwhole hwholeDigits hfraction hc
      fun e he => h e (by simp [hsplit, he])

theorem ofParts_eq_some {number letters : List Char} {q : Quantity}
    (h : ofParts? number letters = some q) (hunit : q.unit.isSome = true) :
    q.value.isFinite = true ∧ letters ≠ [] ∧ (∀ c ∈ letters, c.isAlpha = true) ∧
      q = ⟨q.value, some (String.ofList letters)⟩ := by
  obtain ⟨halpha, -, hfinite, heq⟩ := ofParts_eq_some_iff.mp h
  by_cases hnil : letters = []
  · simp [heq, hnil] at hunit
  · rw [if_neg hnil] at heq
    exact ⟨hfinite, hnil, halpha, by rw [← heq]⟩

theorem parse_of_withUnit {text : String} {q : Quantity} (h : withUnit? text = some q) :
    parse text = .ok q ∧ q.unit.isSome = true := by
  unfold withUnit? at h
  split at h
  · cases h
  · split at h
    · rename_i p hparse
      split at h
      · rename_i hunit
        obtain rfl := Option.some.inj h
        exact ⟨hparse, hunit⟩
      · cases h
    · cases h

theorem exists_parts {text : String} {q : Quantity} (h : withUnit? text = some q) :
    ∃ number letters, Text.trimChars text.toList = number ++ letters ∧
      ofParts? number letters = some q ∧ q.unit.isSome = true := by
  obtain ⟨hparse, hunit⟩ := parse_of_withUnit h
  simp only [parse] at hparse
  split at hparse
  · cases hparse
  split at hparse
  · cases hparse
  split at hparse
  · rename_i hfound
    obtain rfl := Except.ok.inj hparse
    obtain ⟨cut, hmem, hcut⟩ := List.exists_of_findSome?_eq_some hfound
    obtain ⟨n, -, rfl⟩ := List.mem_map.mp hmem
    exact ⟨_, _, (List.take_append_drop (n + 1) _).symm, hcut, hunit⟩
  · cases hparse

/-- A quantity that was read prints as a text that reads as the same quantity. -/
theorem withUnit_display_of_withUnit {text : String} {q : Quantity} (h : withUnit? text = some q) :
    withUnit? q.display = some q := by
  obtain ⟨number, letters, -, hq, hunit⟩ := exists_parts h
  obtain ⟨hfinite, hne, halpha, heq⟩ := ofParts_eq_some hq hunit
  rw [heq]
  exact withUnit_display hfinite hne halpha

end Quantity

namespace Setting

theorem ofText_display_of_quantity {text : String} {q : Quantity} (h : ofText text = .quantity q) :
    ofText q.display = .quantity q := by
  unfold ofText at h
  split at h
  · rename_i p hp
    obtain rfl := Setting.quantity.inj h
    simp [ofText, Quantity.withUnit_display_of_withUnit hp]
  · simp at h

theorem normalized_ofText (text : String) : (ofText text).normalized = ofText text := by
  cases h : Quantity.withUnit? text with
  | none => simp [ofText, h, normalized]
  | some q =>
    have hquantity : ofText text = .quantity q := by simp [ofText, h]
    rw [hquantity]
    exact ofText_display_of_quantity hquantity

theorem display_of_not_finite {x : Float} (h : x.isFinite = false) :
    Decimal.display x ∈ ["NaN", "inf", "-inf"] := by
  unfold Decimal.display Decimal.Layout.print
  split
  · simp [Decimal.plain]
  · rw [h, Bool.not_false, if_pos rfl]
    generalize Decimal.isNegative x = negative
    cases negative <;> decide

theorem withUnit_of_not_finite {x : Float} (h : x.isFinite = false) :
    Quantity.withUnit? (Decimal.display x) = none := by
  have hmem := display_of_not_finite h
  simp only [List.mem_cons, List.not_mem_nil, or_false] at hmem
  obtain heq | heq | heq := hmem
  · rw [heq]
    rfl
  · rw [heq]
    rfl
  · rw [heq]
    rfl

theorem normalized_normalized (v : Setting) : v.normalized.normalized = v.normalized := by
  cases v with
  | text s => exact normalized_ofText s
  | integer i => rfl
  | float x =>
    cases h : x.isFinite with
    | true => simp [normalized, h]
    | false => simp [normalized, h, ofText, withUnit_of_not_finite h]
  | boolean b => rfl
  | quantity q => exact normalized_ofText q.display

/-! ## Equality -/

theorem isFinite_of_normalized {x : Float} (h : (float x).normalized = float x) :
    x.isFinite = true := by
  by_contra hnot
  simp [normalized, hnot] at h

theorem quantity_isFinite_of_normalized {q : Quantity}
    (h : (quantity q).normalized = quantity q) : q.value.isFinite = true := by
  unfold normalized at h
  simp only [ofText] at h
  split at h
  · rename_i p hp
    obtain rfl := Setting.quantity.inj h
    obtain ⟨number, letters, -, hparts, hunit⟩ := Quantity.exists_parts hp
    exact (Quantity.ofParts_eq_some hparts hunit).1
  · cases h

theorem beq_self_of_normalized {v : Setting} (h : v.normalized = v) : (v == v) = true := by
  cases v with
  | text s => exact beq_self_eq_true s
  | integer i => exact beq_self_eq_true i
  | float x => exact Decimal.finite_beq_self (isFinite_of_normalized h)
  | boolean b => exact beq_self_eq_true b
  | quantity q =>
    have hvalue := Decimal.finite_beq_self (quantity_isFinite_of_normalized h)
    have hunit := beq_self_eq_true q.unit
    change (q.value == q.value && q.unit == q.unit) = true
    rw [hvalue, hunit]
    rfl

end Setting

end TestBeam
