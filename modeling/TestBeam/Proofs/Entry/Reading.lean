import TestBeam.Proofs.Entry.Written
import TestBeam.Proofs.Quantity.Reading

/-!
# What modules read from an entry

A setting is stored as text, a number or a quantity, depending on how it is written. Each getter reads
the number that stands in the text, whatever it is stored as.
-/

namespace TestBeam

/-! ## The same number -/

/-- Zero has two signs, and not-a-number counts as the same as itself. -/
def SameNumber (x y : Float) : Prop :=
  (x == y) = true ∨ x.isNaN = true ∧ y.isNaN = true

theorem SameNumber.refl (x : Float) : SameNumber x x := by
  open Float.Model in
  have hcases : x.toModel.unpack.beq x.toModel.unpack = true ∨ x.toModel.unpack.isNaN = true := by
    cases x.toModel.unpack with
    | finite sign m e hm => cases sign <;> simp [UnpackedFloat.beq, UnpackedFloat.compare]
    | zero sign => exact .inl rfl
    | infinity sign => cases sign <;> exact .inl rfl
    | notANumber => exact .inr rfl
  exact hcases.imp id fun h => ⟨h, h⟩

def SameVector (v w : Vec3 Float) : Prop :=
  SameNumber v.x w.x ∧ SameNumber v.y w.y ∧ SameNumber v.z w.z

theorem SameVector.refl (v : Vec3 Float) : SameVector v v :=
  ⟨.refl v.x, .refl v.y, .refl v.z⟩

theorem rel_refl {α : Type} {same : α → α → Prop} (h : ∀ x, same x x) (x? : Option α) :
    Option.Rel same x? x? := by
  cases x? with
  | none => exact .none
  | some x => exact .some (h x)

namespace Entry

/-- Each getter gives the number that is read from the text itself, and fails where that fails. -/
structure ReadsText (entry : Entry) (key text : String) : Prop where
  quantity : ∀ d, Option.Rel SameNumber (entry.quantity key d).toOption
    (Quantity.read text d).toOption
  vector : ∀ d, Option.Rel SameVector (entry.vector key d).toOption
    (Quantity.readVector text d).toOption
  integer : (entry.integer key).toOption = Decimal.readInt64 (Text.trimChars text.toList)
  float : Option.Rel SameNumber (entry.float key).toOption
    (Decimal.readFloat (Text.trimChars text.toList))

variable {entry : Entry} {key text : String} {v : Setting}

/-! ## Getters of a stored setting -/

theorem require_of_get (h : entry.get? key = some v) : entry.require key = .ok v := by
  unfold require
  rw [h]

theorem toOption_withUnits {α : Type} (r : Except UnitError α) :
    (entry.withUnits key v r).toOption = r.toOption := by
  cases r <;> rfl

theorem toOption_vector (h : entry.get? key = some v) (d : Dimension) :
    (entry.vector key d).toOption = (Quantity.readVector v.display d).toOption := by
  unfold vector
  rw [require_of_get h]
  exact toOption_withUnits _

theorem toOption_integer_text {s : String} (h : entry.get? key = some (.text s)) :
    (entry.integer key).toOption = Decimal.readInt64 (Text.trimChars s.toList) := by
  unfold integer
  simp only [require_of_get h, bind, Except.bind]
  cases Decimal.readInt64 (Text.trimChars s.toList) <;> rfl

theorem toOption_float_text {s : String} (h : entry.get? key = some (.text s)) :
    (entry.float key).toOption = Decimal.readFloat (Text.trimChars s.toList) := by
  unfold float
  simp only [require_of_get h, bind, Except.bind]
  cases Decimal.readFloat (Text.trimChars s.toList) <;> rfl

theorem toOption_quantity_text {s : String} (h : entry.get? key = some (.text s)) (d : Dimension) :
    (entry.quantity key d).toOption = (Quantity.read s d).toOption := by
  unfold quantity
  rw [require_of_get h]
  exact toOption_withUnits _

theorem toOption_quantity_unit {q : Quantity} (h : entry.get? key = some (.quantity q))
    (d : Dimension) : (entry.quantity key d).toOption = (q.toInternal d).toOption := by
  unfold quantity
  rw [require_of_get h]
  exact toOption_withUnits _

/-! ## Text and quantities -/

theorem readsText_of_text (h : entry.get? key = some (.text text)) : entry.ReadsText key text where
  quantity d := by
    rw [toOption_quantity_text h]
    exact rel_refl .refl _
  vector d := by
    rw [toOption_vector h]
    exact rel_refl .refl _
  integer := toOption_integer_text h
  float := by
    rw [toOption_float_text h]
    exact rel_refl .refl _

theorem vector_of_isWord (h : entry.get? key = some v) (hdisplay : Text.IsWord (Text.trim v.display))
    (htext : Text.IsWord (Text.trim text)) (d : Dimension) :
    Option.Rel SameVector (entry.vector key d).toOption (Quantity.readVector text d).toOption := by
  -- Both fail, since one word is not three quantities.
  rw [toOption_vector h, Quantity.readVector_of_isWord hdisplay, Quantity.readVector_of_isWord htext]
  exact .none

theorem isWord_trim {s : String} (h : Text.IsWord s) : Text.trim s = s := by
  have hblank : ∀ c ∈ s.toList, Text.isBlank c = false := by
    intro c hc
    have hjoined := h.joined c hc
    simp only [Text.isSeparator, Bool.or_eq_false_iff] at hjoined
    exact hjoined.1
  unfold Text.trim
  rw [trimChars_of_no_blank hblank, String.ofList_toList]

theorem readsText_of_unit {q : Quantity} (hq : Quantity.withUnit? text = some q)
    (h : entry.get? key = some (.quantity q)) : entry.ReadsText key text := by
  obtain ⟨hinteger, hfloat⟩ := Quantity.no_number_of_withUnit hq
  obtain ⟨hdisplay, htext⟩ := Quantity.isWord_of_withUnit hq
  obtain ⟨number, letters, -, -, hunit⟩ := Quantity.exists_parts hq
  obtain ⟨x, unit?⟩ := q
  obtain ⟨unit, rfl⟩ := Option.isSome_iff_exists.mp hunit
  refine ⟨fun d => ?_, ?_, ?_, ?_⟩
  · unfold Quantity.read
    rw [toOption_quantity_unit h, (Quantity.parse_of_withUnit hq).1]
    exact rel_refl .refl _
  · exact vector_of_isWord h ((isWord_trim hdisplay).symm ▸ hdisplay) htext
  · rw [hinteger, integer, require_of_get h]
    rfl
  · rw [hfloat, float, require_of_get h]
    exact .none

theorem readsText_ofText (h : entry.get? key = some (.ofText text)) : entry.ReadsText key text := by
  unfold Setting.ofText at h
  cases hq : Quantity.withUnit? text with
  | none => exact readsText_of_text (by rw [h, hq])
  | some q => exact readsText_of_unit hq (by rw [h, hq])

/-! ## Values of overrides -/

theorem readsText_of_boolean {b : Bool} (hb : Text.trim text = if b then "true" else "false")
    (h : entry.get? key = some (.boolean b)) : entry.ReadsText key text := by
  have hword : Text.IsWord (Text.trim text) := by
    rw [hb]
    cases b <;> exact ⟨by decide, by simp [Text.isSeparator, Text.isBlank]⟩
  have hparse (d : Dimension) : (Quantity.read text d).toOption = none := by
    rw [← Quantity.read_trim, hb]
    cases b <;> rfl
  refine ⟨fun d => ?_, ?_, ?_, ?_⟩
  · rw [hparse, quantity, require_of_get h]
    exact .none
  · have hdisplay : (Setting.boolean b).display = Text.trim text := hb.symm
    refine vector_of_isWord h ?_ hword
    rw [hdisplay, Text.trim_trim]
    exact hword
  · rw [← Quantity.toList_trim, hb, integer, require_of_get h]
    cases b <;> rfl
  · rw [← Quantity.toList_trim, hb, float, require_of_get h]
    cases b <;> exact .none

theorem readsText_of_integer {i : Int64} (hi : Decimal.readInt64 (Text.trimChars text.toList) = some i)
    (h : entry.get? key = some (.integer i)) : entry.ReadsText key text := by
  obtain ⟨x, hread, hfinite, hsame⟩ := Decimal.readFloat_of_readInt64 hi
  obtain ⟨hne, hnumeric⟩ := Decimal.isNumeric_of_readFloat hread
  have hdisplay := Decimal.isWord_integer i.toInt
  refine ⟨fun d => ?_, ?_, ?_, ?_⟩
  · rw [Quantity.read_of_readFloat hread hfinite, quantity, require_of_get h]
    exact .some (.inl hsame)
  · exact vector_of_isWord h ((isWord_trim hdisplay).symm ▸ hdisplay)
      (Decimal.isWord_of_isNumeric hne hnumeric)
  · rw [hi, integer, require_of_get h]
    rfl
  · rw [hread, float, require_of_get h]
    exact .some (.inl hsame)

theorem readsText_of_float {x : Float} (hi : Decimal.readInt64 (Text.trimChars text.toList) = none)
    (hx : Decimal.readFloat (Text.trimChars text.toList) = some x) (hfinite : x.isFinite = true)
    (h : entry.get? key = some (.float x)) : entry.ReadsText key text := by
  obtain ⟨hne, hnumeric⟩ := Decimal.isNumeric_of_readFloat hx
  have hdisplay := Decimal.isWord_display hfinite
  refine ⟨fun d => ?_, ?_, ?_, ?_⟩
  · rw [Quantity.read_of_readFloat hx hfinite, quantity, require_of_get h]
    exact .some (.refl x)
  · exact vector_of_isWord h ((isWord_trim hdisplay).symm ▸ hdisplay)
      (Decimal.isWord_of_isNumeric hne hnumeric)
  · rw [hi, integer, require_of_get h]
    rfl
  · rw [hx, float, require_of_get h]
    exact .some (.refl x)

theorem ReadsText.of_trim (h : entry.ReadsText key (Text.trim text)) : entry.ReadsText key text where
  quantity d := Quantity.read_trim text d ▸ h.quantity d
  vector d := Quantity.readVector_trim text d ▸ h.vector d
  integer := Quantity.trimChars_trim text ▸ h.integer
  float := Quantity.trimChars_trim text ▸ h.float

theorem readsText_ofOption (h : entry.get? key = some (.ofOption text)) :
    entry.ReadsText key text := by
  have htrim : String.ofList (Text.trimChars text.toList) = Text.trim text := rfl
  unfold Setting.ofOption at h
  simp only [htrim] at h
  split at h
  · rename_i htrue
    exact readsText_of_boolean (b := true) htrue h
  split at h
  · rename_i hfalse
    exact readsText_of_boolean (b := false) hfalse h
  split at h
  · rename_i i hi
    exact readsText_of_integer hi h
  · rename_i x hi hx
    split at h
    · rename_i hfinite
      exact readsText_of_float hi hx hfinite h
    · exact (readsText_ofText h).of_trim
  · exact (readsText_ofText h).of_trim

theorem readsText_of_written {w : Written} (h : entry.get? key = some w.setting) :
    entry.ReadsText key w.text := by
  cases w with
  | string text => exact readsText_ofText h
  | array texts => exact readsText_ofText h
  | option text => exact readsText_ofOption h

/-! ## Where the text comes from -/

/-- The key was set from `text` at last: from a string of a document, or by an override with the text
behind its equals sign. -/
inductive SetFrom (key text : String) : Entry → Prop where
  | document (entry : Entry) : SetFrom key text (entry.set key (.ofText text))
  | override {option : String} {left : List Char} {change : Override} (entry : Entry)
      (hsplit : Text.splitOnce '=' option.toList = some (left, text.toList))
      (hparse : Override.parse option = .ok change) (hkey : change.key = key) :
      SetFrom key text (entry.set change.key change.value)
  | other {entry : Entry} {other : String} (h : SetFrom key text entry) (hne : other ≠ key)
      (value : Setting) : SetFrom key text (entry.set other value)

theorem SetFrom.get (h : entry.SetFrom key text) :
    ∃ w : Written, w.text = text ∧ entry.get? key = some w.setting := by
  induction h with
  | document entry =>
    refine ⟨.string text, rfl, ?_⟩
    rw [get?_set, if_pos rfl, Setting.normalized_ofText]
    rfl
  | @override option left change entry hsplit hparse hkey =>
    have hvalue : change.value = .ofOption text := by
      rcases hleft : Override.splitTarget left with ⟨target, field⟩
      simp only [Override.parse, hsplit, hleft] at hparse
      split at hparse
      · cases hparse
      · obtain rfl := Except.ok.inj hparse
        rw [String.ofList_toList]
    refine ⟨.option text, rfl, ?_⟩
    rw [get?_set, if_pos hkey, hvalue, Setting.normalized_ofOption]
    rfl
  | other h hne value ih =>
    obtain ⟨w, htext, hget⟩ := ih
    refine ⟨w, htext, ?_⟩
    rw [get?_set, if_neg hne, hget]

/-- However a setting is written and stored, the getters read the number of its text. -/
theorem getters_read_text {entry : Entry} {key text : String} (h : entry.SetFrom key text) :
    entry.ReadsText key text := by
  obtain ⟨w, rfl, hget⟩ := h.get
  exact readsText_of_written hget

/-- Zero with a sign, written by an override after the same key was written in a document. -/
theorem getters_read_text_negativeZero :
    (((empty "Charge").set "threshold" (.ofText "600e")).set "threshold" (.ofOption " -0 ")).ReadsText
      "threshold" " -0 " := by
  have hsplit : Text.splitOnce '=' "Charge.threshold= -0 ".toList =
      some ("Charge.threshold".toList, " -0 ".toList) := by
    decide
  have hparse : Override.parse "Charge.threshold= -0 " =
      .ok ⟨some "Charge", "threshold", .ofOption " -0 "⟩ := rfl
  exact getters_read_text (.override _ hsplit hparse rfl)

end Entry

end TestBeam
