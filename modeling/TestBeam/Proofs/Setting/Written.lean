import TestBeam.Proofs.Setting.Normalized
import TestBeam.Proofs.Text.Words

/-!
# Settings as they are written

A setting that lists names is written as text, but text that reads as a number or as a quantity is stored
as one and printed anew. The names stay the same exactly if the printed text is the written one.
-/

namespace TestBeam

/-! ## Numbers are words -/

namespace Decimal

def IsNumeric (c : Char) : Prop :=
  c.isAlpha = true ∨ c.isDigit = true ∨ c = '.' ∨ c = '+' ∨ c = '-'

theorem IsNumeric.joined {c : Char} (h : IsNumeric c) : Text.isSeparator c = false := by
  rcases h with halpha | hdigit | rfl | rfl | rfl
  · have hrange := toNat_of_isAlpha halpha
    have hcomma : c ≠ ',' := by rintro rfl; simp at halpha
    simp [Text.isSeparator, isBlank_eq_false (by omega) (by omega : c.toNat ≤ 0x7E), hcomma]
  · have hrange := toNat_of_isDigit hdigit
    have hcomma : c ≠ ',' := by rintro rfl; simp at hdigit
    simp [Text.isSeparator, isBlank_eq_false (by omega) (by omega : c.toNat ≤ 0x7E), hcomma]
  · decide
  · decide
  · decide

theorem isWord_of_isNumeric {cs : List Char} (hne : cs ≠ []) (h : ∀ c ∈ cs, IsNumeric c) :
    Text.IsWord (String.ofList cs) := by
  refine ⟨by simpa using hne, fun c hc => ?_⟩
  rw [String.toList_ofList] at hc
  exact (h c hc).joined

theorem isNumeric_of_spanSign {cs : List Char} (h : ∀ c ∈ (spanSign cs).2, IsNumeric c) :
    ∀ c ∈ cs, IsNumeric c := by
  intro c hc
  unfold spanSign at h
  split at h
  · rcases List.mem_cons.mp hc with rfl | hc
    · simp [IsNumeric]
    · exact h c hc
  · rcases List.mem_cons.mp hc with rfl | hc
    · simp [IsNumeric]
    · exact h c hc
  · exact h c hc

theorem isNumeric_of_readInt {cs : List Char} {i : Int} (h : readInt cs = some i) :
    cs ≠ [] ∧ ∀ c ∈ cs, IsNumeric c := by
  rcases hsign : spanSign cs with ⟨negative, ds⟩
  unfold readInt at h
  simp only [hsign] at h
  by_cases hdigits : (ds.isEmpty || !ds.all Char.isDigit) = true
  · rw [if_pos hdigits] at h
    cases h
  · simp only [Bool.or_eq_true, not_or, Bool.not_eq_true, Bool.not_eq_false'] at hdigits
    constructor
    · rintro rfl
      obtain rfl : [] = ds := congrArg Prod.snd hsign
      simp at hdigits
    · apply isNumeric_of_spanSign
      rw [hsign]
      intro c hc
      exact .inr (.inl (List.all_eq_true.mp hdigits.2 c hc))

theorem isNumeric_of_readExponent {cs : List Char} {e : Int} (h : readExponent cs = some e) :
    ∀ c ∈ cs, IsNumeric c := by
  cases cs with
  | nil => simp
  | cons c cs =>
    simp only [readExponent] at h
    by_cases hmark : (c = 'e' || c = 'E') = true
    · rw [if_pos hmark] at h
      have hc : IsNumeric c := by
        simp only [Bool.or_eq_true, decide_eq_true_eq] at hmark
        rcases hmark with rfl | rfl <;> simp [IsNumeric]
      exact List.forall_mem_cons.mpr ⟨hc, (isNumeric_of_readInt h).2⟩
    · rw [if_neg hmark] at h
      cases h

theorem isAlpha_of_toLower {c : Char} (h : c.toLower.isAlpha = true) : c.isAlpha = true := by
  by_cases hupper : c.isUpper = true
  · simp [Char.isAlpha, hupper]
  · have hsame : c.toLower = c := by
      unfold Char.isUpper at hupper
      unfold Char.toLower
      simp only [ge_iff_le, decide_eq_true_eq] at hupper
      rw [dif_neg hupper]
    rwa [hsame] at h

theorem isAlpha_of_readWord {negative : Bool} {cs : List Char} {word : Literal}
    (h : readWord negative cs = some word) : ∀ c ∈ cs, c.isAlpha = true := by
  have hword : String.ofList (cs.map Char.toLower) ∈ ["inf", "infinity", "nan"] := by
    by_contra hnot
    simp only [List.mem_cons, List.not_mem_nil, or_false, not_or] at hnot
    simp [readWord, hnot] at h
  have hletters : ["inf", "infinity", "nan"].all fun w => w.toList.all fun c => c.isAlpha := by
    decide
  have halpha := List.all_eq_true.mp (List.all_eq_true.mp hletters _ hword)
  rw [String.toList_ofList] at halpha
  exact fun c hc => isAlpha_of_toLower (halpha _ (List.mem_map_of_mem hc))

theorem isNumeric_of_spanDigits {cs : List Char} (h : ∀ c ∈ (spanDigits cs).2, IsNumeric c) :
    ∀ c ∈ cs, IsNumeric c := by
  intro c hc
  rw [← List.takeWhile_append_dropWhile (p := Char.isDigit) (l := cs)] at hc
  rcases List.mem_append.mp hc with hc | hc
  · exact .inr (.inl (List.mem_takeWhile_imp hc))
  · exact h c hc

theorem isNumeric_of_spanFraction {cs : List Char} (h : ∀ c ∈ (spanFraction cs).2, IsNumeric c) :
    ∀ c ∈ cs, IsNumeric c := by
  unfold spanFraction at h
  split at h
  · exact List.forall_mem_cons.mpr ⟨.inr (.inr (.inl rfl)), isNumeric_of_spanDigits h⟩
  · exact h

theorem isNumeric_of_readFloat {cs : List Char} {x : Float} (h : readFloat cs = some x) :
    cs ≠ [] ∧ ∀ c ∈ cs, IsNumeric c := by
  obtain ⟨literal, hliteral, -⟩ := Option.map_eq_some_iff.mp h
  refine ⟨by rintro rfl; simp [readLiteral, spanSign, readWord, spanDigits, spanFraction] at hliteral,
    isNumeric_of_spanSign ?_⟩
  unfold readLiteral at hliteral
  simp only at hliteral
  split at hliteral
  · rename_i word hword
    exact fun c hc => .inl (isAlpha_of_readWord hword c hc)
  · split at hliteral
    · cases hliteral
    · obtain ⟨e, hexponent, -⟩ := Option.map_eq_some_iff.mp hliteral
      exact isNumeric_of_spanDigits (isNumeric_of_spanFraction (isNumeric_of_readExponent hexponent))

theorem isWord_integer (i : Int) : Text.IsWord (String.ofList (integer i)) := by
  rw [integer_eq_signed]
  apply isWord_of_isNumeric
  · unfold signed
    split
    · simp
    · exact digits_ne_nil _
  · intro c hc
    unfold signed at hc
    split at hc
    · rcases List.mem_cons.mp hc with rfl | hc
      · simp [IsNumeric]
      · exact .inr (.inl (isDigit_of_mem_digits hc))
    · exact .inr (.inl (isDigit_of_mem_digits hc))

theorem isNumeric_display {x : Float} (h : x.isFinite = true) :
    (display x).toList ≠ [] ∧ ∀ c ∈ (display x).toList, IsNumeric c := by
  obtain ⟨negative, whole, fraction, htext, hwhole, hwholeDigits, hfraction, hread⟩ :=
    exists_display h
  rw [htext]
  exact isNumeric_of_readFloat hread

theorem isWord_display {x : Float} (h : x.isFinite = true) : Text.IsWord (display x) := by
  obtain ⟨hne, hnumeric⟩ := isNumeric_display h
  have hword := isWord_of_isNumeric hne hnumeric
  rwa [String.ofList_toList] at hword

end Decimal

/-! ## Quantities are words -/

namespace Quantity

theorem isNumeric_of_ofParts {number letters : List Char} {q : Quantity}
    (h : ofParts? number letters = some q) :
    number ≠ [] ∧ ∀ c ∈ number ++ letters, Decimal.IsNumeric c := by
  obtain ⟨halpha, hread, -⟩ := ofParts_eq_some_iff.mp h
  obtain ⟨hne, hnumeric⟩ := Decimal.isNumeric_of_readFloat hread
  refine ⟨hne, fun c hc => ?_⟩
  rcases List.mem_append.mp hc with hc | hc
  · exact hnumeric c hc
  · exact .inl (halpha c hc)

theorem isWord_of_withUnit {text : String} {q : Quantity} (h : withUnit? text = some q) :
    Text.IsWord q.display ∧ Text.IsWord (Text.trim text) := by
  obtain ⟨number, letters, hsplit, hparts, hunit⟩ := exists_parts h
  obtain ⟨hfinite, -, halpha, hq⟩ := ofParts_eq_some hparts hunit
  obtain ⟨hnumber, hnumeric⟩ := isNumeric_of_ofParts hparts
  constructor
  · obtain ⟨hne, hvalue⟩ := Decimal.isNumeric_display hfinite
    have hchars : q.display = String.ofList ((Decimal.display q.value).toList ++ letters) := by
      rw [hq, String.ofList_append, String.ofList_toList]
      rfl
    rw [hchars]
    apply Decimal.isWord_of_isNumeric
    · simp [hne]
    · intro c hc
      rcases List.mem_append.mp hc with hc | hc
      · exact hvalue c hc
      · exact .inl (halpha c hc)
  · unfold Text.trim
    rw [hsplit]
    exact Decimal.isWord_of_isNumeric (by simp [hnumber]) hnumeric

end Quantity

/-! ## What a setting prints -/

namespace Setting

/-- A setting prints the text it was read from, with or without the blanks around it, or one word in
place of another. -/
def Prints (v : Setting) (text : String) : Prop :=
  v.display = text ∨ v.display = Text.trim text ∨
    Text.IsWord v.display ∧ Text.IsWord (Text.trim text)

theorem prints_ofText (text : String) : (ofText text).Prints text := by
  unfold ofText
  split
  · rename_i q hq
    exact .inr (.inr (Quantity.isWord_of_withUnit hq))
  · exact .inl rfl

theorem prints_ofOption (text : String) : (ofOption text).Prints text := by
  have hword {cs : List Char} (hne : cs ≠ []) (h : ∀ c ∈ cs, Decimal.IsNumeric c) :=
    Decimal.isWord_of_isNumeric hne h
  have htext : (ofText (Text.trim text)).Prints text := by
    rcases prints_ofText (Text.trim text) with h | h | h
    · exact .inr (.inl h)
    · exact .inr (.inl (h.trans (Text.trim_trim text)))
    · rw [Text.trim_trim] at h
      exact .inr (.inr h)
  unfold ofOption
  simp only
  split
  · rename_i htrue
    exact .inr (.inl htrue.symm)
  split
  · rename_i hfalse
    exact .inr (.inl hfalse.symm)
  split
  · rename_i i hread
    obtain ⟨i', hread, -⟩ := Option.bind_eq_some_iff.mp hread
    obtain ⟨hne, hnumeric⟩ := Decimal.isNumeric_of_readInt hread
    exact .inr (.inr ⟨Decimal.isWord_integer _, hword hne hnumeric⟩)
  · rename_i x hread
    split
    · rename_i hfinite
      obtain ⟨hne, hnumeric⟩ := Decimal.isNumeric_of_readFloat hread
      exact .inr (.inr ⟨Decimal.isWord_display hfinite, hword hne hnumeric⟩)
    · exact htext
  · exact htext

theorem normalized_ofOption (text : String) : (ofOption text).normalized = ofOption text := by
  unfold ofOption
  simp only
  split
  · rfl
  split
  · rfl
  split
  · rfl
  · split
    · rename_i hfinite
      simp [normalized, hfinite]
    · exact normalized_ofText _
  · exact normalized_ofText _

/-- The words stay the same exactly if the text does. -/
theorem Prints.words_iff {v : Setting} {text : String} (h : v.Prints text) :
    Text.words v.display = Text.words text ↔ v.display = text ∨ v.display = Text.trim text := by
  constructor
  · intro hwords
    rcases h with h | h | ⟨hprinted, hwritten⟩
    · exact .inl h
    · exact .inr h
    · rw [hprinted.words, ← Text.words_trim, hwritten.words] at hwords
      exact .inr (List.singleton_inj.mp hwords)
  · rintro (h | h)
    · rw [h]
    · rw [h, Text.words_trim]

end Setting

/-! ## Written settings -/

/-- How a setting is written: as a string or as an array of strings in a document, or behind the equals
sign of an override. -/
inductive Written where
  | string (text : String)
  | array (texts : List String)
  | option (text : String)
  deriving DecidableEq, Repr

namespace Written

def text : Written → String
  | .string text => text
  | .array texts => ", ".intercalate texts
  | .option text => text

def setting : Written → Setting
  | .string text => .ofText text
  | .array texts => .ofText (", ".intercalate texts)
  | .option text => .ofOption text

/-- The names that are listed. Each item of an array can be a list of its own. -/
def listed : Written → List String
  | .string text => Text.words text
  | .array texts => texts.flatMap Text.words
  | .option text => Text.words text

/-- The setting prints as it is written, or without the blanks around it. -/
def Kept (w : Written) : Prop :=
  w.setting.display = w.text ∨ w.setting.display = Text.trim w.text

instance (w : Written) : Decidable w.Kept :=
  inferInstanceAs (Decidable (_ ∨ _))

theorem words_text (w : Written) : Text.words w.text = w.listed := by
  cases w with
  | string text => rfl
  | array texts => exact Text.words_intercalate (by decide) (by decide) texts
  | option text => rfl

theorem listed_names {names : List String} (h : ∀ name ∈ names, Text.IsWord name) :
    (array names).listed = names ∧ (string (",".intercalate names)).listed = names ∧
      (option (",".intercalate names)).listed = names := by
  have hjoined : Text.words (",".intercalate names) = names := by
    rw [Text.words_intercalate (by decide) (by decide), Text.flatMap_words h]
  exact ⟨Text.flatMap_words h, hjoined, hjoined⟩

theorem listed_of_isWord {w : Written} (h : Text.IsWord (Text.trim w.text)) :
    w.listed = [Text.trim w.text] := by
  rw [← w.words_text, ← Text.words_trim, h.words]

theorem prints_setting (w : Written) : w.setting.Prints w.text := by
  cases w with
  | string text => exact Setting.prints_ofText text
  | array texts => exact Setting.prints_ofText _
  | option text => exact Setting.prints_ofOption text

theorem normalized_setting (w : Written) : w.setting.normalized = w.setting := by
  cases w with
  | string text => exact Setting.normalized_ofText text
  | array texts => exact Setting.normalized_ofText _
  | option text => exact Setting.normalized_ofOption text

/-- Only a single name can print as another one. -/
theorem kept_of_length {w : Written} (h : w.listed.length ≠ 1) : w.Kept := by
  rcases w.prints_setting with hsame | htrimmed | ⟨-, hwritten⟩
  · exact .inl hsame
  · exact .inr htrimmed
  · exact absurd (by rw [listed_of_isWord hwritten]; rfl) h

theorem words_display_iff (w : Written) :
    Text.words w.setting.display = w.listed ↔ w.Kept := by
  rw [← w.words_text]
  exact w.prints_setting.words_iff

end Written

end TestBeam
