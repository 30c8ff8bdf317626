import TestBeam.Proofs.Decimal.Literal
import TestBeam.Proofs.Result

/-!
# Quantities read from texts

What is read from a text does not depend on the blanks around it. A finite number without a unit is its
own longest first part, and a single word is not three quantities.
-/

namespace TestBeam.Quantity

variable {text : String} {x : Float} {q : Quantity}

/-! ## Blanks -/

theorem toList_trim (text : String) : (Text.trim text).toList = Text.trimChars text.toList :=
  String.toList_ofList

theorem trimChars_trim (text : String) :
    Text.trimChars (Text.trim text).toList = Text.trimChars text.toList := by
  rw [← toList_trim, ← toList_trim, Text.trim_trim]

theorem parse_trim (text : String) : parse (Text.trim text) = parse text := by
  unfold parse
  rw [trimChars_trim]

theorem read_trim (text : String) (d : Dimension) : read (Text.trim text) d = read text d := by
  unfold read
  rw [parse_trim]

theorem readVector_trim (text : String) (d : Dimension) :
    (readVector (Text.trim text) d).toOption = (readVector text d).toOption := by
  unfold readVector readList
  rw [Text.words_trim]
  cases (Text.words text).mapM fun word => read word d with
  | error cause => rfl
  | ok values =>
    simp only [Except.bind]
    split <;> rfl

/-! ## Numbers -/

theorem parse_of_readFloat (h : Decimal.readFloat (Text.trimChars text.toList) = some x)
    (hx : x.isFinite = true) : parse text = .ok ⟨x, none⟩ := by
  have hstart := Decimal.startsNumeric_of_readFloat h hx
  have hne := (Decimal.isNumeric_of_readFloat h).1
  have hparts : ofParts? (Text.trimChars text.toList) [] = some ⟨x, none⟩ := by
    simp [ofParts?, h, hx]
  have hcuts := findSome_cuts (fun p : List Char × List Char => ofParts? p.1 p.2) hne hparts
    fun c d hsplit hc => absurd (List.append_eq_nil_iff.mp hsplit.symm).1 hc
  rw [List.append_nil] at hcuts
  unfold parse
  simp [hne, hstart, hcuts]

theorem read_of_readFloat (h : Decimal.readFloat (Text.trimChars text.toList) = some x)
    (hx : x.isFinite = true) (d : Dimension) : read text d = .ok x := by
  unfold read
  rw [parse_of_readFloat h hx]
  rfl

theorem no_number_of_withUnit (h : withUnit? text = some q) :
    Decimal.readInt64 (Text.trimChars text.toList) = none ∧
      Decimal.readFloat (Text.trimChars text.toList) = none := by
  obtain ⟨number, letters, hsplit, hparts, hunit⟩ := exists_parts h
  obtain ⟨-, hread, hfinite, -⟩ := ofParts_eq_some_iff.mp hparts
  obtain ⟨-, hne, halpha, -⟩ := ofParts_eq_some hparts hunit
  rw [hsplit]
  refine ⟨?_, Decimal.readFloat_append_letters hread hfinite hne halpha⟩
  rw [Decimal.readInt64, Decimal.readInt_append_letters hne halpha]
  rfl

/-! ## Vectors -/

theorem readVector_of_isWord (h : Text.IsWord (Text.trim text)) (d : Dimension) :
    (readVector text d).toOption = none := by
  rw [← readVector_trim, readVector, readList, h.words]
  cases hread : read (Text.trim text) d with
  | error cause => simp [hread, Except.bind, Except.toOption]
  | ok y => simp [hread, Except.bind, Except.toOption]

variable {words : List String} {d : Dimension}

theorem readVector_ok_iff (h : Text.words text = words) (x y z : Float) :
    readVector text d = .ok ⟨x, y, z⟩ ↔
      ∃ a b c, words = [a, b, c] ∧ read a d = .ok x ∧ read b d = .ok y ∧ read c d = .ok z := by
  have hlist : readVector text d = .ok ⟨x, y, z⟩ ↔
      words.mapM (fun word => read word d) = .ok [x, y, z] := by
    unfold readVector readList
    rw [h]
    cases words.mapM fun word => read word d with
    | error cause => simp [Except.bind]
    | ok values =>
      simp only [Except.bind, Except.ok.injEq]
      split
      · simp
      · rename_i hne
        simpa using hne x y z
  rw [hlist, mapM_ok_iff]
  constructor
  · rintro (_ | ⟨ha, _ | ⟨hb, _ | ⟨hc, _ | _⟩⟩⟩)
    exact ⟨_, _, _, rfl, ha, hb, hc⟩
  · rintro ⟨a, b, c, rfl, ha, hb, hc⟩
    exact .cons ha (.cons hb (.cons hc .nil))

theorem readVector_failing (h : Text.words text = words) {before after : List String}
    {word : String} {cause : UnitError} (hsplit : words = before ++ word :: after)
    (hbefore : ∀ w ∈ before, ∃ x, read w d = .ok x) (hword : read word d = .error cause) :
    readVector text d = .error cause := by
  have hlist : words.mapM (fun word => read word d) = .error cause :=
    mapM_error_iff.mpr ⟨before, word, after, hsplit, hbefore, hword⟩
  unfold readVector readList
  rw [h, hlist]
  rfl

theorem readVector_miscounted (h : Text.words text = words)
    (hread : ∀ w ∈ words, ∃ x, read w d = .ok x) (hlength : words.length ≠ 3) :
    readVector text d = .error (.wrongCount text 3 words.length) := by
  obtain ⟨values, hvalues⟩ := exists_mapM_ok_iff.mpr hread
  have hsame : words.length = values.length := (mapM_ok_iff.mp hvalues).length_eq
  unfold readVector readList
  rw [h, hvalues]
  simp only [Except.bind]
  split
  · rename_i x y z
    exact absurd hsame hlength
  · rw [hsame]

end TestBeam.Quantity
