import TestBeam.Json.Printer
import TestBeam.Json.Reader

/-!
# Strings read back

A quoted string reads back as the same string, whatever characters it holds. The writer escapes one
character at a time and never needs two escapes for one, so no halves have to be joined.
-/

namespace TestBeam.Json

/-! ## Escapes -/

theorem hexValue_hexDigit : ∀ n < 16, hexValue? (hexDigit n) = some n := by decide

theorem readUnit_control {c : Char} (h : c.toNat < 0x20) (rest : List Char) :
    readUnit ('0' :: '0' :: hexDigit (c.toNat / 16) :: hexDigit (c.toNat % 16) :: rest) =
      some (c.toNat, rest) := by
  -- Control characters are below 32, so the two digits in front are zeros.
  have hzero : hexValue? '0' = some 0 := by decide
  have hhigh := hexValue_hexDigit (c.toNat / 16) (by omega)
  have hlow := hexValue_hexDigit (c.toNat % 16) (by omega)
  have hcode : c.toNat / 16 * 16 + c.toNat % 16 = c.toNat := by omega
  simp [readUnit, hzero, hhigh, hlow, hcode]

theorem pieceOfUnit_control {c : Char} (h : c.toNat < 0x20) : pieceOfUnit c.toNat = .char c := by
  have hlow : ¬ 0xD800 ≤ c.toNat := by omega
  simp [pieceOfUnit, hlow]

theorem escape_cases (c : Char) :
    (escape c = [c] ∧ c ≠ '"' ∧ c ≠ '\\' ∧ 0x20 ≤ c.toNat) ∨
    ∃ body, escape c = '\\' :: body ∧ ∀ rest, readEscape (body ++ rest) = some (.char c, rest) := by
  by_cases hquote : c = '"'
  · exact .inr ⟨['"'], by simp [escape, hquote], by simp [readEscape, simpleEscape?, hquote]⟩
  by_cases hslash : c = '\\'
  · exact .inr ⟨['\\'], by simp [escape, hslash], by simp [readEscape, simpleEscape?, hslash]⟩
  by_cases hb : c = '\x08'
  · exact .inr ⟨['b'], by simp [escape, hb], by simp [readEscape, simpleEscape?, hb]⟩
  by_cases hf : c = '\x0c'
  · exact .inr ⟨['f'], by simp [escape, hf], by simp [readEscape, simpleEscape?, hf]⟩
  by_cases hn : c = '\n'
  · exact .inr ⟨['n'], by simp [escape, hn], by simp [readEscape, simpleEscape?, hn]⟩
  by_cases hr : c = '\r'
  · exact .inr ⟨['r'], by simp [escape, hr], by simp [readEscape, simpleEscape?, hr]⟩
  by_cases ht : c = '\t'
  · exact .inr ⟨['t'], by simp [escape, ht], by simp [readEscape, simpleEscape?, ht]⟩
  by_cases hcontrol : c.toNat < 0x20
  · refine .inr ⟨['u', '0', '0', hexDigit (c.toNat / 16), hexDigit (c.toNat % 16)], ?_, ?_⟩
    · simp [escape, hquote, hslash, hb, hf, hn, hr, ht, hcontrol]
    · intro rest
      simp [readEscape, readUnit_control hcontrol, pieceOfUnit_control hcontrol]
  · exact .inl ⟨by simp [escape, hquote, hslash, hb, hf, hn, hr, ht, hcontrol], hquote, hslash,
      Nat.le_of_not_lt hcontrol⟩

/-! ## The pieces of a string -/

theorem readPieces_escape (c : Char) (rest : List Char) (fuel : Nat) :
    readPieces (fuel + 1) (escape c ++ rest) =
      (readPieces fuel rest).map fun r => (.char c :: r.1, r.2) := by
  rcases escape_cases c with ⟨hself, hquote, hslash, hcontrol⟩ | ⟨body, hescape, hread⟩
  · rw [hself]
    cases hrest : readPieces fuel rest <;>
      simp [readPieces, hquote, hslash, Nat.not_lt.mpr hcontrol, hrest]
  · rw [hescape]
    cases hrest : readPieces fuel rest <;> simp [readPieces, hread rest, hrest]

theorem readPieces_escaped (cs rest : List Char) (fuel : Nat) (h : cs.length < fuel) :
    readPieces fuel (cs.flatMap escape ++ '"' :: rest) = some (cs.map .char, rest) := by
  induction cs generalizing fuel with
  | nil =>
    obtain ⟨fuel, rfl⟩ := Nat.exists_eq_add_one.mpr h
    simp [readPieces]
  | cons c cs ih =>
    obtain ⟨fuel, rfl⟩ := Nat.exists_eq_add_one.mpr (by omega : 0 < fuel)
    have ih := ih fuel (by simpa using h)
    rw [List.flatMap_cons, List.append_assoc, readPieces_escape, ih]
    rfl

theorem joinHalves_chars (cs : List Char) : joinHalves (cs.map .char) = some cs := by
  induction cs with
  | nil => rfl
  | cons c cs ih => simp [joinHalves, ih]

theorem length_le_escaped (cs : List Char) : cs.length ≤ (cs.flatMap escape).length := by
  induction cs with
  | nil => simp
  | cons c cs ih =>
    have hpos : 0 < (escape c).length := by
      rcases escape_cases c with ⟨hself, -⟩ | ⟨body, hescape, -⟩
      · simp [hself]
      · simp [hescape]
    rw [List.flatMap_cons, List.length_append, List.length_cons]
    omega

theorem readString_quote (s : String) (rest : List Char) :
    ∃ body, quote s = '"' :: body ∧ readString (body ++ rest) = some (some s, rest) := by
  refine ⟨s.toList.flatMap escape ++ ['"'], rfl, ?_⟩
  have hlen := length_le_escaped s.toList
  have hread := readPieces_escaped s.toList rest
    ((s.toList.flatMap escape ++ '"' :: rest).length + 1) (by rw [List.length_append]; omega)
  simp only [readString, List.append_assoc, List.cons_append, List.nil_append, hread,
    Option.map_some, joinHalves_chars, String.ofList_toList]

end TestBeam.Json
