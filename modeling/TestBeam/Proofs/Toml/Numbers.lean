import TestBeam.Proofs.Decimal.Digits
import TestBeam.Toml.Number
import TestBeam.Toml.Printer

/-!
# Numbers read back

An integer or float is written with a sign, digits and at most one point. Such a text is no date, and
the reader of floats leaves integers to the reader of integers.
-/

namespace TestBeam.Toml

/-- What may follow a value: the end of its line, or the next item or end of an array. -/
def endsValue (rest : List Char) : Prop :=
  ∃ c cs, rest = c :: cs ∧ c ∈ ['\n', ',', ']']

theorem endsValue.head {rest : List Char} (h : endsValue rest) {c : Char}
    (hc : rest.head? = some c) : c ∈ ['\n', ',', ']'] := by
  obtain ⟨d, cs, rfl, hd⟩ := h
  simpa [← Option.some.inj hc] using hd

theorem endsValue.head_ne {rest : List Char} (h : endsValue rest) {c : Char}
    (hc : c ∉ ['\n', ',', ']']) : rest.head? ≠ some c :=
  fun heq => hc (h.head heq)

theorem endsValue.not_isDigit {rest : List Char} (h : endsValue rest) (c : Char)
    (hc : rest.head? = some c) : c.isDigit = false := by
  have hmem := h.head hc
  simp only [List.mem_cons, List.not_mem_nil, or_false] at hmem
  rcases hmem with rfl | rfl | rfl <;> rfl

/-! ## Digits -/

variable {ds rest : List Char}

theorem readMoreDigits_append (hds : ∀ c ∈ ds, c.isDigit = true)
    (hrest : ∀ c, rest.head? = some c → c.isDigit = false ∧ c ≠ '_') :
    readMoreDigits Char.isDigit (ds ++ rest) = (ds, rest) := by
  induction ds with
  | nil =>
    match rest, hrest with
    | [], _ => rfl
    | [c], h => simp [readMoreDigits, (h c rfl).1]
    | c :: d :: cs, h => simp [readMoreDigits, h c rfl]
  | cons c ds ih =>
    have ih := ih fun d hd => hds d (by simp [hd])
    have hc := hds c (by simp)
    rw [List.cons_append]
    match h : ds ++ rest with
    | [] =>
      obtain ⟨rfl, rfl⟩ := List.append_eq_nil_iff.mp h
      simp [readMoreDigits, hc]
    | d :: cs =>
      rw [h] at ih
      simp [readMoreDigits, hc, ih]

theorem readDigits_append (hne : ds ≠ []) (hds : ∀ c ∈ ds, c.isDigit = true)
    (hrest : ∀ c, rest.head? = some c → c.isDigit = false ∧ c ≠ '_') :
    readDigits Char.isDigit (ds ++ rest) = some (ds, rest) := by
  obtain ⟨c, ds, rfl⟩ := List.exists_cons_of_ne_nil hne
  have htail : ∀ d ∈ ds, d.isDigit = true := fun d hd => hds d (by simp [hd])
  have hmore := readMoreDigits_append htail hrest
  simp [readDigits, hds c (by simp), hmore]

theorem readWhole_append (hne : ds ≠ []) (hds : ∀ c ∈ ds, c.isDigit = true)
    (hzero : ds = ['0'] ∨ ds.head? ≠ some '0')
    (hrest : ∀ c, rest.head? = some c → c.isDigit = false ∧ c ≠ '_') :
    readWhole (ds ++ rest) = some (ds, rest) := by
  rcases hzero with rfl | hzero
  · rfl
  · rw [← readDigits_append hne hds hrest]
    obtain ⟨c, ds, rfl⟩ := List.exists_cons_of_ne_nil hne
    have hc : c ≠ '0' := by simpa using hzero
    simp [readWhole, hc]

/-! ## No date -/

theorem readField_eq_none {count low high : Nat} {cs : List Char}
    (h : (cs.takeWhile Char.isDigit).length < count) : readField count low high cs = none := by
  unfold readField
  rw [if_neg]
  intro hfield
  simp only [Bool.and_eq_true, decide_eq_true_eq, List.all_eq_true] at hfield
  obtain ⟨⟨⟨hlen, hall⟩, -⟩, -⟩ := hfield
  have hsplit : cs.takeWhile Char.isDigit =
      cs.take count ++ (cs.drop count).takeWhile Char.isDigit := by
    conv => lhs; rw [← List.take_append_drop count cs]
    rw [List.takeWhile_append_of_pos hall]
  rw [hsplit, List.length_append] at h
  omega

theorem readField_rest {count low high : Nat} {cs : List Char} {r : Nat × List Char}
    (h : readField count low high cs = some r) :
    r.2 = cs.drop count ∧ count ≤ (cs.takeWhile Char.isDigit).length := by
  refine ⟨?_, Nat.le_of_not_lt fun hlt => ?_⟩
  · simp only [readField] at h
    split at h
    · exact congrArg Prod.snd (Option.some.inj h).symm
    · simp at h
  · rw [readField_eq_none hlt] at h
    exact absurd h (by simp)

theorem readChar_drop {c : Char} {cs : List Char} {count : Nat} (hc : c.isDigit = false)
    (hcount : count ≤ (cs.takeWhile Char.isDigit).length)
    (hstop : (cs.dropWhile Char.isDigit).head? ≠ some c) : readChar c (cs.drop count) = none := by
  have hsplit : cs.drop count =
      (cs.takeWhile Char.isDigit).drop count ++ cs.dropWhile Char.isDigit := by
    conv => lhs; rw [← List.takeWhile_append_dropWhile (p := Char.isDigit) (l := cs)]
    rw [List.drop_append_of_le_length hcount]
  rw [hsplit]
  match h : (cs.takeWhile Char.isDigit).drop count with
  | [] =>
    match hd : cs.dropWhile Char.isDigit with
    | [] => rfl
    | d :: tail =>
      rw [hd] at hstop
      have : d ≠ c := by simpa using hstop
      simp [readChar, this]
  | d :: tail =>
    have hmem : d ∈ cs.takeWhile Char.isDigit := List.mem_of_mem_drop (h ▸ List.mem_cons_self)
    have hdigit : d.isDigit = true := List.mem_takeWhile_imp hmem
    have : d ≠ c := by
      rintro rfl
      simp [hdigit] at hc
    simp [readChar, this]

theorem readDatetime_eq_none {cs : List Char}
    (hdate : cs.takeWhile Char.isDigit = [] ∨ (cs.dropWhile Char.isDigit).head? ≠ some '-')
    (htime : (cs.dropWhile Char.isDigit).head? ≠ some ':') : readDatetime cs = none := by
  -- A date has a hyphen behind its first digits, and a time has a colon.
  have hnoDate : readDate cs = none := by
    cases hyear : readField 4 0 9999 cs with
    | none => simp [readDate, hyear]
    | some r =>
      obtain ⟨htail, hcount⟩ := readField_rest hyear
      rcases hdate with hnil | hstop
      · simp [hnil] at hcount
      · have hchar := readChar_drop (c := '-') rfl hcount hstop
        simp [readDate, hyear, htail, hchar]
  have hnoTime : readTime cs = none := by
    cases hhour : readField 2 0 23 cs with
    | none => simp [readTime, hhour]
    | some r =>
      obtain ⟨htail, hcount⟩ := readField_rest hhour
      have hchar := readChar_drop (c := ':') rfl hcount htime
      simp [readTime, hhour, htail, hchar]
  simp [readDatetime, hnoDate, hnoTime]

theorem readDatetime_signed (negative : Bool) (hds : ∀ c ∈ ds, c.isDigit = true)
    (hrest : ∀ c, rest.head? = some c → c.isDigit = false ∧ c ≠ '-' ∧ c ≠ ':') :
    readDatetime (Decimal.signed negative ds ++ rest) = none := by
  cases negative with
  | true => exact readDatetime_eq_none (.inl rfl) (by simp [Decimal.signed])
  | false =>
    have hdrop : (ds ++ rest).dropWhile Char.isDigit = rest := by
      rw [List.dropWhile_append_of_pos hds]
      cases rest with
      | nil => rfl
      | cons c cs => simp [(hrest c rfl).1]
    unfold Decimal.signed
    simp only [Bool.false_eq_true, if_false]
    refine readDatetime_eq_none (.inr ?_) ?_
    · rw [hdrop]
      exact fun h => (hrest _ h).2.1 rfl
    · rw [hdrop]
      exact fun h => (hrest _ h).2.2 rfl

/-! ## Integers -/

theorem spanSign_signed (negative : Bool) (hne : ds ≠ []) (hds : ∀ c ∈ ds, c.isDigit = true)
    (rest : List Char) :
    spanSign (Decimal.signed negative ds ++ rest) =
      (if negative then ['-'] else [], ds ++ rest) := by
  cases negative with
  | true => rfl
  | false =>
    obtain ⟨c, ds, rfl⟩ := List.exists_cons_of_ne_nil hne
    have hc := hds c (by simp)
    have hminus : c ≠ '-' := by rintro rfl; simp at hc
    have hplus : c ≠ '+' := by rintro rfl; simp at hc
    simp [Decimal.signed, spanSign, hminus, hplus]

theorem signed_eq_append (negative : Bool) (cs : List Char) :
    Decimal.signed negative cs = (if negative then ['-'] else []) ++ cs := by
  cases negative <;> rfl

theorem readFloatWord_append (hne : ds ≠ []) (hds : ∀ c ∈ ds, c.isDigit = true)
    (rest : List Char) : readFloatWord (ds ++ rest) = none := by
  obtain ⟨c, ds, rfl⟩ := List.exists_cons_of_ne_nil hne
  have hc := hds c (by simp)
  have hi : c ≠ 'i' := by rintro rfl; simp at hc
  have hn : c ≠ 'n' := by rintro rfl; simp at hc
  simp [readFloatWord, hi, hn]

theorem readExponent_eq_none (h : endsValue rest) : readExponent rest = none := by
  obtain ⟨c, cs, rfl, hc⟩ := h
  simp only [List.mem_cons, List.not_mem_nil, or_false] at hc
  rcases hc with rfl | rfl | rfl <;> rfl

theorem readFraction_eq_none (h : endsValue rest) : readFraction rest = none := by
  obtain ⟨c, cs, rfl, hc⟩ := h
  simp only [List.mem_cons, List.not_mem_nil, or_false] at hc
  rcases hc with rfl | rfl | rfl <;> rfl

theorem endsValue.not_digit_or_underscore (h : endsValue rest) (c : Char)
    (hc : rest.head? = some c) : c.isDigit = false ∧ c ≠ '_' := by
  refine ⟨h.not_isDigit c hc, ?_⟩
  rintro rfl
  exact h.head_ne (by decide) hc

theorem readFloat_integer (negative : Bool) (n : Nat) (h : endsValue rest) :
    readFloat (Decimal.signed negative (Decimal.digits n) ++ rest) = none := by
  -- An integer has neither a point nor an exponent, so it is no float.
  have hne := Decimal.digits_ne_nil n
  have hds : ∀ c ∈ Decimal.digits n, c.isDigit = true := fun c hc => Decimal.isDigit_of_mem_digits hc
  have hwhole := readWhole_append hne hds (Decimal.digits_cases n) h.not_digit_or_underscore
  unfold readFloat
  rw [spanSign_signed negative hne hds rest]
  simp [readFloatWord_append hne hds rest, readFloatDigits, hwhole, readFraction_eq_none h,
    readExponent_eq_none h]

theorem readInteger_integer (i : Int64) (h : endsValue rest) :
    readInteger (Decimal.integer i.toInt ++ rest) = some (i, rest) := by
  have hread := Decimal.readInt64_integer i
  rw [Decimal.integer_eq_signed] at hread ⊢
  generalize decide (i.toInt < 0) = negative at hread ⊢
  generalize i.toInt.natAbs = n at hread ⊢
  have hne := Decimal.digits_ne_nil n
  have hds : ∀ c ∈ Decimal.digits n, c.isDigit = true := fun c hc => Decimal.isDigit_of_mem_digits hc
  have hwhole := readWhole_append hne hds (Decimal.digits_cases n) h.not_digit_or_underscore
  have hprefix (b : Char) (hb : b ∈ ['x', 'o', 'b']) (cs : List Char) :
      Decimal.signed negative (Decimal.digits n) ++ rest ≠ '0' :: b :: cs := by
    intro heq
    cases negative with
    | true => simp [Decimal.signed] at heq
    | false =>
      rcases Decimal.digits_cases n with hzero | hzero
      · have hhead : rest.head? = some b := by simp_all [Decimal.signed]
        have := h.head hhead
        simp only [List.mem_cons, List.not_mem_nil, or_false] at this hb
        rcases hb with rfl | rfl | rfl <;> simp at this
      · obtain ⟨c, ds, hcons⟩ := List.exists_cons_of_ne_nil hne
        simp_all [Decimal.signed]
  rw [readInteger, spanSign_signed negative hne hds rest]
  · simp [hwhole, ← signed_eq_append, hread]
  · exact hprefix 'x' (by simp)
  · exact hprefix 'o' (by simp)
  · exact hprefix 'b' (by simp)

/-! ## Floats -/

variable {whole fraction : List Char}

theorem readFloat_point (negative : Bool) (hwhole : whole ≠ [])
    (hwholeDigits : ∀ c ∈ whole, c.isDigit = true) (hzero : whole = ['0'] ∨ whole.head? ≠ some '0')
    (hfraction : fraction ≠ []) (hfractionDigits : ∀ c ∈ fraction, c.isDigit = true)
    (h : endsValue rest) :
    readFloat (Decimal.signed negative (whole ++ '.' :: fraction) ++ rest) =
      (Decimal.readFloat (Decimal.signed negative (whole ++ '.' :: fraction))).bind fun x =>
        if x == 1 / 0 then none else some (x, rest) := by
  have hread : readWhole (whole ++ '.' :: (fraction ++ rest)) =
      some (whole, '.' :: (fraction ++ rest)) := by
    apply readWhole_append hwhole hwholeDigits hzero
    intro c hc
    obtain rfl : '.' = c := by simpa using hc
    decide
  have hspan := spanSign_signed negative hwhole hwholeDigits ('.' :: (fraction ++ rest))
  have hdigits := readDigits_append hfraction hfractionDigits h.not_digit_or_underscore
  have hword := readFloatWord_append hwhole hwholeDigits ('.' :: (fraction ++ rest))
  have hsplit : Decimal.signed negative (whole ++ '.' :: fraction) ++ rest =
      Decimal.signed negative whole ++ '.' :: (fraction ++ rest) := by
    simp [signed_eq_append]
  rw [hsplit, readFloat, hspan]
  simp [hword, readFloatDigits, hread, readFraction, hdigits, readExponent_eq_none h,
    ← signed_eq_append]

end TestBeam.Toml
