import TestBeam.Proofs.Decimal.RoundTrip
import TestBeam.Proofs.Toml.Numbers
import TestBeam.Proofs.Toml.Strings
import TestBeam.Toml.Reader

/-!
# Values read back

A setting is written as a string, an integer, a finite float or a truth value, and a list of names as an
array of strings. The reader takes such a value and leaves what follows it.
-/

namespace TestBeam.Toml

def IsScalar : Toml → Prop
  | .string _ => True
  | .integer _ => True
  | .float x => x.isFinite = true
  | .boolean _ => True
  | _ => False

/-! ## Between values -/

/-- Blanks, comments and line breaks start with one of these. -/
def skipped : List Char :=
  [' ', '\t', '#', '\n', '\r']

theorem skipSpace_of_head {c : Char} (h : isSpace c = false) (cs : List Char) :
    skipSpace (c :: cs) = c :: cs := by
  simp [skipSpace, h]

theorem skipLines_of_head {c : Char} (h : c ∉ skipped) (cs : List Char) (fuel : Nat) :
    skipLines fuel (c :: cs) = c :: cs := by
  unfold skipped at h
  simp only [List.mem_cons, List.not_mem_nil, or_false, not_or] at h
  obtain ⟨hspace, htab, hhash, hline, hreturn⟩ := h
  cases fuel with
  | zero => rfl
  | succ fuel =>
    have hspaces := skipSpace_of_head (c := c) (by simp [isSpace, hspace, htab]) cs
    simp [skipLines, hspaces, skipComment, hhash, readLineBreak, hline, hreturn]

theorem skipLines_space {c : Char} (h : c ∉ skipped) (cs : List Char) (fuel : Nat) :
    skipLines (fuel + 1) (' ' :: c :: cs) = c :: cs := by
  have hskip := skipLines_of_head h cs (fuel + 1)
  have hspace : skipSpace (' ' :: c :: cs) = skipSpace (c :: cs) := by
    simp [skipSpace, isSpace]
  unfold skipLines at hskip ⊢
  rw [hspace, hskip]

/-! ## Scalars -/

def startsScalar (c : Char) : Prop :=
  c ∈ ['"', '\x27', '-', 't', 'f'] ∨ c.isDigit = true

theorem startsScalar.ne {c d : Char} (h : startsScalar c) (hd : d ∉ ['"', '\x27', '-', 't', 'f'])
    (hdigit : d.isDigit = false) : c ≠ d := by
  rintro rfl
  rcases h with h | h
  · exact hd h
  · simp [hdigit] at h

theorem startsScalar.not_mem_skipped {c : Char} (h : startsScalar c) : c ∉ skipped := by
  unfold skipped
  simp only [List.mem_cons, List.not_mem_nil, or_false, not_or]
  exact ⟨h.ne (by decide) rfl, h.ne (by decide) rfl, h.ne (by decide) rfl, h.ne (by decide) rfl,
    h.ne (by decide) rfl⟩

theorem printString_head (s : String) :
    ∃ c cs, printString s = c :: cs ∧ c ∈ ['"', '\x27'] := by
  simp only [printString]
  split
  · exact ⟨'"', _, rfl, by simp⟩
  split
  · exact ⟨'\x27', _, rfl, by simp⟩
  split
  · exact ⟨'"', _, rfl, by simp⟩
  split
  · exact ⟨'\x27', _, rfl, by simp⟩
  split
  · exact ⟨'"', _, rfl, by simp⟩
  · exact ⟨'"', _, rfl, by simp⟩

theorem signed_head (negative : Bool) {ds : List Char} (hne : ds ≠ [])
    (hds : ∀ c ∈ ds, c.isDigit = true) (rest : List Char) :
    ∃ c cs, Decimal.signed negative (ds ++ rest) = c :: cs ∧ (c = '-' ∨ c.isDigit = true) := by
  obtain ⟨c, ds, rfl⟩ := List.exists_cons_of_ne_nil hne
  cases negative with
  | true => exact ⟨'-', _, rfl, .inl rfl⟩
  | false => exact ⟨c, _, rfl, .inr (hds c (by simp))⟩

theorem readScalar_number {c : Char} (h : c = '-' ∨ c.isDigit = true) (cs : List Char)
    (hdate : readDatetime (c :: cs) = none) :
    readScalar (c :: cs) =
      match readFloat (c :: cs) with
      | some (x, rest) => some (.float x, rest)
      | none => (readInteger (c :: cs)).map fun (i, rest) => (.integer i, rest) := by
  -- A text of digits is tried as a date, then as a float, then as an integer.
  have hne (d : Char) (hd : d ≠ '-') (hdigit : d.isDigit = false) : c ≠ d := by
    rintro rfl
    rcases h with rfl | h
    · exact hd rfl
    · simp [hdigit] at h
  have hquote := hne '"' (by decide) rfl
  have happly := hne '\x27' (by decide) rfl
  rw [readScalar]
  · cases readFloat (c :: cs) <;> simp [hquote, happly, hdate]
  · simp [hne 't' (by decide) rfl]
  · simp [hne 'f' (by decide) rfl]

variable {rest : List Char}

theorem readScalar_string (s : String) (h : endsValue rest) :
    readScalar (printString s ++ rest) = some (.string s, rest) := by
  have hread := readString_printString s rest (h.head_ne (by decide)) (h.head_ne (by decide))
  obtain ⟨c, cs, hcons, hc⟩ := printString_head s
  rw [hcons, List.cons_append] at hread ⊢
  simp only [List.mem_cons, List.not_mem_nil, or_false] at hc
  rw [readScalar]
  · rw [hread]
    rcases hc with rfl | rfl <;> simp
  · rcases hc with rfl | rfl <;> simp
  · rcases hc with rfl | rfl <;> simp

theorem readScalar_integer (i : Int64) (h : endsValue rest) :
    readScalar (Decimal.integer i.toInt ++ rest) = some (.integer i, rest) := by
  have hread := readInteger_integer i h
  rw [Decimal.integer_eq_signed] at hread ⊢
  generalize decide (i.toInt < 0) = negative at hread ⊢
  generalize i.toInt.natAbs = n at hread ⊢
  have hds : ∀ c ∈ Decimal.digits n, c.isDigit = true := fun c hc => Decimal.isDigit_of_mem_digits hc
  have hdate : readDatetime (Decimal.signed negative (Decimal.digits n) ++ rest) = none :=
    readDatetime_signed negative hds fun c hc =>
      ⟨h.not_isDigit c hc, fun heq => h.head_ne (by decide) (heq ▸ hc),
        fun heq => h.head_ne (by decide) (heq ▸ hc)⟩
  have hfloat := readFloat_integer negative n h
  obtain ⟨c, cs, hcons, hc⟩ := signed_head negative (Decimal.digits_ne_nil n) hds []
  rw [List.append_nil] at hcons
  rw [hcons, List.cons_append] at hread hdate hfloat ⊢
  rw [readScalar_number hc _ hdate, hfloat, hread]
  rfl

theorem printFloat_shape {x : Float} (hx : x.isFinite = true) :
    ∃ negative whole fraction, printFloat x = Decimal.signed negative (whole ++ '.' :: fraction) ∧
      whole ≠ [] ∧ (∀ c ∈ whole, c.isDigit = true) ∧ (whole = ['0'] ∨ whole.head? ≠ some '0') ∧
      fraction ≠ [] ∧ (∀ c ∈ fraction, c.isDigit = true) ∧
      Decimal.readFloat (Decimal.signed negative (whole ++ '.' :: fraction)) = some x := by
  have hprint : printFloat x = Decimal.signed (Decimal.isNegative x)
      (Decimal.positional ((Decimal.magnitude x).shortest .up) true) := by
    unfold printFloat
    rw [Decimal.print_positional floatLayout (fun _ => rfl) hx, String.toList_ofList]
    rfl
  have hvalue := Decimal.readFloat_positional hx .up true
  obtain ⟨whole, fraction, hshape⟩ :=
    Decimal.exists_shape _ (Decimal.shortest_magnitude_plain hx .up) true
  have htext : Decimal.pointed whole fraction = whole ++ '.' :: fraction := by
    simp [Decimal.pointed, hshape.fraction_ne rfl]
  rw [hshape.text, htext] at hvalue hprint
  exact ⟨_, whole, fraction, hprint, hshape.whole_ne, hshape.whole_digits, hshape.whole_zero,
    hshape.fraction_ne rfl, hshape.fraction_digits, hvalue⟩

theorem readScalar_float {x : Float} (hx : x.isFinite = true) (h : endsValue rest) :
    readScalar (printFloat x ++ rest) = some (.float x, rest) := by
  obtain ⟨negative, whole, fraction, hprint, hwhole, hdigits, hzero, hfraction, hfractionDigits,
    hvalue⟩ := printFloat_shape hx
  have hfloat := readFloat_point negative hwhole hdigits hzero hfraction hfractionDigits h
  rw [hvalue, Option.bind_some, Decimal.finite_beq_infinity hx] at hfloat
  have hsplit : Decimal.signed negative (whole ++ '.' :: fraction) ++ rest =
      Decimal.signed negative whole ++ ('.' :: fraction ++ rest) := by
    simp [signed_eq_append]
  have hdate : readDatetime (Decimal.signed negative (whole ++ '.' :: fraction) ++ rest) = none := by
    rw [hsplit]
    apply readDatetime_signed negative hdigits
    intro c hc
    obtain rfl : '.' = c := by simpa using hc
    decide
  obtain ⟨c, cs, hcons, hc⟩ := signed_head negative hwhole hdigits ('.' :: fraction)
  rw [hprint]
  rw [hcons, List.cons_append] at hfloat hdate ⊢
  rw [readScalar_number hc _ hdate, hfloat]
  rfl

theorem readScalar_print {v : Toml} (hv : v.IsScalar) (h : endsValue rest) :
    readScalar (v.print ++ rest) = some (v, rest) := by
  cases v with
  | string s => exact readScalar_string s h
  | integer i => exact readScalar_integer i h
  | float x => exact readScalar_float hv h
  | boolean b => cases b <;> rfl
  | datetime d => exact absurd hv id
  | array items => exact absurd hv id
  | table fields => exact absurd hv id

theorem print_head {v : Toml} (hv : v.IsScalar) : ∃ c cs, v.print = c :: cs ∧ startsScalar c := by
  have hnumber {c : Char} (hc : c = '-' ∨ c.isDigit = true) : startsScalar c :=
    hc.imp (by rintro rfl; simp) id
  cases v with
  | string s =>
    obtain ⟨c, cs, hcons, hc⟩ := printString_head s
    exact ⟨c, cs, hcons, .inl (List.mem_append_left ['-', 't', 'f'] hc)⟩
  | integer i =>
    obtain ⟨c, cs, hcons, hc⟩ := signed_head (decide (i.toInt < 0)) (Decimal.digits_ne_nil _)
      (fun c hc => Decimal.isDigit_of_mem_digits hc) []
    rw [List.append_nil, ← Decimal.integer_eq_signed] at hcons
    exact ⟨c, cs, hcons, hnumber hc⟩
  | float x =>
    obtain ⟨negative, whole, fraction, hprint, hwhole, hdigits, -⟩ := printFloat_shape hv
    obtain ⟨c, cs, hcons, hc⟩ := signed_head negative hwhole hdigits ('.' :: fraction)
    exact ⟨c, cs, hprint.trans hcons, hnumber hc⟩
  | boolean b =>
    cases b with
    | true => exact ⟨'t', _, rfl, .inl (by simp)⟩
    | false => exact ⟨'f', _, rfl, .inl (by simp)⟩
  | datetime d => exact absurd hv id
  | array items => exact absurd hv id
  | table fields => exact absurd hv id

/-! ## Arrays -/

theorem endsValue_printItems (items : List Toml) (rest : List Char) :
    endsValue (printItems items ++ ']' :: rest) := by
  cases items with
  | nil => exact ⟨']', rest, rfl, by simp⟩
  | cons item items => exact ⟨',', _, rfl, by simp⟩

theorem length_le_printItems (items : List Toml) : items.length ≤ (printItems items).length := by
  induction items with
  | nil => simp
  | cons item items ih =>
    simp [printItems]
    omega

theorem skipLines_lead {lead : List Char} (hlead : lead ∈ [[], [' ']]) {c : Char} (hc : c ∉ skipped)
    (cs : List Char) : skipLines (lead ++ c :: cs).length (lead ++ c :: cs) = c :: cs := by
  simp only [List.mem_cons, List.not_mem_nil, or_false] at hlead
  rcases hlead with rfl | rfl
  · exact skipLines_of_head hc cs _
  · exact skipLines_space hc cs _

variable {reader : ValueReader} {v : Toml} {c : Char} {cs tail lead : List Char}

theorem readItems_more (hc : startsScalar c) (hlead : lead ∈ [[], [' ']]) (fuel : Nat)
    (hread : reader (c :: cs) = some (v, ',' :: tail)) :
    readItems reader (fuel + 1) (lead ++ c :: cs) =
      (readItems reader fuel tail).map fun r => (v :: r.1, r.2) := by
  have hclose : c ≠ ']' := hc.ne (by decide) rfl
  have hnext := skipLines_of_head (by decide : ',' ∉ skipped) tail (',' :: tail).length
  rw [readItems, skipLines_lead hlead hc.not_mem_skipped]
  split
  · simp_all
  · simp only [hread, Option.bind_eq_bind, Option.bind_some]
    rw [hnext]
    change (readItems reader fuel tail).bind (fun r => some (v :: r.1, r.2)) = _
    cases readItems reader fuel tail <;> rfl

theorem readItems_last (hc : startsScalar c) (hlead : lead ∈ [[], [' ']]) (fuel : Nat)
    (hread : reader (c :: cs) = some (v, ']' :: tail)) :
    readItems reader (fuel + 1) (lead ++ c :: cs) = some ([v], tail) := by
  have hclose : c ≠ ']' := hc.ne (by decide) rfl
  have hnext := skipLines_of_head (by decide : ']' ∉ skipped) tail (']' :: tail).length
  unfold readItems
  rw [skipLines_lead hlead hc.not_mem_skipped]
  split
  · simp_all
  · simp only [hread, Option.bind_eq_bind, Option.bind_some]
    rw [hnext]
    rfl

theorem readItems_print (rest : List Char) (item : Toml) (items : List Toml)
    (hscalar : ∀ v ∈ item :: items, v.IsScalar)
    (hreader : ∀ v ∈ item :: items, ∀ tail, endsValue tail →
      reader (v.print ++ tail) = some (v, tail))
    (hlead : lead ∈ [[], [' ']]) (fuel : Nat) (hfuel : items.length < fuel) :
    readItems reader fuel (lead ++ (item.print ++ (printItems items ++ ']' :: rest))) =
      some (item :: items, rest) := by
  induction items generalizing item lead fuel with
  | nil =>
    obtain ⟨fuel, rfl⟩ := Nat.exists_eq_add_one.mpr hfuel
    obtain ⟨c, cs, hcons, hc⟩ := print_head (hscalar item (by simp))
    have hread := hreader item (by simp) (']' :: rest) (endsValue_printItems [] rest)
    rw [hcons, List.cons_append] at hread
    unfold printItems
    rw [List.nil_append, hcons, List.cons_append, readItems_last hc hlead _ hread]
  | cons next items ih =>
    obtain ⟨fuel, rfl⟩ := Nat.exists_eq_add_one.mpr (by omega : 0 < fuel)
    obtain ⟨c, cs, hcons, hc⟩ := print_head (hscalar item (by simp))
    have hread := hreader item (by simp) _ (endsValue_printItems (next :: items) rest)
    have ih := ih next (fun v hv => hscalar v (by simp [hv])) (fun v hv => hreader v (by simp [hv]))
      (by simp : [' '] ∈ [[], [' ']]) fuel (by simpa using hfuel)
    simp only [printItems, List.append_assoc, List.cons_append, List.nil_append] at hread ih ⊢
    rw [hcons, List.cons_append] at hread ⊢
    rw [readItems_more hc hlead _ hread, ih]
    rfl

/-- A value that a document of a configuration holds: a scalar or an array of scalars. -/
def IsPlain : Toml → Prop
  | .array items => ∀ v ∈ items, v.IsScalar
  | v => v.IsScalar

theorem IsScalar.isPlain {v : Toml} (h : v.IsScalar) : v.IsPlain := by
  cases v with
  | array items => exact absurd h id
  | string s => exact h
  | integer i => exact h
  | float x => exact h
  | boolean b => exact h
  | datetime d => exact h
  | table fields => exact h

theorem readValue_scalar {v : Toml} (hv : v.IsScalar) (depth : Nat) (h : endsValue rest) :
    readValue depth (v.print ++ rest) = some (v, rest) := by
  have hread := readScalar_print hv h
  cases depth with
  | zero => exact hread
  | succ depth =>
    obtain ⟨c, cs, hcons, hc⟩ := print_head hv
    have hbracket : c ≠ '[' := hc.ne (by decide) rfl
    have hbrace : c ≠ '{' := hc.ne (by decide) rfl
    rw [hcons, List.cons_append] at hread ⊢
    simp [readValue, hbracket, hbrace, hread]

theorem readValue_print {v : Toml} (hv : v.IsPlain) (depth : Nat) (h : endsValue rest) :
    readValue (depth + 1) (v.print ++ rest) = some (v, rest) := by
  cases v with
  | array items =>
    cases items with
    | nil =>
      simp [print, readValue, readItems, skipLines_of_head (by decide : ']' ∉ skipped)]
    | cons item items =>
      have hlen := length_le_printItems items
      have hread := readItems_print rest item items hv
        (fun v hitem tail htail => readValue_scalar (hv v hitem) depth htail)
        (by simp : [] ∈ [[], [' ']])
        ((item.print ++ (printItems items ++ ']' :: rest)).length + 1)
        (by simp only [List.length_append]; omega)
      simp only [List.nil_append] at hread
      unfold print
      simp only [List.cons_append, List.append_assoc, List.nil_append, readValue]
      rw [hread]
      rfl
  | string s => exact readValue_scalar (v := .string s) hv _ h
  | integer i => exact readValue_scalar (v := .integer i) hv _ h
  | float x => exact readValue_scalar (v := .float x) hv _ h
  | boolean b => exact readValue_scalar (v := .boolean b) hv _ h
  | datetime d => exact absurd hv id
  | table fields => exact absurd hv id

end TestBeam.Toml
