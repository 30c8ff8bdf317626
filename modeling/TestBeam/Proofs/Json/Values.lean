import TestBeam.Proofs.Json.Numbers
import TestBeam.Proofs.Json.Strings
import TestBeam.Proofs.Result

/-!
# Values read back

A value that is written reads back as itself, in either style and at any depth. The reader passes over
the line breaks of the writer, and the length of the text bounds the calls it needs.
-/

namespace TestBeam.Json

/-- A value that is written as what it is: its numbers are literals, and every part can be used. -/
inductive IsPlain : Json → Prop where
  | null : IsPlain .null
  | boolean (b : Bool) : IsPlain (.boolean b)
  | number {literal : List Char} (h : IsNumber literal) : IsPlain (.number literal)
  | string (s : String) : IsPlain (.string s)
  | array {items : List Json} (h : ∀ item ∈ items, IsPlain item) : IsPlain (.array items)
  | object {fields : List (String × Json)} (h : ∀ field ∈ fields, IsPlain field.2) :
      IsPlain (.object fields)

theorem isPlain_ofNat (n : Nat) : (ofNat n).IsPlain :=
  .number (isNumber_digits n)

theorem isPlain_ofFloat (x : Float) : (ofFloat x).IsPlain := by
  unfold ofFloat
  split
  · rename_i hfinite
    exact .number (isNumber_print hfinite)
  · exact .null

theorem isPlain_ofOption (text : Option String) : (ofOption text).IsPlain := by
  cases text with
  | none => exact .null
  | some s => exact .string s

/-! ## Spaces -/

theorem skipSpace_of_head {c : Char} (h : isSpace c = false) (cs : List Char) :
    skipSpace (c :: cs) = c :: cs := by
  simp [skipSpace, h]

theorem skipSpace_lineBreak (style : Style) (depth : Nat) (cs : List Char) :
    skipSpace (style.lineBreak depth ++ cs) = skipSpace cs := by
  unfold skipSpace
  apply List.dropWhile_append_of_pos
  intro c hc
  cases style with
  | compact => simp [Style.lineBreak] at hc
  | pretty =>
    rcases List.mem_cons.mp hc with rfl | hc
    · decide
    · rw [List.eq_of_mem_replicate hc]
      decide

theorem readValue_lineBreak (style : Style) (depth fuel : Nat) (cs : List Char) :
    readValue fuel (style.lineBreak depth ++ cs) = readValue fuel cs := by
  cases fuel with
  | zero => simp only [readValue]
  | succ fuel => simp only [readValue, skipSpace_lineBreak]

theorem expect_lineBreak (style : Style) (depth : Nat) (c : Char) (cs : List Char) :
    expect c (style.lineBreak depth ++ cs) = expect c cs := by
  simp only [expect, skipSpace_lineBreak]

theorem expect_head {c d : Char} (h : isSpace d = false) (cs : List Char) :
    expect c (d :: cs) = if d = c then some cs else none := by
  simp [expect, skipSpace_of_head h]

theorem readValue_colon (style : Style) (fuel : Nat) (cs : List Char) :
    ∃ tail, style.colon ++ cs = ':' :: tail ∧ readValue fuel tail = readValue fuel cs := by
  cases style with
  | compact => exact ⟨cs, rfl, rfl⟩
  | pretty =>
    refine ⟨' ' :: cs, rfl, ?_⟩
    have hspace : skipSpace (' ' :: cs) = skipSpace cs := by simp [skipSpace, isSpace]
    cases fuel with
    | zero => simp only [readValue]
    | succ fuel => simp only [readValue, hspace]

/-! ## What stands around a value -/

/-- A value starts with no space and closes nothing. -/
def startsValue (c : Char) : Prop :=
  c ∈ ['n', 't', 'f', '"', '[', '{', '-'] ∨ c.isDigit = true

theorem startsValue.not_closing {c : Char} (h : startsValue c) : isSpace c = false ∧ c ≠ ']' := by
  have hne {d : Char} (hd : d ∉ ['n', 't', 'f', '"', '[', '{', '-']) (hdigit : d.isDigit = false) :
      c ≠ d := by
    rintro rfl
    rcases h with h | h
    · exact hd h
    · simp [hdigit] at h
  have hspace := hne (d := ' ') (by decide) rfl
  have hline := hne (d := '\n') (by decide) rfl
  have htab := hne (d := '\t') (by decide) rfl
  have hreturn := hne (d := '\r') (by decide) rfl
  exact ⟨by simp [isSpace, hspace, hline, htab, hreturn], hne (by decide) rfl⟩

theorem IsPlain.render_head {json : Json} (h : json.IsPlain) (style : Style) (depth : Nat) :
    ∃ c cs, json.render style depth = c :: cs ∧ startsValue c := by
  cases h with
  | null => exact ⟨'n', _, by rw [render]; rfl, .inl (by simp)⟩
  | boolean b =>
    cases b with
    | true => exact ⟨'t', _, by rw [render]; rfl, .inl (by simp)⟩
    | false => exact ⟨'f', _, by rw [render]; rfl, .inl (by simp)⟩
  | number h =>
    obtain ⟨c, cs, hcons, hc⟩ := h.head
    exact ⟨c, cs, by rw [render, hcons], hc.imp (by rintro rfl; simp) id⟩
  | string s => exact ⟨'"', _, by rw [render]; rfl, .inl (by simp)⟩
  | @array items h =>
    cases items with
    | nil => exact ⟨'[', _, by rw [render], .inl (by simp)⟩
    | cons item items => exact ⟨'[', _, by rw [render], .inl (by simp)⟩
  | @object fields h =>
    cases fields with
    | nil => exact ⟨'{', _, by rw [render], .inl (by simp)⟩
    | cons field fields => exact ⟨'{', _, by rw [render], .inl (by simp)⟩

theorem endsNumber_lineBreak (style : Style) (depth : Nat) {c : Char} (hc : c ∈ [',', ']', '}'])
    (rest : List Char) : EndsNumber (style.lineBreak depth ++ c :: rest) := by
  cases style with
  | compact => exact .of_cons (List.mem_append_left ['\n'] hc) rest
  | pretty => exact .of_cons (by simp) _

theorem endsNumber_renderItems (style : Style) (depth : Nat) (items : List Json)
    (rest : List Char) :
    EndsNumber (renderItems style depth items ++ (style.lineBreak depth ++ ']' :: rest)) := by
  cases items with
  | nil =>
    rw [renderItems]
    exact endsNumber_lineBreak style depth (by simp) rest
  | cons item items =>
    rw [renderItems]
    exact .of_cons (by simp) _

theorem endsNumber_renderFields (style : Style) (depth : Nat) (fields : List (String × Json))
    (rest : List Char) :
    EndsNumber (renderFields style depth fields ++ (style.lineBreak depth ++ '}' :: rest)) := by
  cases fields with
  | nil =>
    rw [renderFields]
    exact endsNumber_lineBreak style depth (by simp) rest
  | cons field fields =>
    obtain ⟨key, value⟩ := field
    rw [renderFields]
    exact .of_cons (by simp) _

/-! ## Items and fields -/

/-- The text of a value is read as the value. Its length bounds the calls. -/
def ReadsBack (style : Style) (json : Json) : Prop :=
  ∀ depth fuel rest, (json.render style depth).length ≤ fuel → EndsNumber rest →
    readValue fuel (json.render style depth ++ rest) = some (json, rest)

variable {style : Style}

theorem readItems_render (depth : Nat) (rest : List Char) (item : Json) (items : List Json)
    (hread : ∀ v ∈ item :: items, ReadsBack style v) (fuel : Nat)
    (hfuel : (item.render style (depth + 1)).length +
      (renderItems style depth items).length < fuel) :
    readItems fuel (style.lineBreak (depth + 1) ++ (item.render style (depth + 1) ++
      (renderItems style depth items ++ (style.lineBreak depth ++ ']' :: rest)))) =
      some (item :: items, rest) := by
  induction items generalizing item fuel with
  | nil =>
    obtain ⟨fuel, rfl⟩ := Nat.exists_eq_add_one.mpr (by omega : 0 < fuel)
    have hitem := hread item (by simp) (depth + 1) fuel _ (by omega)
      (endsNumber_renderItems style depth [] rest)
    simp only [renderItems, List.nil_append] at hitem ⊢
    have hclose : isSpace ']' = false := rfl
    simp [readItems, readValue_lineBreak, hitem, expect_lineBreak, expect_head hclose]
  | cons next items ih =>
    obtain ⟨fuel, rfl⟩ := Nat.exists_eq_add_one.mpr (by omega : 0 < fuel)
    have hitem := hread item (by simp) (depth + 1) fuel _ (by omega)
      (endsNumber_renderItems style depth (next :: items) rest)
    simp only [renderItems, List.length_cons, List.length_append] at hfuel
    have ih := ih next (fun v hv => hread v (List.mem_cons_of_mem _ hv)) fuel (by omega)
    simp only [renderItems, List.cons_append, List.append_assoc] at hitem ⊢
    have hcomma : isSpace ',' = false := rfl
    simp [readItems, readValue_lineBreak, hitem, expect_head hcomma, ih]

theorem readFields_render (depth : Nat) (rest : List Char) (key : String) (value : Json)
    (fields : List (String × Json)) (hread : ∀ f ∈ (key, value) :: fields, ReadsBack style f.2)
    (fuel : Nat)
    (hfuel : (value.render style (depth + 1)).length +
      (renderFields style depth fields).length < fuel) :
    readFields fuel (style.lineBreak (depth + 1) ++ (quote key ++ (style.colon ++
      (value.render style (depth + 1) ++
        (renderFields style depth fields ++ (style.lineBreak depth ++ '}' :: rest)))))) =
      some (some ((key, value) :: fields), rest) := by
  -- The first field has no comma in front of it, so the induction is on those behind it.
  induction fields generalizing key value fuel with
  | nil =>
    obtain ⟨fuel, rfl⟩ := Nat.exists_eq_add_one.mpr (by omega : 0 < fuel)
    have hvalue := hread (key, value) (by simp) (depth + 1) fuel _ (by simp only; omega)
      (endsNumber_renderFields style depth [] rest)
    simp only [renderFields, List.nil_append] at hvalue ⊢
    obtain ⟨tail, hcolon, htail⟩ := readValue_colon style fuel
      (value.render style (depth + 1) ++ (style.lineBreak depth ++ '}' :: rest))
    obtain ⟨body, hquote, hkey⟩ := readString_quote key (':' :: tail)
    have hopen : isSpace '"' = false := rfl
    have hmiddle : isSpace ':' = false := rfl
    have hclose : isSpace '}' = false := rfl
    simp [readFields, expect_lineBreak, hquote, hcolon, expect_head hopen, hkey,
      expect_head hmiddle, htail, hvalue, expect_head hclose]
  | cons next fields ih =>
    obtain ⟨nextKey, nextValue⟩ := next
    obtain ⟨fuel, rfl⟩ := Nat.exists_eq_add_one.mpr (by omega : 0 < fuel)
    have hvalue := hread (key, value) (by simp) (depth + 1) fuel _ (by simp only; omega)
      (endsNumber_renderFields style depth ((nextKey, nextValue) :: fields) rest)
    simp only [renderFields, List.length_cons, List.length_append] at hfuel
    have ih := ih nextKey nextValue (fun f hf => hread f (List.mem_cons_of_mem _ hf)) fuel (by omega)
    simp only [renderFields, List.cons_append, List.append_assoc] at hvalue ⊢
    obtain ⟨tail, hcolon, htail⟩ := readValue_colon style fuel
      (value.render style (depth + 1) ++ (',' :: (style.lineBreak (depth + 1) ++ (quote nextKey ++
        (style.colon ++ (nextValue.render style (depth + 1) ++ (renderFields style depth fields ++
          (style.lineBreak depth ++ '}' :: rest))))))))
    obtain ⟨body, hquote, hkey⟩ := readString_quote key (':' :: tail)
    have hopen : isSpace '"' = false := rfl
    have hmiddle : isSpace ':' = false := rfl
    have hcomma : isSpace ',' = false := rfl
    simp [readFields, expect_lineBreak, hquote, hcolon, expect_head hopen, hkey,
      expect_head hmiddle, htail, hvalue, expect_head hcomma, ih]

/-! ## Values -/

theorem readsBack_array {items : List Json} (hplain : ∀ item ∈ items, item.IsPlain)
    (hread : ∀ item ∈ items, ReadsBack style item) : ReadsBack style (.array items) := by
  intro depth fuel rest hfuel _
  cases items with
  | nil =>
    rw [render] at hfuel ⊢
    obtain ⟨fuel, rfl⟩ := Nat.exists_eq_add_one.mpr (Nat.lt_of_lt_of_le (by simp) hfuel)
    have hopen : isSpace '[' = false := rfl
    have hclose : isSpace ']' = false := rfl
    simp [readValue, skipSpace_of_head hopen, expect_head hclose]
  | cons item items =>
    rw [render] at hfuel ⊢
    obtain ⟨fuel, rfl⟩ := Nat.exists_eq_add_one.mpr (Nat.lt_of_lt_of_le (by simp) hfuel)
    simp only [List.length_cons, List.length_append] at hfuel
    have hitems := readItems_render depth rest item items hread fuel (by omega)
    obtain ⟨c, cs, hcons, hc⟩ := (hplain item (by simp)).render_head style (depth + 1)
    obtain ⟨hspace, hbracket⟩ := hc.not_closing
    have hopen : isSpace '[' = false := rfl
    have hmore (tail : List Char) : expect ']' (style.lineBreak (depth + 1) ++
        (item.render style (depth + 1) ++ tail)) = none := by
      rw [expect_lineBreak, hcons, List.cons_append, expect_head hspace, if_neg hbracket]
    simp only [List.cons_append, List.append_assoc, List.nil_append] at hitems ⊢
    simp [readValue, skipSpace_of_head hopen, hmore, hitems]

theorem readsBack_object {fields : List (String × Json)}
    (hread : ∀ f ∈ fields, ReadsBack style f.2) : ReadsBack style (.object fields) := by
  intro depth fuel rest hfuel _
  cases fields with
  | nil =>
    rw [render] at hfuel ⊢
    obtain ⟨fuel, rfl⟩ := Nat.exists_eq_add_one.mpr (Nat.lt_of_lt_of_le (by simp) hfuel)
    have hopen : isSpace '{' = false := rfl
    have hclose : isSpace '}' = false := rfl
    simp [readValue, skipSpace_of_head hopen, expect_head hclose]
  | cons field fields =>
    obtain ⟨key, value⟩ := field
    rw [render] at hfuel ⊢
    obtain ⟨fuel, rfl⟩ := Nat.exists_eq_add_one.mpr (Nat.lt_of_lt_of_le (by simp) hfuel)
    simp only [List.length_cons, List.length_append] at hfuel
    have hfields := readFields_render depth rest key value fields hread fuel (by omega)
    have hopen : isSpace '{' = false := rfl
    have hquote : isSpace '"' = false := rfl
    have hmore (tail : List Char) : expect '}' (style.lineBreak (depth + 1) ++
        (quote key ++ tail)) = none := by
      rw [expect_lineBreak]
      exact expect_head hquote _
    simp only [List.cons_append, List.append_assoc, List.nil_append] at hfields ⊢
    simp [readValue, skipSpace_of_head hopen, hmore, hfields]

theorem readsBack_number {literal : List Char} (h : IsNumber literal) :
    ReadsBack style (.number literal) := by
  intro depth fuel rest hfuel hrest
  have hread := readNumber_append h hrest
  obtain ⟨c, cs, rfl, hc⟩ := h.head
  rw [render] at hfuel ⊢
  obtain ⟨fuel, rfl⟩ := Nat.exists_eq_add_one.mpr (Nat.lt_of_lt_of_le (by simp) hfuel)
  have hspace := (startsValue.not_closing (hc.imp (by rintro rfl; simp) id)).1
  have hother : c ∉ ['n', 't', 'f', '"', '[', '{'] := by
    intro hmem
    simp only [List.mem_cons, List.not_mem_nil, or_false] at hmem
    rcases hmem with rfl | rfl | rfl | rfl | rfl | rfl <;> simp at hc
  rw [List.cons_append] at hread ⊢
  rw [readValue, skipSpace_of_head hspace]
  split
  case h_8 => rw [hread, Option.map_some]
  all_goals simp_all

theorem readsBack_string (s : String) : ReadsBack style (.string s) := by
  intro depth fuel rest hfuel _
  obtain ⟨body, hquote, hread⟩ := readString_quote s rest
  rw [render, hquote] at hfuel ⊢
  obtain ⟨fuel, rfl⟩ := Nat.exists_eq_add_one.mpr (Nat.lt_of_lt_of_le (by simp) hfuel)
  have hopen : isSpace '"' = false := rfl
  rw [List.cons_append, readValue, skipSpace_of_head hopen]
  simp [hread]

theorem readWord_append (word : String) (rest : List Char) :
    readWord word (word.toList ++ rest) = some rest := by
  simp [readWord, ← String.length_toList]

theorem readsBack_null : ReadsBack style .null := by
  intro depth fuel rest hfuel _
  rw [render] at hfuel ⊢
  obtain ⟨fuel, rfl⟩ := Nat.exists_eq_add_one.mpr (Nat.lt_of_lt_of_le (by simp) hfuel)
  have hfirst : isSpace 'n' = false := rfl
  have hword : readWord "ull" ('u' :: 'l' :: 'l' :: rest) = some rest := readWord_append "ull" rest
  simp [readValue, skipSpace_of_head hfirst, hword]

theorem readsBack_boolean (b : Bool) : ReadsBack style (.boolean b) := by
  intro depth fuel rest hfuel _
  rw [render] at hfuel ⊢
  obtain ⟨fuel, rfl⟩ := Nat.exists_eq_add_one.mpr (Nat.lt_of_lt_of_le (by cases b <;> simp) hfuel)
  cases b with
  | true =>
    have hfirst : isSpace 't' = false := rfl
    have hword : readWord "rue" ('r' :: 'u' :: 'e' :: rest) = some rest := readWord_append "rue" rest
    simp [readValue, skipSpace_of_head hfirst, hword]
  | false =>
    have hfirst : isSpace 'f' = false := rfl
    have hword : readWord "alse" ('a' :: 'l' :: 's' :: 'e' :: rest) = some rest :=
      readWord_append "alse" rest
    simp [readValue, skipSpace_of_head hfirst, hword]

theorem readsBack_of_isPlain {json : Json} (h : json.IsPlain) (style : Style) :
    ReadsBack style json := by
  induction h with
  | null => exact readsBack_null
  | boolean b => exact readsBack_boolean b
  | number h => exact readsBack_number h
  | string s => exact readsBack_string s
  | array h ih => exact readsBack_array h ih
  | object h ih => exact readsBack_object ih

/-- A document that is written reads back. -/
theorem parse_print {json : Json} (h : json.IsPlain) (style : Style) :
    parse? (json.print style) = some json := by
  have hread := readsBack_of_isPlain h style 0 (2 * (json.render style 0).length + 2) []
    (by omega) (by simp [EndsNumber])
  rw [List.append_nil] at hread
  simp [parse?, print, hread, skipSpace]

/-! ## Records -/

section Records

variable {fields : List (String × Json)}

theorem field?_of_mem (h : (fields.map Prod.fst).Nodup) {field : String × Json}
    (hfield : field ∈ fields) : field? field.1 fields = some (some field.2) := by
  have honly : fields.filter (·.1 == field.1) = [field] := by
    induction fields with
    | nil => simp at hfield
    | cons first fields ih =>
      obtain ⟨hfirst, hrest⟩ := List.nodup_cons.mp h
      rcases List.mem_cons.mp hfield with rfl | hfield
      · rw [List.filter_cons_of_pos (by simp), List.cons.injEq]
        refine ⟨rfl, List.filter_eq_nil_iff.mpr fun other hother hname => hfirst ?_⟩
        exact List.mem_map.mpr ⟨other, hother, by simpa using hname⟩
      · have hne : first.1 ≠ field.1 := fun heq => hfirst (heq ▸ List.mem_map_of_mem hfield)
        rw [List.filter_cons_of_neg (by simpa using hne), ih hrest hfield]
  simp only [field?, honly]

theorem record_object (h : (fields.map Prod.fst).Nodup) :
    (Json.object fields).record? (fields.map Prod.fst) = some (fields.map fun f => some f.2) :=
  mapM_map_pure fun _ hfield => field?_of_mem h hfield

end Records

end TestBeam.Json
