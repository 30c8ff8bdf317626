import TestBeam.Proofs.Configuration.Written

/-!
# Arrays in a document

An array of words, numbers and truth values is stored as one text. Split again, the text gives the items
one by one, so a list of names and a vector are read element by element. Other items are refused.
-/

namespace TestBeam

/-! ## Items -/

instance (text : String) : Decidable (Text.IsWord text) :=
  decidable_of_iff (text ≠ "" ∧ text.toList.all (fun c => !Text.isSeparator c) = true)
    ⟨fun h => ⟨h.1, by simpa using h.2⟩, fun h => ⟨h.ne_empty, by simpa using h.joined⟩⟩

namespace Toml

/-- An item that can stand in a list. -/
def IsListed : Toml → Prop
  | .string s => Text.IsWord s
  | .integer _ => True
  | .float _ => True
  | .boolean _ => True
  | .datetime _ => False
  | .array _ => False
  | .table _ => False

/-- An item that has parts of its own. -/
def IsNested : Toml → Prop
  | .datetime _ => True
  | .array _ => True
  | .table _ => True
  | _ => False

instance : DecidablePred IsListed
  | .string s => inferInstanceAs (Decidable (Text.IsWord s))
  | .integer _ => .isTrue trivial
  | .float _ => .isTrue trivial
  | .boolean _ => .isTrue trivial
  | .datetime _ => .isFalse id
  | .array _ => .isFalse id
  | .table _ => .isFalse id

instance : DecidablePred IsNested
  | .string _ => .isFalse id
  | .integer _ => .isFalse id
  | .float _ => .isFalse id
  | .boolean _ => .isFalse id
  | .datetime _ => .isTrue trivial
  | .array _ => .isTrue trivial
  | .table _ => .isTrue trivial

theorem isWord_printFloat (x : Float) : Text.IsWord (String.ofList (printFloat x)) := by
  have hword {cs : List Char} {y : Float} (h : Decimal.readFloat cs = some y) :
      Text.IsWord (String.ofList cs) :=
    Decimal.isWord_of_isNumeric (Decimal.isNumeric_of_readFloat h).1
      (Decimal.isNumeric_of_readFloat h).2
  unfold printFloat
  cases hfinite : x.isFinite with
  | true =>
    rw [Decimal.print_positional floatLayout (fun _ => rfl) hfinite, String.toList_ofList]
    exact hword (Decimal.readFloat_positional hfinite floatLayout.tie floatLayout.pointZero)
  | false =>
    -- The three words for numbers that are not finite read as numbers as well.
    have hprint : floatLayout.print x ∈ ["nan", "inf", "-inf"] := by
      unfold Decimal.Layout.print
      split
      · simp [floatLayout]
      · rw [hfinite, Bool.not_false, if_pos rfl]
        generalize Decimal.isNegative x = negative
        cases negative <;> decide
    simp only [List.mem_cons, List.not_mem_nil, or_false] at hprint
    rcases hprint with hprint | hprint | hprint
    · rw [hprint]
      exact hword (y := 0 / 0) rfl
    · rw [hprint]
      exact hword (y := 1 / 0) rfl
    · rw [hprint]
      exact hword (y := -(1 / 0)) rfl

theorem itemText_of_isListed {item : Toml} (h : item.IsListed) :
    ∃ text, item.itemText? = some text ∧ Text.IsWord text := by
  cases item with
  | string s => exact ⟨s, rfl, h⟩
  | integer i => exact ⟨_, by simp only [itemText?, print], Decimal.isWord_integer i.toInt⟩
  | float x => exact ⟨_, by simp only [itemText?, print], isWord_printFloat x⟩
  | boolean b =>
    refine ⟨if b then "true" else "false", ?_, ?_⟩
    · cases b <;> rfl
    · cases b <;> exact ⟨by decide, by simp [Text.isSeparator, Text.isBlank]⟩
  | datetime d => exact h.elim
  | array items => exact h.elim
  | table fields => exact h.elim

theorem itemText_of_isNested {item : Toml} (h : item.IsNested) : item.itemText? = none := by
  cases item with
  | string s => exact h.elim
  | integer i => exact h.elim
  | float x => exact h.elim
  | boolean b => exact h.elim
  | datetime d => rfl
  | array items => rfl
  | table fields => rfl

theorem mapM_itemText_of_isListed {items : List Toml} (h : ∀ item ∈ items, item.IsListed) :
    ∃ texts, items.mapM itemText? = some texts ∧ texts.length = items.length ∧
      ∀ text ∈ texts, Text.IsWord text := by
  induction items with
  | nil => exact ⟨[], rfl, rfl, by simp⟩
  | cons item items ih =>
    obtain ⟨hitem, hitems⟩ := List.forall_mem_cons.mp h
    obtain ⟨text, htext, hword⟩ := itemText_of_isListed hitem
    obtain ⟨texts, htexts, hlength, hwords⟩ := ih hitems
    refine ⟨text :: texts, ?_, by simp [hlength], List.forall_mem_cons.mpr ⟨hword, hwords⟩⟩
    rw [List.mapM_cons, htext, htexts]
    rfl

theorem mapM_itemText_of_isNested {items : List Toml} {item : Toml} (hmem : item ∈ items)
    (h : item.IsNested) : items.mapM itemText? = none := by
  induction items with
  | nil => simp at hmem
  | cons first items ih =>
    rw [List.mapM_cons]
    rcases List.mem_cons.mp hmem with rfl | hmem
    · rw [itemText_of_isNested h]
      rfl
    · rw [ih hmem]
      cases first.itemText? <;> rfl

end Toml

/-! ## The stored text -/

/-- Only a single word is a quantity. -/
theorem Setting.ofText_of_words {text : String} (h : (Text.words text).length ≠ 1) :
    ofText text = .text text := by
  unfold ofText
  cases hq : Quantity.withUnit? text with
  | none => rfl
  | some q =>
    rw [← Text.words_trim, (Quantity.isWord_of_withUnit hq).2.words] at h
    exact absurd rfl h

theorem Setting.ofText_join {texts : List String} (hlength : 2 ≤ texts.length)
    (h : ∀ text ∈ texts, Text.IsWord text) :
    ofText (", ".intercalate texts) = .text (", ".intercalate texts) ∧
      Text.words (", ".intercalate texts) = texts := by
  have hwords : Text.words (", ".intercalate texts) = texts := by
    rw [Text.words_intercalate (by decide) (by decide), Text.flatMap_words h]
  refine ⟨ofText_of_words ?_, hwords⟩
  rw [hwords]
  omega

/-! ## Reading the stored text -/

namespace Entry

/-- The setting is a list of texts, each of which is read on its own. -/
structure ReadsEach (entry : Entry) (key : String) (texts : List String) : Prop where
  stored : entry.get? key = some (.text (", ".intercalate texts))
  names : entry.names key = texts
  vector : ∀ d x y z, entry.vector key d = .ok ⟨x, y, z⟩ ↔
    ∃ a b c, texts = [a, b, c] ∧ Quantity.read a d = .ok x ∧ Quantity.read b d = .ok y ∧
      Quantity.read c d = .ok z
  failing : ∀ d before text after cause, texts = before ++ text :: after →
    (∀ t ∈ before, ∃ x, Quantity.read t d = .ok x) → Quantity.read text d = .error cause →
    entry.vector key d = .error (.unit entry.name key (", ".intercalate texts) cause)
  miscounted : ∀ d, (∀ t ∈ texts, ∃ x, Quantity.read t d = .ok x) → texts.length ≠ 3 →
    entry.vector key d = .error (.unit entry.name key (", ".intercalate texts)
      (.wrongCount (", ".intercalate texts) 3 texts.length))

variable {entry : Entry} {key : String} {texts : List String}

theorem vector_of_text {text : String} (h : entry.get? key = some (.text text)) (d : Dimension) :
    entry.vector key d = entry.withUnits key (.text text) (Quantity.readVector text d) := by
  unfold vector
  rw [require_of_get h]
  rfl

theorem readsEach_of_text (h : entry.get? key = some (.text (", ".intercalate texts)))
    (hwords : Text.words (", ".intercalate texts) = texts) : entry.ReadsEach key texts where
  stored := h
  names := by
    unfold names
    rw [h]
    exact hwords
  vector d x y z := by
    rw [vector_of_text h, ← Quantity.readVector_ok_iff hwords]
    cases Quantity.readVector (", ".intercalate texts) d <;> simp [withUnits]
  failing d before text after cause hsplit hbefore hread := by
    rw [vector_of_text h, Quantity.readVector_failing hwords hsplit hbefore hread]
    rfl
  miscounted d hread hlength := by
    rw [vector_of_text h, Quantity.readVector_miscounted hwords hread hlength]
    rfl

end Entry

/-! ## Entries of a document -/

namespace EntryDocument

variable {e : EntryDocument} {entry : Entry} {key : String} {items : List Toml}

theorem setting_of_listed (name key : String) (hlength : 2 ≤ items.length)
    (h : ∀ item ∈ items, item.IsListed) :
    ∃ texts, items.mapM Toml.itemText? = some texts ∧ texts.length = items.length ∧
      setting name (key, .array items) = .ok (key, .text (", ".intercalate texts)) ∧
      Text.words (", ".intercalate texts) = texts := by
  obtain ⟨texts, htexts, hcount, hwords⟩ := Toml.mapM_itemText_of_isListed h
  obtain ⟨hstored, hjoined⟩ := Setting.ofText_join (hcount ▸ hlength) hwords
  refine ⟨texts, htexts, hcount, ?_, hjoined⟩
  have hvalue : Setting.ofValue? (.array items) = some (.text (", ".intercalate texts)) := by
    rw [Setting.ofValue?, htexts, Option.map_some, hstored]
  unfold setting
  rw [hvalue]

def nestedError (name key : String) (items : List Toml) : SettingError :=
  .invalid name key (Toml.display (.array items)) "array values are not supported"

theorem setting_of_nested (name key : String) {item : Toml} (hmem : item ∈ items)
    (h : item.IsNested) :
    setting name (key, .array items) = .error (.malformedSetting (nestedError name key items)) := by
  have hvalue : Setting.ofValue? (.array items) = none := by
    rw [Setting.ofValue?, Toml.mapM_itemText_of_isNested hmem h]
    rfl
  unfold setting
  rw [hvalue]
  rfl

theorem readsEach_of_listed (h : e.toEntry = .ok entry) (hvalue : e.value? key = some (.array items))
    {texts : List String}
    (hset : setting e.name (key, .array items) = .ok (key, .text (", ".intercalate texts)))
    (hwords : Text.words (", ".intercalate texts) = texts) (hlength : texts.length ≠ 1) :
    entry.ReadsEach key texts := by
  refine Entry.readsEach_of_text ?_ hwords
  rw [(toEntry_ok h).2, hvalue, Option.bind_some, (setting_ok hset).2, Option.map_some]
  exact congrArg some (Setting.ofText_of_words (hwords.symm ▸ hlength))

theorem toEntry_error {cause : ConfigurationError} (h : e.toEntry = .error cause) :
    ∃ field ∈ e.settings, setting e.name field = .error cause := by
  unfold toEntry at h
  cases hread : e.settings.mapM (setting e.name) with
  | ok settings =>
    rw [hread] at h
    cases h
  | error first =>
    rw [hread] at h
    obtain rfl := Except.error.inj h
    obtain ⟨before, field, after, hsplit, -, hfield⟩ := mapM_error_iff.mp hread
    exact ⟨field, by simp [hsplit], hfield⟩

theorem malformed_of_toEntry {cause : ConfigurationError} (h : e.toEntry = .error cause) :
    ∃ reason, cause = .malformedSetting reason := by
  obtain ⟨field, -, hfield⟩ := toEntry_error h
  unfold setting at hfield
  split at hfield
  · cases hfield
  · exact ⟨_, (Except.error.inj hfield).symm⟩

end EntryDocument

/-! ## Documents -/

def ConfigurationDocument.entries (d : ConfigurationDocument) : List EntryDocument :=
  d.global.toList ++ d.modules ++ d.detectors

namespace Configuration

variable {d : ConfigurationDocument} {c : Configuration}

theorem toEntry_of_ofDocument (h : ofDocument d = .ok c) {e : EntryDocument} (he : e ∈ d.entries) :
    ∃ entry ∈ c.entries, e.toEntry = .ok entry := by
  obtain ⟨global, modules, detectors, ignored, hglobal, hmodules, hdetectors, rfl⟩ := ofDocument_ok h
  unfold ConfigurationDocument.entries at he
  simp only [List.mem_append, Option.mem_toList] at he
  unfold entries
  simp only [List.mem_append, Option.mem_toList]
  rcases he with (he | he) | he
  · rw [Option.mem_def.mp he] at hglobal
    obtain ⟨entry, hread, rfl⟩ := exists_of_map_ok hglobal
    exact ⟨entry, .inl (.inl rfl), hread⟩
  · obtain ⟨entry, hentry, hread⟩ := exists_read_of_mapM_ok hmodules he
    exact ⟨entry, .inl (.inr hentry), hread⟩
  · obtain ⟨entry, hentry, hread⟩ := exists_read_of_mapM_ok hdetectors he
    exact ⟨entry, .inr ((sortByName_perm Entry.name detectors).mem_iff.mpr hentry), hread⟩

theorem malformed_of_ofDocument {cause : ConfigurationError} (h : ofDocument d = .error cause) :
    ∃ reason, cause = .malformedSetting reason := by
  have hlist {es : List EntryDocument} (hes : es.mapM EntryDocument.toEntry = .error cause) :
      ∃ reason, cause = .malformedSetting reason := by
    obtain ⟨before, e, after, -, -, hread⟩ := mapM_error_iff.mp hes
    exact EntryDocument.malformed_of_toEntry hread
  unfold ofDocument at h
  rcases error_of_bind h with hglobal | ⟨global, -, h⟩
  · cases hd : d.global with
    | none =>
      rw [hd] at hglobal
      cases hglobal
    | some e =>
      rw [hd] at hglobal
      cases hread : e.toEntry with
      | ok entry =>
        rw [Option.mapM_some, hread] at hglobal
        cases hglobal
      | error first =>
        rw [Option.mapM_some, hread] at hglobal
        obtain rfl := Except.error.inj hglobal
        exact EntryDocument.malformed_of_toEntry hread
  rcases error_of_bind h with hmodules | ⟨modules, -, h⟩
  · exact hlist hmodules
  rcases error_of_bind h with hdetectors | ⟨detectors, -, h⟩
  · exact hlist hdetectors
  · cases h

theorem malformed_of_setting {e : EntryDocument} (he : e ∈ d.entries) {field : String × Toml}
    (hfield : field ∈ e.settings) {cause : ConfigurationError}
    (h : EntryDocument.setting e.name field = .error cause) :
    ∃ reason, ofDocument d = .error (.malformedSetting reason) := by
  cases hread : ofDocument d with
  | error first =>
    obtain ⟨reason, rfl⟩ := malformed_of_ofDocument hread
    exact ⟨reason, rfl⟩
  | ok c =>
    obtain ⟨entry, -, hentry⟩ := toEntry_of_ofDocument hread he
    obtain ⟨settings, hsettings, -⟩ := exists_of_map_ok hentry
    obtain ⟨pair, -, hpair⟩ := exists_read_of_mapM_ok hsettings hfield
    rw [h] at hpair
    cases hpair

def arrayDocument (items : String) : String :=
  "[global]\nname = \"run\"\n\n[global.settings]\nfield = [" ++ items ++ "]\n"

def arrayOf? (text : String) : Option (ConfigurationDocument × EntryDocument × String × List Toml) := do
  let d ← (Toml.parse? text).bind ConfigurationDocument.ofFields
  let e ← d.global
  match e.settings with
  | [(key, .array items)] => some (d, e, key, items)
  | _ => none

theorem arrayOf_some {text : String} {e : EntryDocument} {key : String} {items : List Toml}
    (h : arrayOf? text = some (d, e, key, items)) :
    (Toml.parse? text).bind ConfigurationDocument.ofFields = some d ∧ e ∈ d.entries ∧
      e.value? key = some (.array items) ∧ (key, .array items) ∈ e.settings := by
  obtain ⟨d', hd, h⟩ := Option.bind_eq_some_iff.mp h
  obtain ⟨e', he, h⟩ := Option.bind_eq_some_iff.mp h
  split at h
  · rename_i key' items' hsettings
    cases h
    exact ⟨hd, by simp [ConfigurationDocument.entries, he],
      by simp [EntryDocument.value?, hsettings], by simp [hsettings]⟩
  · cases h

/-! ## Item by item -/

/--
An array of two or more words, numbers and truth values is stored as text, and the getters for names and
vectors read it item by item. An array with an item that has parts of its own is refused, wherever the item
stands.
-/
theorem arrays_read_by_item :
    ∀ (text : String) (d : ConfigurationDocument),
      (Toml.parse? text).bind ConfigurationDocument.ofFields = some d →
      ∀ e ∈ d.entries, ∀ (key : String) (items : List Toml),
        (2 ≤ items.length → (∀ item ∈ items, item.IsListed) →
          ∃ texts, items.mapM Toml.itemText? = some texts ∧ texts.length = items.length ∧
            EntryDocument.setting e.name (key, .array items) =
              .ok (key, .text (", ".intercalate texts)) ∧
            ∀ c, parse text = .ok c → e.value? key = some (.array items) →
              ∃ entry ∈ c.entries, e.toEntry = .ok entry ∧ entry.ReadsEach key texts) ∧
        ((∃ item ∈ items, item.IsNested) → (key, .array items) ∈ e.settings →
          EntryDocument.setting e.name (key, .array items) =
              .error (.malformedSetting (EntryDocument.nestedError e.name key items)) ∧
            ∃ reason, parse text = .error (.malformedSetting reason)) := by
  intro text d htext e he key items
  rw [parse_eq_ofDocument htext]
  constructor
  · intro hlength hitems
    obtain ⟨texts, htexts, hcount, hset, hwords⟩ :=
      EntryDocument.setting_of_listed e.name key hlength hitems
    refine ⟨texts, htexts, hcount, hset, fun c hc hvalue => ?_⟩
    obtain ⟨entry, hentry, hread⟩ := toEntry_of_ofDocument hc he
    exact ⟨entry, hentry, hread,
      EntryDocument.readsEach_of_listed hread hvalue hset hwords (by omega)⟩
  · rintro ⟨item, hmem, hnested⟩ hfield
    have hset := EntryDocument.setting_of_nested e.name key hmem hnested
    exact ⟨hset, malformed_of_setting he hfield hset⟩

theorem arrays_read_by_item_field :
    (∃ c, parse (arrayDocument "\"0mT\", 3.5, -1") = .ok c ∧
      ∃ entry ∈ c.entries, ∃ texts, texts.length = 3 ∧ entry.ReadsEach "field" texts) ∧
    ∃ reason, parse (arrayDocument "1, [2], 3") = .error (.malformedSetting reason) := by
  constructor
  · have hshape : (arrayOf? (arrayDocument "\"0mT\", 3.5, -1")).any (fun (_, _, key, items) =>
        key = "field" ∧ items.length = 3 ∧ ∀ item ∈ items, item.IsListed) = true := by
      decide +kernel
    have hloads : (parse (arrayDocument "\"0mT\", 3.5, -1")).toOption.map (fun _ => ()) = some () := by
      decide +kernel
    obtain ⟨⟨d, e, key, items⟩, hsome, hitems⟩ := (Option.any_eq_true _ _).mp hshape
    obtain ⟨rfl, hthree, hlisted⟩ :
        key = "field" ∧ items.length = 3 ∧ ∀ item ∈ items, item.IsListed := by
      simpa using hitems
    obtain ⟨htext, he, hvalue, -⟩ := arrayOf_some hsome
    obtain ⟨texts, -, hcount, -, hreads⟩ :=
      (arrays_read_by_item _ d htext e he "field" items).1 (by omega) hlisted
    obtain ⟨c, hparse, -⟩ := exists_of_toOption hloads
    obtain ⟨entry, hentry, -, hreads⟩ := hreads c hparse hvalue
    exact ⟨c, hparse, entry, hentry, texts, hcount.trans hthree, hreads⟩
  · have hshape : (arrayOf? (arrayDocument "1, [2], 3")).any (fun (_, _, _, items) =>
        ∃ item ∈ items, item.IsNested) = true := by decide +kernel
    obtain ⟨⟨d, e, key, items⟩, hsome, hitems⟩ := (Option.any_eq_true _ _).mp hshape
    obtain ⟨htext, he, -, hfield⟩ := arrayOf_some hsome
    exact ((arrays_read_by_item _ d htext e he key items).2 (by simpa using hitems) hfield).2

end Configuration

end TestBeam
