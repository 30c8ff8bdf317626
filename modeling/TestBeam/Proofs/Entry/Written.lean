import TestBeam.Proofs.Entry.Normal
import TestBeam.Proofs.Setting.Written

/-!
# Where settings come from

A setting of an entry comes from the document or from the last override that sets it.
-/

namespace TestBeam

/-! ## Documents -/

/-- A string or an array of strings. -/
def Toml.written? : Toml → Option Written
  | .string text => some (.string text)
  | .array items => (items.mapM Toml.string?).map .array
  | _ => none

theorem Toml.itemTexts_of_strings {items : List Toml} {texts : List String}
    (h : items.mapM string? = some texts) : items.mapM itemText? = some texts := by
  induction items generalizing texts with
  | nil => exact h
  | cons item items ih =>
    rw [List.mapM_cons] at h ⊢
    cases hitem : item.string? with
    | none => simp [hitem] at h
    | some text =>
      cases hitems : items.mapM string? with
      | none => simp [hitem, hitems] at h
      | some rest =>
        obtain rfl : text :: rest = texts := by simpa [hitem, hitems] using h
        obtain rfl : item = .string text := by
          cases item <;> simp_all [string?]
        rw [ih hitems]
        rfl

theorem Toml.ofValue_written {value : Toml} {w : Written} (h : value.written? = some w) :
    Setting.ofValue? value = some w.setting := by
  cases value with
  | string text =>
    obtain rfl : Written.string text = w := Option.some.inj h
    rfl
  | array items =>
    obtain ⟨texts, htexts, rfl⟩ := Option.map_eq_some_iff.mp h
    simp only [Setting.ofValue?, itemTexts_of_strings htexts]
    rfl
  | integer i => cases h
  | float x => cases h
  | boolean b => cases h
  | datetime d => cases h
  | table fields => cases h

/-! ## Overrides -/

namespace Override

/-- The text that an override writes to a key of the entries with a name. -/
def textFor? (name key option : String) : Option String :=
  match Text.splitOnce '=' option.toList with
  | some (left, text) =>
    if splitTarget left = (some name, key) then some (String.ofList text) else none
  | none => none

def last? (name key : String) (options : List String) : Option String :=
  options.reverse.findSome? (textFor? name key)

theorem textFor_of_parse {option : String} {change : Override} (h : parse option = .ok change) :
    ∃ text, change.value = .ofOption text ∧ ∀ name key,
      textFor? name key option =
        if change.target = some name ∧ change.key = key then some text else none := by
  unfold parse at h
  cases hsplit : Text.splitOnce '=' option.toList with
  | none =>
    rw [hsplit] at h
    cases h
  | some parts =>
    obtain ⟨left, text⟩ := parts
    rcases hleft : splitTarget left with ⟨target, field⟩
    simp only [hsplit, hleft] at h
    split at h
    · cases h
    · obtain rfl := Except.ok.inj h
      refine ⟨String.ofList text, by dsimp only, fun name key => ?_⟩
      simp [textFor?, hsplit, hleft]

theorem last?_cons (name key option : String) (options : List String) :
    last? name key (option :: options) = (last? name key options).or (textFor? name key option) := by
  simp [last?, List.findSome?_append]

end Override

/-! ## Entries -/

theorem Entry.get?_set (entry : Entry) (key other : String) (value : Setting) :
    (entry.set key value).get? other =
      if key = other then some value.normalized else entry.get? other := by
  unfold Entry.set Entry.get?
  simp only
  induction entry.settings with
  | nil => grind [assign, NameMap.lookup_cons_eq_if]
  | cons p rest ih => grind [assign, NameMap.lookup_cons_eq_if]

theorem Entry.ofPairs_name (name : String) (pairs : List (String × Setting)) :
    (ofPairs name pairs).name = name := by
  unfold ofPairs
  suffices hall : ∀ entry : Entry,
      (pairs.foldl (fun entry p => entry.set p.1 p.2) entry).name = entry.name from
    hall (empty name)
  induction pairs with
  | nil => exact fun entry => rfl
  | cons p pairs ih => exact fun entry => ih (entry.set p.1 p.2)

theorem Entry.get?_ofPairs (name key : String) (pairs : List (String × Setting)) :
    (ofPairs name pairs).get? key = (pairs.reverse.lookup key).map Setting.normalized := by
  unfold ofPairs
  suffices hall : ∀ entry : Entry,
      (pairs.foldl (fun entry p => entry.set p.1 p.2) entry).get? key =
        ((pairs.reverse.lookup key).map Setting.normalized).or (entry.get? key) by
    have hempty : (empty name).get? key = none := rfl
    rw [hall, hempty, Option.or_none]
  induction pairs with
  | nil => exact fun entry => rfl
  | cons p pairs ih =>
    intro entry
    rw [List.foldl_cons, ih, get?_set, List.reverse_cons, List.lookup_append,
      NameMap.lookup_cons_eq_if, List.lookup_nil]
    cases pairs.reverse.lookup key <;> grind

namespace EntryDocument

def value? (d : EntryDocument) (key : String) : Option Toml :=
  d.settings.reverse.lookup key

/-- How a setting of an entry was written last, if it is text. -/
def written? (d : EntryDocument) (options : List String) (key : String) : Option Written :=
  match Override.last? d.name key options with
  | some text => some (.option text)
  | none => (d.value? key).bind Toml.written?

def setting? (d : EntryDocument) (options : List String) (key : String) : Option Setting :=
  ((Override.last? d.name key options).map Setting.ofOption).or
    (((d.value? key).bind Setting.ofValue?).map Setting.normalized)

structure Lacks (d : EntryDocument) (options : List String) (key : String) : Prop where
  document : d.value? key = none
  overrides : Override.last? d.name key options = none

theorem setting_of_written {d : EntryDocument} {options : List String} {key : String} {w : Written}
    (h : d.written? options key = some w) : d.setting? options key = some w.setting := by
  unfold written? at h
  unfold setting?
  cases hlast : Override.last? d.name key options with
  | some text =>
    simp only [hlast, Option.some.injEq] at h
    subst h
    rfl
  | none =>
    simp only [hlast] at h
    obtain ⟨value, hvalue, hwritten⟩ := Option.bind_eq_some_iff.mp h
    simp [hvalue, Toml.ofValue_written hwritten, w.normalized_setting]

theorem Lacks.setting {d : EntryDocument} {options : List String} {key : String}
    (h : d.Lacks options key) : d.setting? options key = none := by
  simp [setting?, h.document, h.overrides]

theorem setting_ok {name : String} {field : String × Toml} {pair : String × Setting}
    (h : setting name field = .ok pair) :
    pair.1 = field.1 ∧ Setting.ofValue? field.2 = some pair.2 := by
  unfold setting at h
  cases hvalue : Setting.ofValue? field.2 with
  | none =>
    rw [hvalue] at h
    cases h
  | some v =>
    rw [hvalue] at h
    obtain rfl := Except.ok.inj h
    exact ⟨rfl, rfl⟩

theorem lookup_settings {name : String} {fields : List (String × Toml)}
    {pairs : List (String × Setting)} (h : fields.mapM (setting name) = .ok pairs) (key : String) :
    pairs.reverse.lookup key = (fields.reverse.lookup key).bind Setting.ofValue? := by
  have hreverse := List.rel_reverse (mapM_ok_iff.mp h)
  generalize fields.reverse = fields, pairs.reverse = pairs at hreverse ⊢
  induction hreverse with
  | nil => rfl
  | @cons field pair fields pairs hfirst hrest ih =>
    obtain ⟨hkey, hvalue⟩ := setting_ok hfirst
    obtain ⟨k, v⟩ := pair
    obtain ⟨k', value⟩ := field
    obtain rfl : k = k' := hkey
    rw [NameMap.lookup_cons_eq_if, NameMap.lookup_cons_eq_if]
    split
    · exact hvalue.symm
    · exact ih

theorem toEntry_ok {d : EntryDocument} {entry : Entry} (h : d.toEntry = .ok entry) :
    entry.name = d.name ∧ ∀ key, entry.get? key =
      ((d.value? key).bind Setting.ofValue?).map Setting.normalized := by
  unfold toEntry at h
  obtain ⟨pairs, hsettings, rfl⟩ := exists_of_map_ok h
  refine ⟨Entry.ofPairs_name d.name pairs, fun key => ?_⟩
  rw [Entry.get?_ofPairs, lookup_settings hsettings]
  rfl

end EntryDocument

/-! ## Entries after overrides -/

structure Entry.Overridden (options : List String) (entry changed : Entry) : Prop where
  name : changed.name = entry.name
  get : ∀ key, changed.get? key =
    ((Override.last? entry.name key options).map Setting.ofOption).or (entry.get? key)

namespace Entry.Overridden

variable {option : String} {options : List String} {entry changed last : Entry}

theorem nil (entry : Entry) : entry.Overridden [] entry :=
  ⟨rfl, fun _ => rfl⟩

theorem cons (hfirst : entry.Overridden [option] changed) (hrest : changed.Overridden options last) :
    entry.Overridden (option :: options) last := by
  refine ⟨hrest.name.trans hfirst.name, fun key => ?_⟩
  have hlast : Override.last? entry.name key [option] = Override.textFor? entry.name key option := by
    simp [Override.last?]
  rw [hrest.get, hfirst.get, hfirst.name, hlast, Override.last?_cons]
  cases Override.last? entry.name key options <;> rfl

theorem of_parse {change : Override} (h : Override.parse option = .ok change) (entry : Entry) :
    entry.Overridden [option]
      (if change.target = some entry.name then entry.set change.key change.value else entry) := by
  obtain ⟨text, hvalue, htext⟩ := Override.textFor_of_parse h
  have hlast (key : String) : Override.last? entry.name key [option] =
      if change.target = some entry.name ∧ change.key = key then some text else none := by
    simp [Override.last?, htext]
  by_cases htarget : change.target = some entry.name
  · rw [if_pos htarget]
    refine ⟨rfl, fun key => ?_⟩
    rw [Entry.get?_set, hlast, hvalue, Setting.normalized_ofOption]
    by_cases hkey : change.key = key
    · simp [htarget, hkey]
    · simp [hkey]
  · rw [if_neg htarget]
    refine ⟨rfl, fun key => ?_⟩
    rw [hlast]
    simp [htarget]

end Entry.Overridden

end TestBeam
