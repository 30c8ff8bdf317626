import TestBeam.NameMap
import TestBeam.Proofs.Result
import TestBeam.Proofs.Toml.Assembly

/-!
# Lists of tables in another order

A section changes only the field that its path starts with. So the elements of a list of tables can stand
in any order and anywhere between the other sections of a document, as long as each keeps the tables inside
it: the list has the same elements, and nothing else is different.
-/

namespace TestBeam.Toml

variable {key : String} {fields reached : Fields}

/-! ## One field -/

/-- A table with nothing but the field of one key. -/
def only (key : String) (fields : Fields) : Fields :=
  ((fields.lookup key).map fun node => (key, node)).toList

theorem lookup_only (key : String) (fields : Fields) : (only key fields).lookup key = fields.lookup key := by
  unfold only
  cases fields.lookup key <;> simp

theorem only_of_lookup {other : Fields} (h : fields.lookup key = other.lookup key) :
    only key fields = only key other := by
  unfold only
  rw [h]

theorem only_eq_nil (h : fields.lookup key = none) : only key fields = [] := by
  simp [only, h]

theorem only_eq_singleton {node : Node} (h : fields.lookup key = some node) :
    only key fields = [(key, node)] := by
  simp [only, h]

theorem lookup_replaceField_self {old : Node} (h : fields.lookup key = some old) (node : Node) :
    (replaceField key node fields).lookup key = some node := by
  induction fields with
  | nil => cases h
  | cons p fields ih =>
    rw [NameMap.lookup_cons_eq_if] at h
    unfold replaceField
    split at h
    · rename_i hkey
      rw [if_pos hkey.symm, NameMap.lookup_cons_eq_if, if_pos hkey]
    · rename_i hkey
      rw [if_neg (Ne.symm hkey), NameMap.lookup_cons_eq_if, if_neg hkey, ih h]

theorem lookup_replaceField_of_ne {k : String} (hk : k ≠ key) (node : Node) :
    (replaceField key node fields).lookup k = fields.lookup k := by
  induction fields with
  | nil => rfl
  | cons p fields ih =>
    unfold replaceField
    split
    · rename_i hkey
      subst hkey
      rw [NameMap.lookup_cons_eq_if, NameMap.lookup_cons_eq_if, if_neg hk, if_neg hk]
    · rw [NameMap.lookup_cons_eq_if, NameMap.lookup_cons_eq_if, ih]

theorem lookup_append_self (h : fields.lookup key = none) (node : Node) :
    (fields ++ [(key, node)]).lookup key = some node := by
  simp [List.lookup_append, h]

theorem lookup_append_of_ne {k : String} (hk : k ≠ key) (node : Node) :
    (fields ++ [(key, node)]).lookup k = fields.lookup k := by
  rw [List.lookup_append, NameMap.lookup_cons_eq_if, if_neg hk, List.lookup_nil, Option.or_none]

theorem lookup_filter_self (key : String) (fields : Fields) :
    (fields.filter (·.1 ≠ key)).lookup key = none := by
  rw [List.lookup_eq_none_iff]
  intro p hp
  have hne : p.1 ≠ key := by simpa using (List.mem_filter.mp hp).2
  simpa using hne.symm

theorem lookup_filter_of_ne {k : String} (hk : k ≠ key) :
    (fields.filter (·.1 ≠ key)).lookup k = fields.lookup k := by
  induction fields with
  | nil => rfl
  | cons p fields ih =>
    rw [List.filter_cons, NameMap.lookup_cons_eq_if]
    split
    · rw [NameMap.lookup_cons_eq_if, ih]
    · rename_i hkey
      have hp : p.1 = key := by simpa using hkey
      rw [ih, if_neg (hp ▸ hk)]

/-! ## Changes of one field -/

/-- The change depends on the field of one key only, and leaves the others as they are. -/
structure ActsOn (key : String) (change : Change) : Prop where
  own : ∀ origin fields, (change origin fields).map (only key) = change origin (only key fields)
  other : ∀ {origin fields reached}, change origin fields = some reached →
    ∀ k, k ≠ key → reached.lookup k = fields.lookup k

theorem actsOn_addTable (key : String) (assignments : List Assignment) :
    ActsOn key (addTable key assignments) where
  own origin fields := by
    unfold addTable
    rw [lookup_only]
    cases hlookup : fields.lookup key with
    | none =>
      rw [only_eq_nil hlookup, Option.map_map]
      refine congrArg (Option.map · _) (funext fun inner => ?_)
      exact only_eq_singleton (lookup_append_self hlookup _)
    | some node =>
      rw [only_eq_singleton hlookup]
      cases node with
      | value v => rfl
      | elements elements => rfl
      | table start inner =>
        cases start with
        | header => rfl
        | dotted => rfl
        | implied =>
          rw [Option.map_map]
          refine congrArg (Option.map · _) (funext fun inner => ?_)
          have hfresh := lookup_append_self (lookup_filter_self key fields)
            (.table .header inner)
          simpa using only_eq_singleton hfresh
  other {origin fields reached} h k hk := by
    unfold addTable at h
    split at h
    · obtain ⟨inner, -, rfl⟩ := Option.map_eq_some_iff.mp h
      exact lookup_append_of_ne hk _
    · obtain ⟨inner, -, rfl⟩ := Option.map_eq_some_iff.mp h
      rw [lookup_append_of_ne hk, lookup_filter_of_ne hk]
    · cases h

theorem actsOn_addElement (key : String) (assignments : List Assignment) :
    ActsOn key (addElement key assignments) where
  own origin fields := by
    unfold addElement
    rw [lookup_only]
    cases hlookup : fields.lookup key with
    | none =>
      rw [only_eq_nil hlookup, Option.map_map]
      refine congrArg (Option.map · _) (funext fun inner => ?_)
      exact only_eq_singleton (lookup_append_self hlookup _)
    | some node =>
      rw [only_eq_singleton hlookup]
      cases node with
      | value v => rfl
      | table start inner => rfl
      | elements elements =>
        rw [Option.map_map]
        refine congrArg (Option.map · _) (funext fun inner => ?_)
        simpa [replaceField] using only_eq_singleton (lookup_replaceField_self hlookup _)
  other {origin fields reached} h k hk := by
    unfold addElement at h
    split at h
    · obtain ⟨inner, -, rfl⟩ := Option.map_eq_some_iff.mp h
      exact lookup_append_of_ne hk _
    · obtain ⟨inner, -, rfl⟩ := Option.map_eq_some_iff.mp h
      exact lookup_replaceField_of_ne hk _
    · cases h

theorem actsOn_within (key : String) (path : List String) (change : Change) :
    ActsOn key (within false change (key :: path)) where
  own origin fields := by
    unfold within
    rw [lookup_only]
    cases hlookup : fields.lookup key with
    | none =>
      rw [only_eq_nil hlookup, Option.map_map]
      refine congrArg (Option.map · _) (funext fun inner => ?_)
      exact only_eq_singleton (lookup_append_self hlookup _)
    | some node =>
      have hreplace (node : Node) : only key (replaceField key node fields) = [(key, node)] :=
        only_eq_singleton (lookup_replaceField_self hlookup node)
      rw [only_eq_singleton hlookup]
      cases node with
      | value v => rfl
      | table start inner =>
        simp only [Bool.false_and, Bool.false_eq_true, if_false, Option.map_map]
        refine congrArg (Option.map · _) (funext fun inner => ?_)
        simpa [replaceField] using hreplace _
      | elements elements =>
        cases hlast : elements.getLast? with
        | none => simp only [hlast, Option.map_none]
        | some last =>
          simp only [hlast, Option.map_map]
          refine congrArg (Option.map · _) (funext fun inner => ?_)
          simpa [replaceField] using hreplace _
  other {origin fields reached} h k hk := by
    unfold within at h
    split at h
    · obtain ⟨inner, -, rfl⟩ := Option.map_eq_some_iff.mp h
      exact lookup_append_of_ne hk _
    · cases h
    · split at h
      · cases h
      · obtain ⟨inner, -, rfl⟩ := Option.map_eq_some_iff.mp h
        exact lookup_replaceField_of_ne hk _
    · simp only [Bool.false_and, Bool.false_eq_true, if_false] at h
      obtain ⟨inner, -, rfl⟩ := Option.map_eq_some_iff.mp h
      exact lookup_replaceField_of_ne hk _

/-! ## Sections of one field -/

/-- What a section does in the table around its own. -/
def Section.change (key : String) (s : Section) : Change :=
  match s.header.kind with
  | .table => addTable key s.assignments
  | .element => addElement key s.assignments

theorem addSection_eq {s : Section} (h : s.header.path.getLast? = some key) (fields : Fields) :
    addSection fields s = within false (s.change key) s.header.path.dropLast .header fields := by
  unfold addSection
  simp only [h]
  rfl

/-- The path of the section starts with the key. -/
def Section.isUnder (key : String) (s : Section) : Bool :=
  s.header.path.head? = some key

theorem actsOn_addSection {s : Section} (h : s.isUnder key = true) :
    ∃ change, ActsOn key change ∧ ∀ fields, addSection fields s = change .header fields := by
  unfold Section.isUnder at h
  obtain ⟨path, hpath⟩ := List.head?_eq_some_iff.mp (of_decide_eq_true h)
  cases path with
  | nil =>
    refine ⟨s.change key, ?_, fun fields => ?_⟩
    · unfold Section.change
      cases s.header.kind with
      | table => exact actsOn_addTable key s.assignments
      | element => exact actsOn_addElement key s.assignments
    · rw [addSection_eq (by rw [hpath]; rfl), hpath]
      rfl
  | cons next path =>
    obtain ⟨last, hlast⟩ : ∃ last, s.header.path.getLast? = some last :=
      ⟨_, List.getLast?_eq_some_getLast (by simp [hpath])⟩
    refine ⟨_, actsOn_within key (next :: path).dropLast (s.change last), fun fields => ?_⟩
    rw [addSection_eq hlast, hpath]
    rfl

/-- What a document says under one key is decided by the sections whose paths start with it. -/
theorem addSections_only {sections : List Section}
    (h : sections.foldlM addSection fields = some reached) (key : String) :
    (sections.filter (Section.isUnder key)).foldlM addSection (only key fields) =
      some (only key reached) := by
  induction sections generalizing fields with
  | nil =>
    obtain rfl := Option.some.inj h
    rfl
  | cons s sections ih =>
    rw [List.foldlM_cons] at h
    obtain ⟨next, hfirst, hrest⟩ := Option.bind_eq_some_iff.mp h
    have ih := ih hrest
    by_cases hunder : s.isUnder key = true
    · obtain ⟨change, hacts, hchange⟩ := actsOn_addSection hunder
      have hown := hacts.own .header fields
      rw [← hchange, ← hchange, hfirst] at hown
      rw [List.filter_cons_of_pos hunder, List.foldlM_cons, ← hown]
      exact ih
    · rw [List.filter_cons_of_neg hunder, ← ih]
      cases hpath : s.header.path with
      | nil =>
        rw [addSection, hpath] at hfirst
        cases hfirst
      | cons first path =>
        have hfirstUnder : s.isUnder first = true := by simp [Section.isUnder, hpath]
        obtain ⟨change, hacts, hchange⟩ := actsOn_addSection hfirstUnder
        have hne : key ≠ first := by
          rintro rfl
          exact hunder hfirstUnder
        rw [only_of_lookup (hacts.other (hchange fields ▸ hfirst) key hne).symm]

theorem addSections_isSome {sections : List Section} (hpaths : ∀ s ∈ sections, s.header.path ≠ [])
    (h : ∀ key, ((sections.filter (Section.isUnder key)).foldlM addSection (only key fields)).isSome) :
    (sections.foldlM addSection fields).isSome := by
  induction sections generalizing fields with
  | nil => rfl
  | cons s sections ih =>
    obtain ⟨hpath, hpaths⟩ := List.forall_mem_cons.mp hpaths
    obtain ⟨first, path, hpath⟩ := List.exists_cons_of_ne_nil hpath
    have hunder : s.isUnder first = true := by simp [Section.isUnder, hpath]
    obtain ⟨change, hacts, hchange⟩ := actsOn_addSection hunder
    have hown := hacts.own .header fields
    rw [← hchange, ← hchange] at hown
    have hfirst := h first
    rw [List.filter_cons_of_pos hunder, List.foldlM_cons, ← hown] at hfirst
    cases hnext : addSection fields s with
    | none =>
      rw [hnext] at hfirst
      cases hfirst
    | some next =>
      rw [List.foldlM_cons, hnext]
      refine ih hpaths fun key => ?_
      -- The section changed the field of its own first key and left all others as they were.
      by_cases hkey : key = first
      · subst hkey
        rw [hnext] at hfirst
        exact hfirst
      · have hother := hacts.other (hchange fields ▸ hnext) key hkey
        have hnotUnder : ¬s.isUnder key = true := by simp [Section.isUnder, hpath, Ne.symm hkey]
        have hrest := h key
        rw [List.filter_cons_of_neg hnotUnder] at hrest
        rw [only_of_lookup hother]
        exact hrest

/-! ## Elements -/

/-- The section as it stands in the table that its path starts with. -/
def Section.below (s : Section) : Section :=
  ⟨⟨s.header.kind, s.header.path.tail⟩, s.assignments⟩

/-- One element of a list of tables, with the tables inside it. -/
structure IsElement (title : String) (block : List Section) : Prop where
  shape : ∃ assignments inner, block = ⟨⟨.element, [title]⟩, assignments⟩ :: inner ∧
    ∀ s ∈ inner, ∃ key path, s.header.path = title :: key :: path

def elementFields : List Section → Option Fields
  | [] => none
  | first :: inner =>
    (assignAll [] first.assignments).bind fun fields =>
      (inner.map Section.below).foldlM addSection fields

/-- A list of tables as the only field, or no field in front of the first element. -/
def Lists (title : String) (elements : List Fields) (fields : Fields) : Prop :=
  (fields = [] ∧ elements = []) ∨ fields = [(title, .elements elements)]

variable {title : String}

theorem addSection_last {s : Section} {path : List String}
    (hpath : s.header.path = title :: key :: path) (elements : List Fields) (last : Fields) :
    addSection [(title, .elements (elements ++ [last]))] s =
      (addSection last s.below).map fun inner => [(title, .elements (elements ++ [inner]))] := by
  have hlast := List.getLast?_eq_some_getLast (List.cons_ne_nil key path)
  have hwhole : s.header.path.getLast? = some ((key :: path).getLast (List.cons_ne_nil key path)) := by
    rw [hpath, List.getLast?_cons_cons]
    exact hlast
  have hbelow : s.below.header.path.getLast? =
      some ((key :: path).getLast (List.cons_ne_nil key path)) := by
    simpa [Section.below, hpath] using hlast
  rw [addSection_eq hwhole, addSection_eq hbelow, hpath]
  simp [Section.below, Section.change, within, hpath, replaceField]

theorem addSections_last {inner : List Section}
    (h : ∀ s ∈ inner, ∃ key path, s.header.path = title :: key :: path) (elements : List Fields)
    (last : Fields) :
    inner.foldlM addSection [(title, .elements (elements ++ [last]))] =
      ((inner.map Section.below).foldlM addSection last).map fun fields =>
        [(title, .elements (elements ++ [fields]))] := by
  induction inner generalizing last with
  | nil => rfl
  | cons s inner ih =>
    obtain ⟨⟨key, path, hpath⟩, hinner⟩ := List.forall_mem_cons.mp h
    rw [List.foldlM_cons, List.map_cons, List.foldlM_cons, addSection_last hpath]
    cases addSection last s.below with
    | none => rfl
    | some next => exact ih hinner next

theorem addSections_element {block : List Section} (h : IsElement title block)
    {elements : List Fields} {start : Fields} (hstart : Lists title elements start) :
    block.foldlM addSection start =
      (elementFields block).map fun fields => [(title, .elements (elements ++ [fields]))] := by
  obtain ⟨assignments, inner, rfl, hinner⟩ := h.shape
  have hfirst : addSection start ⟨⟨.element, [title]⟩, assignments⟩ =
      (assignAll [] assignments).map fun fields => [(title, .elements (elements ++ [fields]))] := by
    rcases hstart with ⟨rfl, rfl⟩ | rfl <;> simp [addSection, within, addElement, replaceField]
  simp only [elementFields, List.foldlM_cons, hfirst]
  cases assignAll [] assignments with
  | none => rfl
  | some fields => exact addSections_last hinner elements fields

theorem addSections_elements {blocks : List (List Section)} (h : ∀ block ∈ blocks, IsElement title block)
    (hne : blocks ≠ []) {elements : List Fields} {start : Fields}
    (hstart : Lists title elements start) :
    blocks.flatten.foldlM addSection start =
      (blocks.mapM elementFields).map fun more => [(title, .elements (elements ++ more))] := by
  induction blocks generalizing elements start with
  | nil => exact absurd rfl hne
  | cons block blocks ih =>
    obtain ⟨hblock, hblocks⟩ := List.forall_mem_cons.mp h
    rw [List.flatten_cons, List.foldlM_append, addSections_element hblock hstart, List.mapM_cons]
    cases elementFields block with
    | none => rfl
    | some fields =>
      cases blocks with
      | nil => simp
      | cons next blocks =>
        have ih := ih hblocks (by simp) (.inr rfl : Lists title (elements ++ [fields]) _)
        rw [Option.map_some, Option.bind_eq_bind, Option.bind_some, ih]
        cases (next :: blocks).mapM elementFields <;> simp

/-! ## Another order -/

/-- Only the elements of one list are in another order, each with the tables inside it. They can stand
anywhere between the other sections. -/
structure Reordered (title : String) (sections others : List Section) : Prop where
  rest : sections.filter (fun s => !s.isUnder title) = others.filter (fun s => !s.isUnder title)
  elements : ∃ blocks moved : List (List Section), blocks.Perm moved ∧
    (∀ block ∈ blocks, IsElement title block) ∧
    sections.filter (Section.isUnder title) = blocks.flatten ∧
    others.filter (Section.isUnder title) = moved.flatten

variable {sections others : List Section}

theorem Reordered.filter_of_ne (h : Reordered title sections others) (hkey : key ≠ title) :
    sections.filter (Section.isUnder key) = others.filter (Section.isUnder key) := by
  have hwithin (l : List Section) :
      l.filter (Section.isUnder key) =
        (l.filter fun s => !s.isUnder title).filter (Section.isUnder key) := by
    rw [List.filter_filter]
    refine List.filter_congr fun s _ => ?_
    cases hunder : s.isUnder key with
    | false => simp
    | true =>
      have hhead : s.header.path.head? = some key := of_decide_eq_true hunder
      simp [Section.isUnder, hhead, hkey]
  rw [hwithin sections, hwithin others, h.rest]

def SameElements (node other : Option Node) : Prop :=
  node = other ∨ ∃ elements moved, node = some (.elements elements) ∧
    other = some (.elements moved) ∧ elements.Perm moved

theorem exists_lists {block : List Section} (h : IsElement title block)
    (hadd : (block.foldlM addSection (only title fields)).isSome) :
    ∃ elements, Lists title elements (only title fields) := by
  obtain ⟨assignments, inner, rfl, -⟩ := h.shape
  cases hlookup : fields.lookup title with
  | none => exact ⟨[], .inl ⟨only_eq_nil hlookup, rfl⟩⟩
  | some node =>
    rw [only_eq_singleton hlookup] at hadd ⊢
    cases node with
    | elements elements => exact ⟨elements, .inr rfl⟩
    | value v => simp [addSection, within, addElement] at hadd
    | table origin inner => simp [addSection, within, addElement] at hadd

theorem Reordered.addSections_title (h : Reordered title sections others)
    (hadd : (sections.filter (Section.isUnder title)).foldlM addSection (only title fields) =
      some reached) :
    ∃ changed, (others.filter (Section.isUnder title)).foldlM addSection (only title fields) =
        some changed ∧
      SameElements (reached.lookup title) (changed.lookup title) := by
  obtain ⟨blocks, moved, hperm, hblocks, hsections, hothers⟩ := h.elements
  rw [hsections] at hadd
  rw [hothers]
  cases blocks with
  | nil =>
    obtain rfl := hperm.nil_eq
    exact ⟨reached, hadd, .inl rfl⟩
  | cons block blocks =>
    have hne : moved ≠ [] := by
      rintro rfl
      exact absurd hperm.eq_nil (by simp)
    have hfirst : (block.foldlM addSection (only title fields)).isSome := by
      rw [List.flatten_cons, List.foldlM_append] at hadd
      obtain ⟨next, hnext, -⟩ := Option.bind_eq_some_iff.mp hadd
      rw [hnext]
      rfl
    obtain ⟨elements, hlists⟩ := exists_lists (hblocks block (by simp)) hfirst
    rw [addSections_elements hblocks (by simp) hlists] at hadd
    obtain ⟨more, hmore, rfl⟩ := Option.map_eq_some_iff.mp hadd
    obtain ⟨others, hothers, hmoved⟩ := mapM_some_perm hmore hperm
    rw [addSections_elements (fun b hb => hblocks b (hperm.mem_iff.mpr hb)) hne hlists, hothers]
    refine ⟨_, rfl, .inr ⟨elements ++ more, elements ++ others, ?_, ?_, hmoved.append_left elements⟩⟩
    · simp
    · simp

theorem Reordered.mem_iff (h : Reordered title sections others) {s : Section} :
    s ∈ sections ↔ s ∈ others := by
  obtain ⟨blocks, moved, hperm, -, hsections, hothers⟩ := h.elements
  have hunder : s ∈ sections.filter (Section.isUnder title) ↔
      s ∈ others.filter (Section.isUnder title) := by
    rw [hsections, hothers]
    exact hperm.flatten.mem_iff
  have hrest := congrArg (s ∈ ·) h.rest
  simp only [List.mem_filter, Bool.not_eq_true', eq_iff_iff] at hunder hrest
  cases hs : s.isUnder title <;> simp_all

theorem path_ne_nil {s : Section} (hmem : s ∈ sections)
    (h : (sections.foldlM addSection fields).isSome) : s.header.path ≠ [] := by
  induction sections generalizing fields with
  | nil => cases hmem
  | cons first sections ih =>
    rw [List.foldlM_cons] at h
    cases hfirst : addSection fields first with
    | none => simp [hfirst] at h
    | some next =>
      rcases List.mem_cons.mp hmem with rfl | hmem
      · intro hnil
        simp [addSection, hnil] at hfirst
      · exact ih hmem (by simpa [hfirst] using h)

/-- A document whose lists have their elements in another order can be put together as well. It has the
same fields, except for the order of that list. -/
theorem Reordered.addSections (h : Reordered title sections others)
    (hadd : sections.foldlM addSection fields = some reached) :
    ∃ changed, others.foldlM addSection fields = some changed ∧
      (∀ key, key ≠ title → changed.lookup key = reached.lookup key) ∧
      SameElements (reached.lookup title) (changed.lookup title) := by
  obtain ⟨moved, hmoved, hsame⟩ := h.addSections_title (addSections_only hadd title)
  have hloads : (sections.foldlM addSection fields).isSome := by rw [hadd]; rfl
  have hsome : (others.foldlM addSection fields).isSome := by
    refine addSections_isSome (fun s hs => ?_) fun key => ?_
    · exact path_ne_nil (h.mem_iff.mpr hs) hloads
    · by_cases hkey : key = title
      · subst hkey
        simp [hmoved]
      · rw [← h.filter_of_ne hkey, addSections_only hadd key]
        rfl
  obtain ⟨changed, hchanged⟩ := Option.isSome_iff_exists.mp hsome
  refine ⟨changed, hchanged, fun key hkey => ?_, ?_⟩
  · have hkept := addSections_only hchanged key
    rw [← h.filter_of_ne hkey, addSections_only hadd key, Option.some_inj] at hkept
    rw [← lookup_only, ← hkept, lookup_only]
  · have hlist := addSections_only hchanged title
    rw [hmoved, Option.some_inj] at hlist
    rwa [hlist, lookup_only, lookup_only] at hsame

/-! ## Values -/

theorem lookup_toFields (key : String) (fields : Fields) :
    (toFields fields).lookup key = (fields.lookup key).map toValue := by
  induction fields with
  | nil => rfl
  | cons p fields ih =>
    obtain ⟨k, node⟩ := p
    rw [toFields, NameMap.lookup_cons_eq_if, NameMap.lookup_cons_eq_if, ih]
    split <;> rfl

/-- Two documents say the same but for the order of one list. -/
structure SameButOrder (title : String) (fields others : List (String × Toml)) : Prop where
  rest : ∀ key, key ≠ title → others.lookup key = fields.lookup key
  list : others.lookup title = fields.lookup title ∨
    ∃ items moved, fields.lookup title = some (.array items) ∧
      others.lookup title = some (.array moved) ∧ items.Perm moved

/-- The statements of a text, as assignments and sections. -/
def sections? (text : String) : Option (List Assignment × List Section) :=
  let cs := skipMark text.toList
  (readStatements (cs.length + 1) cs).map groupSections

theorem parse_eq_sections (text : String) :
    parse? text = (sections? text).bind fun parts =>
      (assemble parts.1 parts.2).map toFields := by
  unfold parse? sections?
  simp only
  cases readStatements ((skipMark text.toList).length + 1) (skipMark text.toList) with
  | none => rfl
  | some statements =>
    simp only [Option.bind_eq_bind, Option.bind_some, Option.map_some]
    cases assemble (groupSections statements).1 (groupSections statements).2 <;> rfl

theorem Reordered.parse (h : Reordered title sections others) {text other : String}
    {root : List Assignment} (htext : sections? text = some (root, sections))
    (hother : sections? other = some (root, others)) {fields : List (String × Toml)}
    (hparse : parse? text = some fields) :
    ∃ moved, parse? other = some moved ∧ SameButOrder title fields moved := by
  rw [parse_eq_sections, htext, Option.bind_some] at hparse
  obtain ⟨reached, hassemble, rfl⟩ := Option.map_eq_some_iff.mp hparse
  obtain ⟨start, hroot, hadd⟩ := Option.bind_eq_some_iff.mp hassemble
  obtain ⟨changed, hchanged, hrest, hlist⟩ := h.addSections hadd
  have hmoved : assemble root others = some changed := by
    unfold assemble
    rw [hroot, Option.bind_some, hchanged]
  refine ⟨toFields changed, ?_, fun key hkey => ?_, ?_⟩
  · rw [parse_eq_sections, hother, Option.bind_some, hmoved]
    rfl
  · rw [lookup_toFields, lookup_toFields, hrest key hkey]
  · rw [lookup_toFields, lookup_toFields]
    rcases hlist with hsame | ⟨elements, moved, helements, hmoved, hperm⟩
    · exact .inl (by rw [hsame])
    · rw [helements, hmoved]
      refine .inr ⟨toElements elements, toElements moved, rfl, rfl, ?_⟩
      rw [toElements_eq_map, toElements_eq_map]
      exact hperm.map _

end TestBeam.Toml
