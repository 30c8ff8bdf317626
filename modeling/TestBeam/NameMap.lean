/-!
# Maps from names

Values that belong to named detectors or instances are kept in ascending order of the names, so the
order in which they were added cannot be seen.
-/

namespace TestBeam

/-- Strictly ascending by name, so no name occurs twice. -/
def Ascending {α : Type} (pairs : List (String × α)) : Prop :=
  pairs.Pairwise fun a b => a.1 < b.1

/-- Puts a value at its place and replaces the value of an equal name. -/
def insertSorted {α : Type} (name : String) (value : α) :
    List (String × α) → List (String × α)
  | [] => [(name, value)]
  | (n, v) :: rest =>
    if name < n then (name, value) :: (n, v) :: rest
    else if name = n then (name, value) :: rest
    else (n, v) :: insertSorted name value rest

theorem mem_insertSorted {α : Type} {name : String} {value : α} {pairs : List (String × α)}
    {p : String × α} (h : p ∈ insertSorted name value pairs) : p = (name, value) ∨ p ∈ pairs := by
  induction pairs with
  | nil => simpa [insertSorted] using h
  | cons q rest ih =>
    simp only [insertSorted] at h
    split at h
    · simpa using h
    · split at h
      · rcases List.mem_cons.1 h with h | h
        · exact .inl h
        · exact .inr (List.mem_cons_of_mem _ h)
      · rcases List.mem_cons.1 h with h | h
        · exact .inr (h ▸ List.mem_cons_self ..)
        · exact (ih h).imp id (List.mem_cons_of_mem _)

theorem later_of_not_earlier {a b : String} (h : ¬a < b) (hne : a ≠ b) : b < a := by
  refine Decidable.byContradiction fun hba => hne ?_
  exact String.le_antisymm (String.not_lt.1 hba) (String.not_lt.1 h)

theorem Ascending.insertSorted {α : Type} {name : String} {value : α}
    {pairs : List (String × α)} (h : Ascending pairs) :
    Ascending (insertSorted name value pairs) := by
  induction pairs with
  | nil => simp [TestBeam.insertSorted, Ascending]
  | cons q rest ih =>
    obtain ⟨below, tail⟩ := List.pairwise_cons.1 h
    simp only [TestBeam.insertSorted]
    split
    case isTrue lt =>
      refine List.pairwise_cons.2 ⟨fun p hp => ?_, h⟩
      rcases List.mem_cons.1 hp with rfl | hp
      · exact lt
      · exact String.lt_trans lt (below p hp)
    case isFalse notLt =>
      split
      case isTrue eq => exact List.pairwise_cons.2 ⟨fun p hp => eq ▸ below p hp, tail⟩
      case isFalse ne =>
        refine List.pairwise_cons.2 ⟨fun p hp => ?_, ih tail⟩
        rcases mem_insertSorted hp with rfl | hp
        · exact later_of_not_earlier notLt ne
        · exact below p hp

/-- A map whose names ascend. -/
structure NameMap (α : Type) where
  toList : List (String × α)
  ascending : Ascending toList

namespace NameMap

variable {α : Type}

def empty : NameMap α :=
  ⟨[], List.Pairwise.nil⟩

instance : Inhabited (NameMap α) := ⟨empty⟩

def insert (map : NameMap α) (name : String) (value : α) : NameMap α :=
  ⟨insertSorted name value map.toList, map.ascending.insertSorted⟩

def get? (map : NameMap α) (name : String) : Option α :=
  map.toList.lookup name

def contains (map : NameMap α) (name : String) : Bool :=
  (map.get? name).isSome

def names (map : NameMap α) : List String :=
  map.toList.map (·.1)

theorem lookup_cons_eq_if (n k : String) (v : α) (rest : List (String × α)) :
    ((k, v) :: rest).lookup n = if n = k then some v else rest.lookup n := by
  by_cases h : n = k
  · simp [h]
  · simp [List.lookup_cons, beq_false_of_ne h, h]

theorem lookup_insertSorted (name n : String) (value : α) (pairs : List (String × α)) :
    (insertSorted name value pairs).lookup n =
      if n = name then some value else pairs.lookup n := by
  induction pairs with
  | nil => simp [insertSorted, lookup_cons_eq_if]
  | cons q rest ih => grind [insertSorted, lookup_cons_eq_if]

@[simp]
theorem get?_insert (map : NameMap α) (name n : String) (value : α) :
    (map.insert name value).get? n = if n = name then some value else map.get? n :=
  lookup_insertSorted name n value map.toList

end NameMap

end TestBeam
