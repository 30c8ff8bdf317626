import Mathlib.Data.List.Sort
import TestBeam.NameMap

/-!
# Maps and their look-ups

A map from names is determined by what is looked up in it. Each name of the map stands there once, with the
value that is found for it.
-/

namespace TestBeam

theorem names_eq_of_mem_iff {names others : List String} (h : names.Pairwise (· < ·))
    (hothers : others.Pairwise (· < ·)) (hsame : ∀ name, name ∈ names ↔ name ∈ others) :
    names = others := by
  have : Std.Antisymm (α := String) (· < ·) := ⟨fun _ _ hab hba => absurd hba (String.lt_asymm hab)⟩
  have : Std.Irrefl (α := String) (· < ·) := ⟨String.lt_irrefl⟩
  exact h.eq_of_mem_iff hothers hsame

namespace NameMap

variable {α : Type} {map other : NameMap α} {name : String} {value : α}

theorem names_ascending (map : NameMap α) : map.names.Pairwise (· < ·) :=
  List.pairwise_map.mpr map.ascending

theorem lookup_of_ascending {pairs : List (String × α)} (h : Ascending pairs)
    (hmem : (name, value) ∈ pairs) : pairs.lookup name = some value := by
  induction pairs with
  | nil => cases hmem
  | cons p rest ih =>
    obtain ⟨hfirst, hrest⟩ := List.pairwise_cons.mp h
    rw [lookup_cons_eq_if]
    rcases List.mem_cons.mp hmem with rfl | hmem
    · exact if_pos rfl
    · rw [if_neg, ih hrest hmem]
      rintro rfl
      exact String.lt_irrefl p.1 (hfirst (p.1, value) hmem)

theorem mem_toList_iff : (name, value) ∈ map.toList ↔ map.get? name = some value := by
  refine ⟨lookup_of_ascending map.ascending, fun h => ?_⟩
  unfold get? at h
  generalize map.toList = pairs at h
  induction pairs with
  | nil => cases h
  | cons p rest ih =>
    rw [lookup_cons_eq_if] at h
    split at h
    · rename_i hname
      obtain rfl := Option.some.inj h
      subst hname
      exact List.mem_cons_self
    · exact List.mem_cons_of_mem p (ih h)

theorem mem_names_iff : name ∈ map.names ↔ map.contains name = true := by
  unfold contains
  rw [Option.isSome_iff_exists]
  simp only [names, List.mem_map, ← mem_toList_iff, Prod.exists, exists_and_right, exists_eq_right]

theorem ext_get? (h : ∀ name, map.get? name = other.get? name) : map = other := by
  have : Std.Antisymm (α := String × α) fun a b => a.1 < b.1 :=
    ⟨fun _ _ hab hba => absurd hba (String.lt_asymm hab)⟩
  have : Std.Irrefl (α := String × α) fun a b => a.1 < b.1 := ⟨fun a => String.lt_irrefl a.1⟩
  have hlists : map.toList = other.toList := by
    refine List.Pairwise.eq_of_mem_iff map.ascending other.ascending fun p => ?_
    rw [← Prod.mk.eta (p := p), mem_toList_iff, mem_toList_iff, h]
  cases map
  cases other
  simpa using hlists

/-- The map of some pairs, where later ones replace earlier ones. -/
def ofPairs (pairs : List (String × α)) : NameMap α :=
  pairs.foldl (fun map p => map.insert p.1 p.2) empty

theorem get?_ofPairs {pairs : List (String × α)} (h : (pairs.map Prod.fst).Nodup) :
    (ofPairs pairs).get? name = some value ↔ (name, value) ∈ pairs := by
  have hfold (map : NameMap α) :
      (pairs.foldl (fun map p => map.insert p.1 p.2) map).get? name = some value ↔
        (name, value) ∈ pairs ∨ name ∉ pairs.map Prod.fst ∧ map.get? name = some value := by
    induction pairs generalizing map with
    | nil => simp
    | cons p pairs ih =>
      obtain ⟨key, own⟩ := p
      rw [List.map_cons, List.nodup_cons] at h
      rw [List.foldl_cons, ih h.2, get?_insert]
      by_cases hname : name = key
      · subst hname
        have hnone : (name, value) ∉ pairs :=
          fun hmem => h.1 (List.mem_map.mpr ⟨_, hmem, rfl⟩)
        simp [hnone, h.1, eq_comm]
      · simp [hname]
  simpa [ofPairs, empty, get?] using hfold empty

theorem contains_foldl_insert {β : Type} (key : β → String) (make : β → α) (items : List β)
    (map : NameMap α) (name : String) :
    (items.foldl (fun map x => map.insert (key x) (make x)) map).contains name = true ↔
      name ∈ items.map key ∨ map.contains name = true := by
  induction items generalizing map with
  | nil => simp
  | cons x items ih =>
    rw [List.foldl_cons, ih, List.map_cons, List.mem_cons, contains, get?_insert]
    by_cases hname : name = key x
    · simp [hname]
    · simp [hname, contains]

end NameMap

end TestBeam
