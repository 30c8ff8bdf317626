/-!
# Order of names

Detectors are kept in ascending order of their names, so nothing depends on the order in which they
were configured.
-/

namespace TestBeam

/-- Ascending by name. Equal names keep their order. -/
def sortByName {α : Type} (name : α → String) (items : List α) : List α :=
  items.mergeSort fun a b => decide (name a ≤ name b)

theorem sortByName_perm {α : Type} (name : α → String) (items : List α) :
    (sortByName name items).Perm items :=
  List.mergeSort_perm items _

theorem sortByName_ascending {α : Type} (name : α → String) (items : List α) :
    (sortByName name items).Pairwise fun a b => name a ≤ name b := by
  have transitive (a b c : α) (hab : decide (name a ≤ name b) = true)
      (hbc : decide (name b ≤ name c) = true) : decide (name a ≤ name c) = true := by
    simp only [decide_eq_true_eq] at *
    exact String.le_trans hab hbc
  have total (a b : α) : (decide (name a ≤ name b) || decide (name b ≤ name a)) = true := by
    simp only [Bool.or_eq_true, decide_eq_true_eq]
    exact String.le_total (name a) (name b)
  have sorted := List.pairwise_mergeSort transitive total items
  exact sorted.imp fun h => by simpa using h

end TestBeam
