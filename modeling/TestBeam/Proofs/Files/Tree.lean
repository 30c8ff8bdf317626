import Mathlib.Data.List.Basic
import TestBeam.Files.Tree
import TestBeam.Proofs.Files.Store
import TestBeam.Proofs.Result

/-!
# Trees keep their texts

A file tree keeps the texts of all its files, devices apart: storing a text changes no directory, so the path
still leads to the same place.
-/

namespace TestBeam

namespace FileTree

variable {tree : FileTree} {place target : Place} {node : FileNode}

/-! ## Nodes -/

theorem node?_put_self (h : place ≠ []) : (tree.put place node).node? place = some node := by
  have hfilter : (tree.nodes.filter (·.1 ≠ place)).lookup place = none := by
    rw [List.lookup_eq_none_iff]
    intro p hp
    have hne : p.1 ≠ place := by simpa using (List.mem_filter.mp hp).2
    simpa using hne.symm
  simp only [node?, List.isEmpty_eq_false_iff.mpr h, Bool.false_eq_true, if_false, put]
  rw [List.lookup_append, hfilter]
  simp

theorem node?_put_of_ne (h : place ≠ target) :
    (tree.put target node).node? place = tree.node? place := by
  have hother : (place == target) = false := by simpa using h
  have hkept (nodes : List (Place × FileNode)) :
      (nodes.filter (·.1 ≠ target)).lookup place = nodes.lookup place := by
    induction nodes with
    | nil => rfl
    | cons p nodes ih =>
      by_cases hp : p.1 = target
      · rw [List.filter_cons_of_neg (by simpa using hp), ih, List.lookup_cons, hp, hother]
      · rw [List.filter_cons_of_pos (by simpa using hp), List.lookup_cons, List.lookup_cons, ih]
  unfold node?
  split
  · rfl
  · simp only [put, List.lookup_append, hkept, List.lookup_cons, List.lookup_nil, hother,
      Option.or_none]

/-! ## Paths -/

theorem walk_cons_ok_iff {component : String} {components : List String} {stop : Place} :
    tree.walk place (component :: components) = .ok stop ↔
      tree.node? place = some .directory ∧
        ∃ next, descend place component = .ok next ∧ tree.walk next components = .ok stop := by
  cases hnode : tree.node? place with
  | none => simp [walk, hnode]
  | some found =>
    cases found with
    | directory => cases hdown : descend place component <;> simp [walk, hnode, hdown, Except.bind]
    | text content => simp [walk, hnode]
    | binary => simp [walk, hnode]
    | null => simp [walk, hnode]
    | full => simp [walk, hnode]

theorem walk_put (htarget : tree.node? target ≠ some .directory) {components : List String}
    {stop : Place} (h : tree.walk place components = .ok stop) :
    (tree.put target node).walk place components = .ok stop := by
  -- All places on the way are directories, and the one that changes is none.
  induction components generalizing place with
  | nil => exact h
  | cons component components ih =>
    obtain ⟨hdirectory, next, hdown, hrest⟩ := walk_cons_ok_iff.mp h
    have hne : place ≠ target := by
      rintro rfl
      exact htarget hdirectory
    rw [walk_cons_ok_iff, node?_put_of_ne hne]
    exact ⟨hdirectory, next, hdown, ih hrest⟩

theorem node?_of_walk_dot {components : List String} {stop : Place}
    (h : tree.walk place (components ++ ["."]) = .ok stop) : tree.node? stop = some .directory := by
  induction components generalizing place with
  | nil =>
    obtain ⟨hdirectory, next, hdown, hrest⟩ := walk_cons_ok_iff.mp h
    obtain rfl : place = next := by simpa [descend] using hdown
    obtain rfl : place = stop := by simpa [walk] using hrest
    exact hdirectory
  | cons component components ih =>
    obtain ⟨-, next, -, hrest⟩ := walk_cons_ok_iff.mp h
    exact ih hrest

/-! ## Stored texts -/

structure HoldsText (path : String) (place : Place) (content : String) (tree : FileTree) : Prop where
  slash : path.endsWith "/" = false
  locate : tree.locate path (components path) = .ok place
  node : tree.node? place = some (.text content)

theorem HoldsText.readText {path content : String} (h : HoldsText path place content tree) :
    tree.readText path = .ok content := by
  unfold FileTree.readText
  simp only [h.slash, Bool.false_eq_true, if_false, List.append_nil]
  rw [h.locate]
  simp [Except.bind, h.node]

theorem holdsText_put {path content : String} (hslash : path.endsWith "/" = false)
    (hplace : tree.locate path (components path) = .ok place)
    (hnode : tree.node? place ≠ some .directory) :
    HoldsText path place content (tree.put place (.text content)) where
  slash := hslash
  locate := by
    unfold FileTree.locate at hplace ⊢
    split at hplace
    · cases hplace
    · exact walk_put hnode hplace
  node := by
    refine node?_put_self ?_
    rintro rfl
    exact hnode rfl

theorem HoldsText.append {path content : String} (h : HoldsText path place content tree)
    (text : String) :
    ∃ next, tree.append place text = .ok next ∧ HoldsText path place (content ++ text) next := by
  have hnode : tree.node? place ≠ some .directory := by simp [h.node]
  refine ⟨tree.put place (.text (content ++ text)), ?_, holdsText_put h.slash h.locate hnode⟩
  unfold FileTree.append
  rw [h.node]

/-- The path leads to no device. -/
def IsPlain (tree : FileTree) (path : String) : Prop :=
  ∀ place, tree.locate path (components path) = .ok place →
    tree.node? place ≠ some .null ∧ tree.node? place ≠ some .full

theorem holdsText_of_create {path : String} {next : FileTree} (hplain : tree.IsPlain path)
    (h : tree.create path = .ok (place, next)) : HoldsText path place "" next := by
  obtain ⟨target, htarget, h⟩ := exists_of_bind_ok h
  cases hslash : path.endsWith "/" with
  | true =>
    -- Behind a closing slash there is a directory, which cannot be opened.
    have hdirectory : tree.node? target = some .directory := by
      simp only [hslash, if_true, locate] at htarget
      split at htarget
      · cases htarget
      · exact node?_of_walk_dot htarget
    simp only [hdirectory] at h
    cases h
  | false =>
    simp only [hslash, Bool.false_eq_true, if_false] at htarget
    obtain ⟨hnull, hfull⟩ := hplain target htarget
    split at h
    · cases h
    · contradiction
    · contradiction
    · rename_i hnode _ _
      cases h
      exact holdsText_put hslash htarget hnode

theorem keepsTexts {path : String} (hplain : tree.IsPlain path) : FileStore.KeepsTexts path tree := by
  refine ⟨fun place content tree => HoldsText path place content tree, ?_, ?_, ?_⟩
  · intro place made h
    cases hcreate : tree.create path with
    | error e =>
      simp only [FileStore.create, StateT.run_bind, StateT.run_get, pure_bind, hcreate] at h
      cases h
    | ok opened =>
      obtain ⟨target, next⟩ := opened
      simp only [FileStore.create, StateT.run_bind, StateT.run_get, pure_bind, hcreate] at h
      cases h
      exact holdsText_of_create hplain hcreate
  · intro place content now h text
    obtain ⟨next, happend, hnext⟩ := h.append text
    refine ⟨next, ?_, hnext⟩
    simp only [FileStore.append, StateT.run_bind, StateT.run_get, pure_bind, happend]
    rfl
  · intro place content now h
    exact h.readText

end FileTree

end TestBeam
