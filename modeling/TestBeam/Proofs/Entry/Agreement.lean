import TestBeam.Proofs.Entry.Written
import TestBeam.Proofs.Result

/-!
# Entries that agree

A getter only looks at the name of its entry and at its own key. Entries that agree there give it the same
result.
-/

namespace TestBeam.Entry

/-- Two entries look the same through a key. -/
structure SameAt (a b : Entry) (key : String) : Prop where
  name : b.name = a.name
  value : b.get? key = a.get? key

/-- Two entries look the same through all keys but one. -/
structure AgreeBut (key : String) (a b : Entry) : Prop where
  name : b.name = a.name
  value : ∀ other, other ≠ key → b.get? other = a.get? other

theorem AgreeBut.refl (key : String) (entry : Entry) : AgreeBut key entry entry :=
  ⟨rfl, fun _ _ => rfl⟩

theorem AgreeBut.set (entry : Entry) (key : String) (value : Setting) :
    AgreeBut key entry (entry.set key value) := by
  refine ⟨rfl, fun other hother => ?_⟩
  rw [get?_set, if_neg hother.symm]

theorem AgreeBut.at {key other : String} {a b : Entry} (h : AgreeBut key a b) (hother : other ≠ key) :
    SameAt a b other :=
  ⟨h.name, h.value other hother⟩

namespace SameAt

variable {a b : Entry} {key : String} (h : SameAt a b key)

include h

theorem has : b.has key = a.has key := by
  unfold Entry.has
  rw [h.value]

theorem require : b.require key = a.require key := by
  unfold Entry.require
  rw [h.value, h.name]

theorem text : b.text key = a.text key := by
  unfold Entry.text
  rw [h.require]

theorem textOr (default : String) : b.textOr key default = a.textOr key default := by
  unfold Entry.textOr
  rw [h.value]

theorem names : b.names key = a.names key := by
  unfold Entry.names
  rw [h.value]

theorem refuse {α : Type} (value : Setting) (reason : String) :
    (b.refuse key value reason : Except SettingError α) = a.refuse key value reason := by
  unfold Entry.refuse
  rw [h.name]

theorem withUnits {α : Type} (value : Setting) (result : Except UnitError α) :
    b.withUnits key value result = a.withUnits key value result := by
  unfold Entry.withUnits
  rw [h.name]

theorem integer : b.integer key = a.integer key := by
  unfold Entry.integer
  rw [h.require]
  simp only [h.refuse]

theorem countOr (default : Nat) : b.countOr key default = a.countOr key default := by
  unfold Entry.countOr
  rw [h.has, h.integer]
  simp only [h.refuse]

theorem quantity (dimension : Dimension) : b.quantity key dimension = a.quantity key dimension := by
  unfold Entry.quantity
  rw [h.require]
  simp only [h.refuse, h.withUnits]

theorem quantityOr (dimension : Dimension) (default : String) :
    b.quantityOr key dimension default = a.quantityOr key dimension default := by
  unfold Entry.quantityOr
  rw [h.has, h.quantity, h.withUnits]

theorem vector (dimension : Dimension) : b.vector key dimension = a.vector key dimension := by
  unfold Entry.vector
  rw [h.require]
  simp only [h.withUnits]

theorem vectorOr (dimension : Dimension) (default : String) :
    b.vectorOr key dimension default = a.vectorOr key dimension default := by
  unfold Entry.vectorOr
  rw [h.has, h.vector, h.withUnits]

theorem choiceOr (choices : List String) (default : String) :
    b.choiceOr key choices default = a.choiceOr key choices default := by
  unfold Entry.choiceOr
  simp only [h.textOr, h.refuse]

end SameAt

end TestBeam.Entry
