import Mathlib.Data.List.Forall2
import Mathlib.Data.List.Perm.Basic

/-!
# Results

A computation that gives a result has gone well in each of its parts.
-/

namespace TestBeam

variable {ε ζ α β γ : Type}

/-! ## One after another -/

theorem exists_of_bind_ok {x : Except ε α} {next : α → Except ε β} {b : β}
    (h : x >>= next = .ok b) : ∃ a, x = .ok a ∧ next a = .ok b := by
  cases x with
  | error e => cases h
  | ok a => exact ⟨a, rfl, h⟩

theorem error_of_bind {x : Except ε α} {next : α → Except ε β} {e : ε}
    (h : x >>= next = .error e) : x = .error e ∨ ∃ a, x = .ok a ∧ next a = .error e := by
  cases x with
  | error cause => exact .inl (congrArg Except.error (Except.error.inj h))
  | ok a => exact .inr ⟨a, rfl, h⟩

theorem exists_of_map_ok {x : Except ε α} {f : α → β} {b : β} (h : x.map f = .ok b) :
    ∃ a, x = .ok a ∧ f a = b := by
  cases x with
  | error e => cases h
  | ok a => exact ⟨a, rfl, Except.ok.inj h⟩

theorem exists_of_toOption {x : Except ε α} {f : α → β} {b : β} (h : x.toOption.map f = some b) :
    ∃ a, x = .ok a ∧ f a = b := by
  cases x with
  | error e => cases h
  | ok a => exact ⟨a, rfl, Option.some.inj h⟩

theorem mapError_ok_iff {x : Except ε α} {f : ε → ζ} {a : α} :
    x.mapError f = .ok a ↔ x = .ok a := by
  cases x <;> simp [Except.mapError]

theorem exists_of_mapError_error {x : Except ε α} {f : ε → ζ} {e : ζ} (h : x.mapError f = .error e) :
    ∃ cause, x = .error cause ∧ f cause = e := by
  cases x with
  | error cause => exact ⟨cause, rfl, Except.error.inj h⟩
  | ok a => cases h

theorem exists_both_ok_iff {x : Except ε α} {y : Except ε β} (f : α → β → γ) :
    (∃ c, (do let a ← x; let b ← y; return f a b) = .ok c) ↔ (∃ a, x = .ok a) ∧ ∃ b, y = .ok b := by
  constructor
  · rintro ⟨c, h⟩
    obtain ⟨a, hx, h⟩ := exists_of_bind_ok h
    obtain ⟨b, hy, -⟩ := exists_of_bind_ok h
    exact ⟨⟨a, hx⟩, ⟨b, hy⟩⟩
  · rintro ⟨⟨a, rfl⟩, ⟨b, rfl⟩⟩
    exact ⟨f a b, rfl⟩

/-! ## Lists -/

theorem mapM_map_pure {m : Type → Type} [Monad m] [LawfulMonad m] {f : β → m γ}
    {g : α → β} {k : α → γ} {items : List α} (h : ∀ x ∈ items, f (g x) = pure (k x)) :
    (items.map g).mapM f = pure (items.map k) := by
  induction items with
  | nil => simp
  | cons x items ih =>
    rw [List.map_cons, List.mapM_cons, h x (by simp), ih fun y hy => h y (by simp [hy])]
    simp

section Lists

variable {f : α → Except ε β} {items : List α} {results : List β}

theorem mapM_ok_iff :
    items.mapM f = .ok results ↔ List.Forall₂ (fun x y => f x = .ok y) items results := by
  induction items generalizing results with
  | nil =>
    rw [List.mapM_nil, List.forall₂_nil_left_iff]
    exact ⟨fun h => (Except.ok.inj h).symm, fun h => h ▸ rfl⟩
  | cons x items ih =>
    rw [List.mapM_cons, List.forall₂_cons_left_iff]
    cases hfirst : f x with
    | error cause => simp [bind, Except.bind]
    | ok first =>
      cases hrest : items.mapM f with
      | error cause => simp [← ih, hrest, bind, Except.bind]
      | ok rest => simp [← ih, hrest, bind, Except.bind, pure, Except.pure, eq_comm]

theorem exists_of_mapM_ok (h : items.mapM f = .ok results) {y : β} (hy : y ∈ results) :
    ∃ x ∈ items, f x = .ok y := by
  induction mapM_ok_iff.mp h with
  | nil => simp at hy
  | @cons x z items results hfirst hrest ih =>
    rcases List.mem_cons.mp hy with rfl | hy
    · exact ⟨x, by simp, hfirst⟩
    · obtain ⟨x, hx, hread⟩ := ih (mapM_ok_iff.mpr hrest) hy
      exact ⟨x, by simp [hx], hread⟩

theorem getElem_of_mapM_ok (h : items.mapM f = .ok results) {i : Nat} {x : α}
    (hx : items[i]? = some x) : ∃ y, results[i]? = some y ∧ f x = .ok y := by
  have hread := mapM_ok_iff.mp h
  clear h
  induction hread generalizing i with
  | nil => simp at hx
  | @cons z y items results hfirst hrest ih =>
    cases i with
    | zero =>
      obtain rfl : z = x := by simpa using hx
      exact ⟨y, rfl, hfirst⟩
    | succ i => exact ih (by simpa using hx)

theorem exists_read_of_mapM_ok (h : items.mapM f = .ok results) {x : α} (hx : x ∈ items) :
    ∃ y ∈ results, f x = .ok y := by
  obtain ⟨i, hi⟩ := List.getElem?_of_mem hx
  obtain ⟨y, hy, hread⟩ := getElem_of_mapM_ok h hi
  exact ⟨y, List.mem_of_getElem? hy, hread⟩

theorem exists_mapM_ok_iff :
    (∃ results, items.mapM f = .ok results) ↔ ∀ x ∈ items, ∃ y, f x = .ok y := by
  constructor
  · rintro ⟨results, h⟩ x hx
    obtain ⟨y, -, hread⟩ := exists_read_of_mapM_ok h hx
    exact ⟨y, hread⟩
  · intro h
    induction items with
    | nil => exact ⟨[], rfl⟩
    | cons x items ih =>
      obtain ⟨⟨y, hy⟩, hrest⟩ := List.forall_mem_cons.mp h
      obtain ⟨results, hresults⟩ := ih hrest
      exact ⟨y :: results, mapM_ok_iff.mpr (.cons hy (mapM_ok_iff.mp hresults))⟩

theorem mapM_ok_perm {others : List α} (h : items.mapM f = .ok results) (hperm : items.Perm others) :
    ∃ changed, others.mapM f = .ok changed ∧ results.Perm changed := by
  obtain ⟨changed, hread, hchanged⟩ := List.perm_comp_forall₂ hperm.symm (mapM_ok_iff.mp h)
  exact ⟨changed, mapM_ok_iff.mpr hread, hchanged.symm⟩

theorem mapM_error_iff {e : ε} :
    items.mapM f = .error e ↔ ∃ before x after, items = before ++ x :: after ∧
      (∀ y ∈ before, ∃ z, f y = .ok z) ∧ f x = .error e := by
  induction items with
  | nil => simp [pure, Except.pure]
  | cons x items ih =>
    rw [List.mapM_cons]
    constructor
    · intro h
      rcases error_of_bind h with hfirst | ⟨y, hfirst, hrest⟩
      · exact ⟨[], x, items, rfl, by simp, hfirst⟩
      rcases error_of_bind hrest with hrest | ⟨results, -, hdone⟩
      · obtain ⟨before, z, after, rfl, hbefore, hz⟩ := ih.mp hrest
        exact ⟨x :: before, z, after, rfl, List.forall_mem_cons.mpr ⟨⟨y, hfirst⟩, hbefore⟩, hz⟩
      · cases hdone
    · rintro ⟨before, z, after, hsplit, hbefore, hz⟩
      cases before with
      | nil =>
        obtain ⟨rfl, rfl⟩ := List.cons.inj hsplit
        rw [hz]
        rfl
      | cons first before =>
        obtain ⟨rfl, rfl⟩ := List.cons.inj hsplit
        obtain ⟨⟨y, hy⟩, hbefore⟩ := List.forall_mem_cons.mp hbefore
        rw [hy, ih.mpr ⟨before, z, after, rfl, hbefore, hz⟩]
        rfl

end Lists

section Options

variable {f : α → Option β} {items : List α} {results : List β}

theorem mapM_some_iff :
    items.mapM f = some results ↔ List.Forall₂ (fun x y => f x = some y) items results := by
  induction items generalizing results with
  | nil =>
    rw [List.mapM_nil, List.forall₂_nil_left_iff]
    exact ⟨fun h => (Option.some.inj h).symm, fun h => h ▸ rfl⟩
  | cons x items ih =>
    rw [List.mapM_cons, List.forall₂_cons_left_iff]
    cases f x with
    | none => simp
    | some first =>
      cases hrest : items.mapM f with
      | none => simp [← ih, hrest]
      | some rest => simp [← ih, hrest, eq_comm]

theorem mapM_some_perm {others : List α} (h : items.mapM f = some results)
    (hperm : items.Perm others) : ∃ changed, others.mapM f = some changed ∧ results.Perm changed := by
  obtain ⟨changed, hread, hchanged⟩ := List.perm_comp_forall₂ hperm.symm (mapM_some_iff.mp h)
  exact ⟨changed, mapM_some_iff.mpr hread, hchanged.symm⟩

end Options

end TestBeam
