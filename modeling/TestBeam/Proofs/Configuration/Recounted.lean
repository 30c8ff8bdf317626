import Mathlib.Data.List.Forall2
import TestBeam.Proofs.Configuration.Plan
import TestBeam.Proofs.Entry.Agreement

/-!
# Other counts

A plan does not depend on how many events a run has or on how many particles an event has.
-/

namespace TestBeam.Configuration

/-- Two configurations differ only in the number of events and in numbers of particles. -/
structure Recounted (c d : Configuration) : Prop where
  global : ∀ global, c.global = some global →
    ∃ other, d.global = some other ∧ global.AgreeBut "number_of_events" other
  modules : c.modules.Forall₂ (Entry.AgreeBut "number_of_particles") d.modules
  detectors : d.detectors = c.detectors
  ignored : d.ignored = c.ignored

variable {φ : Type} {c d : Configuration} {registry : Registry φ}

namespace ActiveModule

/-- The same place, and an entry that only has another number of particles. -/
structure Recounted (m n : ActiveModule) : Prop where
  index : n.index = m.index
  entry : m.entry.AgreeBut "number_of_particles" n.entry

end ActiveModule

theorem forall₂_getElem? {α β : Type} {related : α → β → Prop} {xs : List α} {ys : List β}
    (h : xs.Forall₂ related ys) {i : Nat} {x : α} (hx : xs[i]? = some x) :
    ∃ y, ys[i]? = some y ∧ related x y := by
  induction h generalizing i with
  | nil => simp at hx
  | cons hfirst hrest ih =>
    cases i with
    | zero =>
      obtain rfl := Option.some.inj hx
      exact ⟨_, rfl, hfirst⟩
    | succ i => exact ih hx

theorem Recounted.active (h : Recounted c d) : c.active.Forall₂ ActiveModule.Recounted d.active := by
  have hall : ∀ (modules others : List Entry) (k : Nat),
      modules.Forall₂ (Entry.AgreeBut "number_of_particles") others →
      (((modules.zipIdx k).map fun p => (⟨p.2, p.1⟩ : ActiveModule)).filter
        fun m => m.entry.name ∉ c.ignored).Forall₂ ActiveModule.Recounted
      (((others.zipIdx k).map fun p => (⟨p.2, p.1⟩ : ActiveModule)).filter
        fun m => m.entry.name ∉ c.ignored) := by
    intro modules others k hmodules
    induction hmodules generalizing k with
    | nil => exact .nil
    | @cons a b as bs hfirst hrest ih =>
      simp only [List.zipIdx_cons, List.map_cons, List.filter_cons, hfirst.name]
      split
      · exact .cons ⟨rfl, hfirst⟩ (ih (k + 1))
      · exact ih (k + 1)
  unfold Configuration.active
  rw [h.ignored]
  exact hall c.modules d.modules 0 h.modules

theorem Recounted.addEntry (h : Recounted c d) {m n : ActiveModule} (hentry : m.Recounted n)
    (candidates : List Candidate) :
    d.addEntry registry candidates n = c.addEntry registry candidates m := by
  have hnames : n.entry.names "name" = m.entry.names "name" :=
    (hentry.entry.at (by decide)).names
  have hmodels : n.entry.names "type" = m.entry.names "type" :=
    (hentry.entry.at (by decide)).names
  have htarget : d.target n = c.target m := by
    unfold target
    rw [hnames, hmodels, h.detectors, hentry.index, hentry.entry.name]
  have hcandidates : d.candidatesOf n = c.candidatesOf m := by
    funext kind target
    unfold candidatesOf
    rw [h.detectors, hentry.index, hentry.entry.name]
  unfold Configuration.addEntry
  rw [htarget, hcandidates, hentry.index, hentry.entry.name]

theorem Recounted.foldlM (h : Recounted c d) {entries others : List ActiveModule}
    (hentries : entries.Forall₂ ActiveModule.Recounted others) (candidates : List Candidate) :
    others.foldlM (d.addEntry registry) candidates =
      entries.foldlM (c.addEntry registry) candidates := by
  induction hentries generalizing candidates with
  | nil => rfl
  | cons hfirst hrest ih =>
    rw [List.foldlM_cons, List.foldlM_cons, h.addEntry hfirst]
    exact bind_congr fun next => ih next

theorem Recounted.plan_eq (h : Recounted c d) {planned replanned : List PlannedInstance}
    (hplan : c.plan registry = .ok planned) (hreplan : d.plan registry = .ok replanned) :
    replanned = planned := by
  rw [plan_of_prepared (prepared_of_plan hplan)] at hplan
  rw [plan_of_prepared (prepared_of_plan hreplan), h.foldlM h.active, hplan] at hreplan
  exact (Except.ok.inj hreplan).symm

end TestBeam.Configuration
