import Mathlib.Data.List.Nodup
import TestBeam.Configuration.Plan

/-!
# Candidates

Candidates are added one by one. Those that remain are a part of all that were requested: for each
instance the one that is more specific than all others.
-/

namespace TestBeam

/-! ## Steps that can fail -/

section Steps

variable {α β ε : Type} {f : β → α → Except ε β} {start reached : β}

theorem foldlM_cons_ok {item : α} (h : f start item = .ok reached) (items : List α) :
    (item :: items).foldlM f start = items.foldlM f reached := by
  rw [List.foldlM_cons, h]
  rfl

theorem foldlM_cons_error {item : α} {error : ε} (h : f start item = .error error)
    (items : List α) : (item :: items).foldlM f start = .error error := by
  rw [List.foldlM_cons, h]
  rfl

theorem foldlM_eq_error_iff (start : β) (items : List α) (error : ε) :
    items.foldlM f start = .error error ↔
      ∃ before item after reached, items = before ++ item :: after ∧
        before.foldlM f start = .ok reached ∧ f reached item = .error error := by
  induction items generalizing start with
  | nil =>
    constructor
    · intro h
      cases h
    · rintro ⟨before, item, after, reached, h, -⟩
      simp at h
  | cons first items ih =>
    cases hfirst : f start first with
    | error cause =>
      rw [foldlM_cons_error hfirst]
      constructor
      · intro h
        exact ⟨[], first, items, start, rfl, rfl, hfirst.trans (by simpa using h)⟩
      · rintro ⟨before, item, after, reached, hsplit, hbefore, hitem⟩
        cases before with
        | nil =>
          obtain ⟨rfl, rfl⟩ : first = item ∧ items = after := by simpa using hsplit
          cases hbefore
          rw [← hitem, hfirst]
        | cons b before =>
          obtain ⟨rfl, -⟩ : first = b ∧ _ := by simpa using hsplit
          rw [foldlM_cons_error hfirst] at hbefore
          cases hbefore
    | ok next =>
      rw [foldlM_cons_ok hfirst, ih next]
      constructor
      · rintro ⟨before, item, after, reached, rfl, hbefore, hitem⟩
        exact ⟨first :: before, item, after, reached, rfl,
          (foldlM_cons_ok hfirst before).trans hbefore, hitem⟩
      · rintro ⟨before, item, after, reached, hsplit, hbefore, hitem⟩
        cases before with
        | nil =>
          obtain ⟨rfl, -⟩ : first = item ∧ _ := by simpa using hsplit
          cases hbefore
          rw [hfirst] at hitem
          cases hitem
        | cons b before =>
          obtain ⟨rfl, rfl⟩ : first = b ∧ items = before ++ item :: after := by simpa using hsplit
          rw [foldlM_cons_ok hfirst] at hbefore
          exact ⟨before, item, after, reached, rfl, hbefore, hitem⟩

end Steps

/-! ## What remains -/

namespace Candidate

/-- Of the requests for one instance the one that is more specific than all others remains. -/
structure Remain (requests candidates : List Candidate) : Prop where
  sublist : candidates.Sublist requests
  distinct : (candidates.map (·.planned.id)).Nodup
  outdone : ∀ r ∈ requests, ∃ x ∈ candidates,
    x.planned.id = r.planned.id ∧ (x = r ∨ r.specificity < x.specificity)

/-- The most specific ones of the requests for the instance of a candidate are as specific as it. -/
def Clashes (requests : List Candidate) (candidate : Candidate) : Prop :=
  (∃ r ∈ requests, r.planned.id = candidate.planned.id ∧ r.specificity = candidate.specificity) ∧
    ∀ r ∈ requests, r.planned.id = candidate.planned.id → r.specificity ≤ candidate.specificity

def clash (candidate : Candidate) : ConfigurationError :=
  .duplicateModule candidate.planned.index candidate.planned.id

variable {requests candidates : List Candidate} {candidate x y : Candidate}

theorem remain_nil : Remain [] [] :=
  ⟨List.Sublist.refl _, List.nodup_nil, by simp⟩

theorem Remain.eq_of_id (h : Remain requests candidates) (hx : x ∈ candidates)
    (hy : y ∈ candidates) (heq : x.planned.id = y.planned.id) : x = y :=
  List.inj_on_of_nodup_map h.distinct hx hy heq

theorem Remain.specificity_le (h : Remain requests candidates) (hx : x ∈ candidates)
    {r : Candidate} (hr : r ∈ requests) (heq : r.planned.id = x.planned.id) :
    r.specificity ≤ x.specificity := by
  obtain ⟨y, hy, hid, hless⟩ := h.outdone r hr
  obtain rfl := h.eq_of_id hx hy (heq.symm.trans hid.symm)
  rcases hless with rfl | hless
  · exact Nat.le_refl _
  · exact Nat.le_of_lt hless

theorem clashes_append_of_ne (hne : y.planned.id ≠ x.planned.id) :
    Clashes (requests ++ [x]) y ↔ Clashes requests y := by
  have hx : x.planned.id ≠ y.planned.id := Ne.symm hne
  simp [Clashes, or_and_right, exists_or, or_imp, forall_and, hx]

theorem Remain.append (h : Remain requests candidates)
    (hnew : ∀ y ∈ candidates, y.planned.id ≠ x.planned.id) :
    Remain (requests ++ [x]) (candidates ++ [x]) := by
  refine ⟨h.sublist.append (List.Sublist.refl _), ?_, ?_⟩
  · rw [List.map_append, List.nodup_append]
    refine ⟨h.distinct, by simp, ?_⟩
    intro a ha b hb
    obtain ⟨y, hy, rfl⟩ := List.mem_map.mp ha
    obtain rfl : b = x.planned.id := by simpa using hb
    exact hnew y hy
  · intro r hr
    rcases List.mem_append.mp hr with hr | hr
    · obtain ⟨y, hy, hid, hless⟩ := h.outdone r hr
      exact ⟨y, List.mem_append_left _ hy, hid, hless⟩
    · obtain rfl : r = x := by simpa using hr
      exact ⟨r, by simp, rfl, .inl rfl⟩

theorem Remain.yield (h : Remain requests candidates) (hy : y ∈ candidates)
    (heq : y.planned.id = x.planned.id) (hless : x.specificity < y.specificity) :
    Remain (requests ++ [x]) candidates := by
  refine ⟨h.sublist.trans (List.sublist_append_left _ _), h.distinct, ?_⟩
  intro r hr
  rcases List.mem_append.mp hr with hr | hr
  · exact h.outdone r hr
  · obtain rfl : r = x := by simpa using hr
    exact ⟨y, hy, heq, .inr hless⟩

theorem Remain.displace (h : Remain requests candidates) (hy : y ∈ candidates)
    (heq : y.planned.id = x.planned.id) (hless : y.specificity < x.specificity) :
    Remain (requests ++ [x]) (candidates.filter (·.planned.id ≠ x.planned.id) ++ [x]) := by
  have hsublist : (candidates.filter (·.planned.id ≠ x.planned.id)).Sublist candidates :=
    List.filter_sublist
  refine ⟨(hsublist.trans h.sublist).append (List.Sublist.refl _), ?_, ?_⟩
  · rw [List.map_append, List.nodup_append]
    refine ⟨h.distinct.sublist (hsublist.map _), by simp, ?_⟩
    intro a ha b hb
    obtain ⟨z, hz, rfl⟩ := List.mem_map.mp ha
    obtain rfl : b = x.planned.id := by simpa using hb
    simpa using (List.mem_filter.mp hz).2
  · intro r hr
    rcases List.mem_append.mp hr with hr | hr
    · by_cases hid : r.planned.id = x.planned.id
      · have hle := h.specificity_le hy hr (hid.trans heq.symm)
        exact ⟨x, by simp, hid.symm, .inr (by omega)⟩
      · obtain ⟨z, hz, hzid, hzless⟩ := h.outdone r hr
        exact ⟨z, by simp [hz, hzid, hid], hzid, hzless⟩
    · obtain rfl : r = x := by simpa using hr
      exact ⟨r, by simp, rfl, .inl rfl⟩

/-- Adding a candidate fails exactly if it clashes with the requests before it. -/
theorem addTo_spec (h : Remain requests candidates) (x : Candidate) :
    (Clashes requests x ∧ x.addTo candidates = .error x.clash) ∨
      (¬Clashes requests x ∧
        ∃ next, x.addTo candidates = .ok next ∧ Remain (requests ++ [x]) next) := by
  unfold addTo
  cases hfind : candidates.find? (·.planned.id = x.planned.id) with
  | none =>
    have hnew : ∀ y ∈ candidates, y.planned.id ≠ x.planned.id := by
      simpa using hfind
    refine .inr ⟨?_, _, rfl, h.append hnew⟩
    rintro ⟨⟨r, hr, hid, -⟩, -⟩
    obtain ⟨y, hy, hyid, -⟩ := h.outdone r hr
    exact hnew y hy (hyid.trans hid)
  | some earlier =>
    have hmem := List.mem_of_find?_eq_some hfind
    have hid : earlier.planned.id = x.planned.id := by
      simpa using List.find?_some hfind
    have hbelow : ∀ r ∈ requests, r.planned.id = x.planned.id →
        r.specificity ≤ earlier.specificity :=
      fun r hr heq => h.specificity_le hmem hr (heq.trans hid.symm)
    have hrequested := h.sublist.subset hmem
    rcases Nat.lt_trichotomy earlier.specificity x.specificity with hlt | heq | hgt
    · refine .inr ⟨?_, _, ?_, h.displace hmem hid hlt⟩
      · rintro ⟨⟨r, hr, hrid, hrspecificity⟩, -⟩
        have := hbelow r hr hrid
        omega
      · simp [Nat.ne_of_lt hlt, Nat.not_lt_of_lt hlt]
    · refine .inl ⟨⟨⟨earlier, hrequested, hid, heq⟩, fun r hr hrid => ?_⟩, ?_⟩
      · exact heq ▸ hbelow r hr hrid
      · simp [heq, clash]
    · refine .inr ⟨?_, _, ?_, h.yield hmem hid hgt⟩
      · rintro ⟨-, hle⟩
        have := hle earlier hrequested hid
        omega
      · simp [Nat.ne_of_gt hgt, hgt]

theorem foldlM_addTo_ok (h : Remain requests candidates) {added : List Candidate}
    (hdistinct : (added.map (·.planned.id)).Nodup) (hfree : ∀ x ∈ added, ¬Clashes requests x) :
    ∃ next, added.foldlM (fun all x => x.addTo all) candidates = .ok next ∧
      Remain (requests ++ added) next := by
  induction added generalizing requests candidates with
  | nil => exact ⟨candidates, rfl, by simpa using h⟩
  | cons first added ih =>
    rw [List.map_cons, List.nodup_cons] at hdistinct
    rcases addTo_spec h first with ⟨hclash, -⟩ | ⟨-, next, hok, hnext⟩
    · exact absurd hclash (hfree first (by simp))
    have hrest : ∀ x ∈ added, ¬Clashes (requests ++ [first]) x := by
      intro x hx hclash
      have hne : x.planned.id ≠ first.planned.id := by
        intro heq
        exact hdistinct.1 (heq ▸ List.mem_map_of_mem hx)
      exact hfree x (by simp [hx]) ((clashes_append_of_ne hne).mp hclash)
    obtain ⟨last, hrun, hlast⟩ := ih hnext hdistinct.2 hrest
    exact ⟨last, (foldlM_cons_ok hok added).trans hrun, by simpa using hlast⟩

theorem clashes_append {added : List Candidate}
    (hne : ∀ x ∈ added, y.planned.id ≠ x.planned.id) :
    Clashes (requests ++ added) y ↔ Clashes requests y := by
  induction added generalizing requests with
  | nil => rw [List.append_nil]
  | cons first added ih =>
    rw [List.append_cons, ih fun x hx => hne x (by simp [hx]),
      clashes_append_of_ne (hne first (by simp))]

theorem foldlM_addTo_error (h : Remain requests candidates) {before after : List Candidate}
    (hdistinct : ((before ++ x :: after).map (·.planned.id)).Nodup)
    (hfree : ∀ y ∈ before, ¬Clashes requests y) (hclash : Clashes requests x) :
    (before ++ x :: after).foldlM (fun all x => x.addTo all) candidates = .error x.clash := by
  rw [List.map_append, List.map_cons, List.nodup_append] at hdistinct
  obtain ⟨hbefore, -, hapart⟩ := hdistinct
  obtain ⟨reached, hrun, hreached⟩ := foldlM_addTo_ok h hbefore hfree
  have hne : ∀ y ∈ before, x.planned.id ≠ y.planned.id :=
    fun y hy => (hapart _ (List.mem_map_of_mem hy) _ (by simp)).symm
  refine (foldlM_eq_error_iff _ _ _).mpr ⟨before, x, after, reached, rfl, hrun, ?_⟩
  rcases addTo_spec hreached x with ⟨-, herror⟩ | ⟨hnot, -⟩
  · exact herror
  · exact absurd ((clashes_append hne).mpr hclash) hnot

end Candidate

end TestBeam
