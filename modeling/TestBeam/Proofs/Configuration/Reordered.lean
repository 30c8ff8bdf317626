import TestBeam.Proofs.Configuration.Plan

/-!
# Plans of reordered entries

Which entry has an instance does not depend on the order of the entries. An instance that is the only one of
its module also keeps its position in the plan as long as the entries in front of it keep theirs.
-/

namespace TestBeam

theorem Candidate.Remain.eq_of_specificity {requests candidates : List Candidate} {x r : Candidate}
    (h : Remain requests candidates) (hx : x ∈ candidates) (hr : r ∈ requests)
    (hid : r.planned.id = x.planned.id) (hspecificity : r.specificity = x.specificity) : r = x := by
  obtain ⟨y, hy, hyid, hcases⟩ := h.outdone r hr
  obtain rfl := h.eq_of_id hx hy (hid.symm.trans hyid.symm)
  rcases hcases with rfl | hless
  · rfl
  · omega

namespace Configuration

variable {φ : Type} {registry : Registry φ} {c : Configuration} {modules others : List Entry}
  {candidates rest : List Candidate} {x y : Candidate}

/-! ## Winners -/

theorem Requested.reindex {m : ActiveModule} {r : Candidate}
    (h : Requested (c.setModules modules) registry m r) (index : Nat) :
    Requested (c.setModules others) registry ⟨index, m.entry⟩
      ⟨{ r.planned with index }, r.specificity⟩ := by
  cases h with
  | unique hkind => exact .unique hkind
  | perDetector hkind hmem htargets =>
    exact Requested.perDetector (m := ⟨index, m.entry⟩) hkind hmem htargets

theorem exists_request_of_perm (hperm : modules.Perm others)
    (h : Candidate.Remain ((c.setModules modules).requests registry (c.setModules modules).active)
      candidates) (hx : x ∈ candidates) :
    ∃ index entry, modules[x.planned.index]? = some entry ∧ others[index]? = some entry ∧
      ⟨{ x.planned with index }, x.specificity⟩ ∈
        (c.setModules others).requests registry (c.setModules others).active := by
  obtain ⟨m, hm, hrequested⟩ := requested_of_remain h hx
  obtain ⟨hget, hactive⟩ := mem_active.mp hm
  obtain ⟨index, hindex⟩ := List.getElem?_of_mem (hperm.mem_iff.mp (List.mem_of_getElem? hget))
  refine ⟨index, m.entry, hrequested.index ▸ hget, hindex, ?_⟩
  exact mem_requests.mpr ⟨⟨index, m.entry⟩, mem_active.mpr ⟨hindex, hactive⟩, hrequested.reindex index⟩

section Winners

variable (hperm : modules.Perm others)
  (h : Candidate.Remain ((c.setModules modules).requests registry (c.setModules modules).active)
    candidates)
  (hrest : Candidate.Remain ((c.setModules others).requests registry (c.setModules others).active)
    rest)
include hperm h hrest

theorem exists_winner_of_perm (hx : x ∈ candidates) :
    ∃ y ∈ rest, y.planned.id = x.planned.id ∧ x.specificity ≤ y.specificity := by
  obtain ⟨index, entry, -, -, hrequest⟩ := exists_request_of_perm hperm h hx
  obtain ⟨y, hy, hid, hcases⟩ := hrest.outdone _ hrequest
  refine ⟨y, hy, hid, ?_⟩
  rcases hcases with rfl | hless
  · exact Nat.le_refl _
  · exact Nat.le_of_lt hless

theorem specificity_eq_of_perm (hx : x ∈ candidates) (hy : y ∈ rest)
    (hid : y.planned.id = x.planned.id) : x.specificity = y.specificity := by
  obtain ⟨y', hy', hid', hle⟩ := exists_winner_of_perm hperm h hrest hx
  obtain rfl := hrest.eq_of_id hy hy' (hid.trans hid'.symm)
  obtain ⟨x', hx', hid'', hge⟩ := exists_winner_of_perm hperm.symm hrest h hy
  obtain rfl := h.eq_of_id hx hx' (hid.symm.trans hid''.symm)
  exact Nat.le_antisymm hle hge

theorem entry_eq_of_perm (hx : x ∈ candidates) (hy : y ∈ rest)
    (hid : y.planned.id = x.planned.id) :
    others[y.planned.index]? = modules[x.planned.index]? := by
  have hspecificity := specificity_eq_of_perm hperm h hrest hx hy hid
  obtain ⟨index, entry, hentry, hindex, hrequest⟩ := exists_request_of_perm hperm h hx
  have heq := hrest.eq_of_specificity hy hrequest hid.symm hspecificity
  rw [hentry, ← hindex, ← heq]

end Winners

theorem exists_planned_of_perm {planned replanned : List PlannedInstance}
    (hperm : modules.Perm others)
    (hplan : (c.setModules modules).plan registry = .ok planned)
    (hreplan : (c.setModules others).plan registry = .ok replanned) {p : PlannedInstance}
    (hp : p ∈ planned) : ∃ q ∈ replanned, q.id = p.id ∧ others[q.index]? = modules[p.index]? := by
  obtain ⟨candidates, h, rfl⟩ := remain_of_plan hplan
  obtain ⟨rest, hrest, rfl⟩ := remain_of_plan hreplan
  obtain ⟨x, hx, rfl⟩ := List.mem_map.mp hp
  obtain ⟨y, hy, hid, -⟩ := exists_winner_of_perm hperm h hrest hx
  exact ⟨y.planned, List.mem_map_of_mem hy, hid, entry_eq_of_perm hperm h hrest hx hy hid⟩

/-! ## The instance that keeps its position -/

section Position

variable {front behind behind' : List Entry} {pivot : Entry}

theorem active_split (front behind : List Entry) (hactive : pivot.name ∉ c.ignored) :
    ∃ later, (c.setModules (front ++ pivot :: behind)).active =
        (c.setModules front).active ++ ⟨front.length, pivot⟩ :: later ∧
      ∀ m ∈ later, front.length < m.index := by
  -- What stands behind the pivot is numbered from the next position on.
  refine ⟨((behind.zipIdx (front.length + 1)).map fun e => ⟨e.2, e.1⟩).filter
    fun m => m.entry.name ∉ c.ignored, ?_, fun m hm => ?_⟩
  · unfold active setModules
    rw [List.zipIdx_append, List.zipIdx_cons, List.map_append, List.map_cons, List.filter_append,
      List.filter_cons_of_pos (by simpa using hactive), Nat.zero_add]
  · obtain ⟨hmem, -⟩ := List.mem_filter.mp hm
    obtain ⟨⟨entry, index⟩, hzip, rfl⟩ := List.mem_map.mp hmem
    exact (List.mem_zipIdx hzip).1

theorem index_lt_of_front {x : Candidate}
    (hx : x ∈ (c.setModules front).requests registry (c.setModules front).active) :
    x.planned.index < front.length := by
  obtain ⟨m, hm, hrequested⟩ := mem_requests.mp hx
  rw [hrequested.index]
  exact (List.getElem?_eq_some_iff.mp (mem_active.mp hm).1).1

theorem candidates_split (hkind : registry.kind? pivot.name = some .unique)
    (hactive : pivot.name ∉ c.ignored)
    (h : Candidate.Remain ((c.setModules (front ++ pivot :: behind)).requests registry
      (c.setModules (front ++ pivot :: behind)).active) candidates) :
    ∃ earlier later, candidates =
        earlier ++ ⟨⟨front.length, ⟨pivot.name, none⟩, .unique⟩, 0⟩ :: later ∧
      (∀ x ∈ earlier, x ∈ (c.setModules front).requests registry (c.setModules front).active) ∧
      ∀ x ∈ later, front.length < x.planned.index := by
  obtain ⟨behindActive, hsplit, hbehind⟩ := active_split front behind hactive
  have hpivot : ⟨⟨front.length, ⟨pivot.name, none⟩, .unique⟩, 0⟩ ∈ candidates :=
    unique_mem_of_remain (m := ⟨front.length, pivot⟩) h (by simp [hsplit]) hkind
  have hrequests : (c.setModules (front ++ pivot :: behind)).requests registry
        (c.setModules (front ++ pivot :: behind)).active =
      (c.setModules front).requests registry (c.setModules front).active ++
        ([⟨⟨front.length, ⟨pivot.name, none⟩, .unique⟩, 0⟩] ++
          (c.setModules front).requests registry behindActive) := by
    rw [hsplit]
    unfold requests
    rw [List.flatMap_append, List.flatMap_cons]
    have hown : (c.setModules (front ++ pivot :: behind)).requestsOf registry ⟨front.length, pivot⟩ =
        [⟨⟨front.length, ⟨pivot.name, none⟩, .unique⟩, 0⟩] := by
      unfold requestsOf
      rw [hkind]
      rfl
    rw [hown]
    rfl
  have hbehind' : ∀ x ∈ (c.setModules front).requests registry behindActive,
      front.length < x.planned.index := by
    intro x hx
    obtain ⟨m, hm, hrequested⟩ := mem_requests.mp hx
    rw [hrequested.index]
    exact hbehind m hm
  have hsublist := h.sublist
  rw [hrequests, List.sublist_append_iff] at hsublist
  obtain ⟨earlier, others, rfl, hearlier, hothers⟩ := hsublist
  obtain ⟨own, later, rfl, hown, hlater⟩ := List.sublist_append_iff.mp hothers
  -- The pivot is neither in front of itself nor behind, so it is the part in between.
  have hmem : ⟨⟨front.length, ⟨pivot.name, none⟩, .unique⟩, 0⟩ ∈ own := by
    rcases List.mem_append.mp hpivot with hpivot | hpivot
    · exact absurd (index_lt_of_front (hearlier.subset hpivot)) (Nat.lt_irrefl _)
    · rcases List.mem_append.mp hpivot with hpivot | hpivot
      · exact hpivot
      · exact absurd (hbehind' _ (hlater.subset hpivot)) (Nat.lt_irrefl _)
  rcases List.sublist_singleton.mp hown with rfl | rfl
  · cases hmem
  · exact ⟨earlier, later, rfl, fun x hx => hearlier.subset hx,
      fun x hx => hbehind' x (hlater.subset hx)⟩

theorem mem_requests_of_front (hactive : pivot.name ∉ c.ignored)
    (hx : x ∈ (c.setModules front).requests registry (c.setModules front).active) :
    x ∈ (c.setModules (front ++ pivot :: behind)).requests registry
      (c.setModules (front ++ pivot :: behind)).active := by
  obtain ⟨later, hsplit, -⟩ := active_split front behind hactive
  obtain ⟨m, hm, hrequest⟩ := List.mem_flatMap.mp hx
  exact List.mem_flatMap.mpr ⟨m, by simp [hsplit, hm], hrequest⟩

theorem earlier_subset {earlier later earlier' later' : List Candidate} {s : Candidate}
    (hactive : pivot.name ∉ c.ignored) (hperm : behind.Perm behind')
    (h : Candidate.Remain ((c.setModules (front ++ pivot :: behind)).requests registry
      (c.setModules (front ++ pivot :: behind)).active) (earlier ++ s :: later))
    (hrest : Candidate.Remain ((c.setModules (front ++ pivot :: behind')).requests registry
      (c.setModules (front ++ pivot :: behind')).active) (earlier' ++ s :: later'))
    (hearlier : ∀ x ∈ earlier,
      x ∈ (c.setModules front).requests registry (c.setModules front).active)
    (hs : s.planned.index = front.length) (hlater' : ∀ x ∈ later', front.length < x.planned.index) :
    ∀ x ∈ earlier, x ∈ earlier' := by
  intro x hx
  have hindex := index_lt_of_front (hearlier x hx)
  have hmodules := (hperm.cons pivot).append_left front
  have hmem : x ∈ earlier ++ s :: later := by simp [hx]
  obtain ⟨y, hy, hid, -⟩ := exists_winner_of_perm hmodules h hrest hmem
  obtain rfl := hrest.eq_of_specificity hy (mem_requests_of_front hactive (hearlier x hx)) hid.symm
    (specificity_eq_of_perm hmodules h hrest hmem hy hid)
  rcases List.mem_append.mp hy with hy | hy
  · exact hy
  · rcases List.mem_cons.mp hy with rfl | hy
    · omega
    · have := hlater' x hy
      omega

/-- The only instance of its module keeps its position if only entries behind it are reordered. -/
theorem exists_position {planned replanned : List PlannedInstance}
    (hkind : registry.kind? pivot.name = some .unique) (hactive : pivot.name ∉ c.ignored)
    (hperm : behind.Perm behind')
    (hplan : (c.setModules (front ++ pivot :: behind)).plan registry = .ok planned)
    (hreplan : (c.setModules (front ++ pivot :: behind')).plan registry = .ok replanned) :
    ∃ k : Nat, planned[k]? = some ⟨front.length, ⟨pivot.name, none⟩, .unique⟩ ∧
      replanned[k]? = some ⟨front.length, ⟨pivot.name, none⟩, .unique⟩ := by
  obtain ⟨candidates, h, rfl⟩ := remain_of_plan hplan
  obtain ⟨rest, hrest, rfl⟩ := remain_of_plan hreplan
  obtain ⟨earlier, later, rfl, hearlier, hlater⟩ := candidates_split hkind hactive h
  obtain ⟨earlier', later', rfl, hearlier', hlater'⟩ := candidates_split hkind hactive hrest
  have hsame (x : Candidate) : x ∈ earlier ↔ x ∈ earlier' :=
    ⟨earlier_subset hactive hperm h hrest hearlier rfl hlater' x,
      earlier_subset hactive hperm.symm hrest h hearlier' rfl hlater x⟩
  have hnodup := (List.nodup_append.mp h.distinct.of_map).1
  have hnodup' := (List.nodup_append.mp hrest.distinct.of_map).1
  have hlength : earlier.length = earlier'.length :=
    ((List.perm_ext_iff_of_nodup hnodup hnodup').mpr hsame).length_eq
  refine ⟨earlier.length, by simp, ?_⟩
  rw [hlength]
  simp

end Position

end Configuration

end TestBeam
