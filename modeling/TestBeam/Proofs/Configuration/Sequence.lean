import Mathlib.Data.List.Induction
import TestBeam.Proofs.Configuration.Requests

/-!
# Sequences of entries

Entries are checked in order, and the first one that is refused ends the checks. If none is refused, the
candidates that remain are those of all requests.
-/

namespace TestBeam.Configuration

variable {φ : Type} {c : Configuration} {registry : Registry φ} {before entries : List ActiveModule}
  {m : ActiveModule} {candidates : List Candidate} {error : ConfigurationError}

/-! ## The lists of one entry -/

theorem target_ok (hnames : c.KnowsNames m)
    (hlists : m.entry.names "name" = [] ∨ m.entry.names "type" = []) :
    c.target m = .ok m.target := by
  have hfind : (m.entry.names "name").find? (fun name => name ∉ c.detectors.map Entry.name) =
      none := by
    simpa [KnowsNames] using hnames
  unfold target
  simp only [hfind]
  rcases hlists with h | h <;> simp [h, ActiveModule.target]

theorem target_unknown {known rest : List String} {unknown : String}
    (hnames : m.entry.names "name" = known ++ unknown :: rest)
    (hknown : ∀ name ∈ known, name ∈ c.detectors.map Entry.name)
    (hunknown : unknown ∉ c.detectors.map Entry.name) :
    c.target m = .error (.unknownDetector m.index m.entry.name unknown) := by
  have hfind : (m.entry.names "name").find? (fun name => name ∉ c.detectors.map Entry.name) =
      some unknown := by
    rw [hnames, List.find?_append, List.find?_eq_none.mpr fun name hname => by
      simpa using hknown name hname, Option.none_or]
    exact List.find?_cons_of_pos (by simpa using hunknown)
  unfold target
  simp only [hfind]

theorem target_both (hnames : c.KnowsNames m)
    (hboth : m.entry.names "name" ≠ [] ∧ m.entry.names "type" ≠ []) :
    c.target m = .error (.malformedSetting (.invalid m.entry.name "type"
      (", ".intercalate (m.entry.names "type")) "cannot be combined with 'name'")) := by
  have hfind : (m.entry.names "name").find? (fun name => name ∉ c.detectors.map Entry.name) =
      none := by
    simpa [KnowsNames] using hnames
  unfold target
  simp only [hfind]
  simp [hboth]

/-! ## One entry -/

theorem resolve_of_kind {kind : ModuleKind} {name : String} (h : registry.kind? name = some kind) :
    ∃ factory, registry.resolve name = .ok ⟨kind, factory⟩ := by
  obtain ⟨⟨_, factory⟩, hget, rfl⟩ := Option.map_eq_some_iff.mp h
  exact ⟨factory, by simp [Registry.resolve, hget]⟩

theorem kind_eq_none_iff {name : String} :
    registry.kind? name = none ↔ ∃ cause, registry.resolve name = .error cause := by
  unfold Registry.kind? Registry.resolve
  simp only [Option.map_eq_none_iff]
  cases NameMap.get? registry name <;> simp

theorem addEntry_eq {kind : ModuleKind} (hkind : registry.kind? m.entry.name = some kind)
    (hnames : c.KnowsNames m) (hlists : m.entry.names "name" = [] ∨ m.entry.names "type" = []) :
    c.addEntry registry candidates m =
      (c.requestsOf registry m).foldlM (fun all candidate => candidate.addTo all) candidates := by
  obtain ⟨factory, hresolve⟩ := resolve_of_kind hkind
  unfold addEntry
  rw [hresolve, target_ok hnames hlists, requestsOf, hkind]
  rfl

theorem addEntry_ok (hdetectors : (c.detectors.map Entry.name).Nodup)
    (hremain : Candidate.Remain (c.requests registry before) candidates)
    (h : Accepted c registry before m) :
    ∃ next, c.addEntry registry candidates m = .ok next ∧
      Candidate.Remain (c.requests registry (before ++ [m])) next := by
  obtain ⟨kind, hkind⟩ := Option.isSome_iff_exists.mp h.module
  rw [addEntry_eq hkind h.names h.lists, requests_append]
  apply Candidate.foldlM_addTo_ok hremain (requestsOf_distinct hdetectors registry m)
  intro x hx
  cases mem_requestsOf.mp hx with
  | unique hkind =>
    rw [clashes_unique hkind]
    rintro ⟨a, ha, hname⟩
    exact h.single hkind a ha hname
  | perDetector hkind hmem htargets =>
    rw [clashes_perDetector hdetectors hkind hmem]
    exact h.free hkind _ hmem htargets

theorem addEntry_error (hdetectors : (c.detectors.map Entry.name).Nodup)
    (hremain : Candidate.Remain (c.requests registry before) candidates)
    (h : Refused c registry before m error) :
    c.addEntry registry candidates m = .error error := by
  cases h with
  | module hresolve =>
    unfold addEntry
    rw [hresolve]
    rfl
  | names hmodule hnames hknown hunknown =>
    obtain ⟨kind, hkind⟩ := Option.isSome_iff_exists.mp hmodule
    obtain ⟨factory, hresolve⟩ := resolve_of_kind hkind
    unfold addEntry
    rw [hresolve, target_unknown hnames hknown hunknown]
    rfl
  | lists hmodule hnames hboth =>
    obtain ⟨kind, hkind⟩ := Option.isSome_iff_exists.mp hmodule
    obtain ⟨factory, hresolve⟩ := resolve_of_kind hkind
    unfold addEntry
    rw [hresolve, target_both hnames hboth]
    rfl
  | @repeated hkind hnames hlists a hmem hname =>
    have hrequests : c.requestsOf registry m =
        [] ++ ⟨⟨m.index, ⟨m.entry.name, none⟩, .unique⟩, 0⟩ :: [] := by
      simp [requestsOf, hkind, candidatesOf]
    have hdistinct := requestsOf_distinct hdetectors registry m
    rw [addEntry_eq hkind hnames hlists]
    rw [hrequests] at hdistinct ⊢
    exact Candidate.foldlM_addTo_error hremain hdistinct (by simp)
      ((clashes_unique hkind).mpr ⟨a, hmem, hname⟩)
  | @contested hkind hnames hlists earlier later detector hsplit hearlier htargets hcontested =>
    have hrequests : c.requestsOf registry m =
        ((earlier.filter m.target.selects).map fun d =>
          ⟨⟨m.index, ⟨m.entry.name, some d.name⟩, .perDetector⟩, m.priority⟩) ++
        ⟨⟨m.index, ⟨m.entry.name, some detector.name⟩, .perDetector⟩, m.priority⟩ ::
        ((later.filter m.target.selects).map fun d =>
          ⟨⟨m.index, ⟨m.entry.name, some d.name⟩, .perDetector⟩, m.priority⟩) := by
      have hselects := (m.selects_target detector).mpr htargets
      simp [requestsOf, hkind, candidatesOf, hsplit, hselects, m.specificity_target]
    have hdistinct := requestsOf_distinct hdetectors registry m
    rw [addEntry_eq hkind hnames hlists]
    rw [hrequests] at hdistinct ⊢
    -- The requests for the detectors in front of the contested one do not clash.
    refine Candidate.foldlM_addTo_error hremain hdistinct (fun y hy => ?_) ?_
    · obtain ⟨d, hd, rfl⟩ := List.mem_map.mp hy
      obtain ⟨hmem, hselects⟩ := List.mem_filter.mp hd
      rw [clashes_perDetector hdetectors hkind (by simp [hsplit, hmem])]
      exact hearlier d hmem ((m.selects_target d).mp hselects)
    · exact (clashes_perDetector hdetectors hkind (by simp [hsplit])).mpr hcontested

theorem exists_first_failure {α : Type} {p : α → Prop} {items : List α} (h : ¬∀ x ∈ items, p x) :
    ∃ before x after, items = before ++ x :: after ∧ (∀ y ∈ before, p y) ∧ ¬p x := by
  induction items with
  | nil => exact absurd (by simp) h
  | cons first items ih =>
    by_cases hfirst : p first
    · have hrest : ¬∀ x ∈ items, p x := fun hall => h (by simpa [hfirst] using hall)
      obtain ⟨before, x, after, rfl, hbefore, hx⟩ := ih hrest
      exact ⟨first :: before, x, after, rfl, by simpa [hfirst] using hbefore, hx⟩
    · exact ⟨[], first, items, rfl, by simp, hfirst⟩

theorem accepted_or_refused (c : Configuration) (registry : Registry φ)
    (before : List ActiveModule) (m : ActiveModule) :
    Accepted c registry before m ∨ ∃ error, Refused c registry before m error := by
  cases hkind : registry.kind? m.entry.name with
  | none =>
    obtain ⟨cause, hresolve⟩ := kind_eq_none_iff.mp hkind
    exact .inr ⟨_, .module hresolve⟩
  | some kind =>
    have hmodule : (registry.kind? m.entry.name).isSome := by simp [hkind]
    by_cases hnames : c.KnowsNames m
    case neg =>
      obtain ⟨known, unknown, rest, hsplit, hknown, hunknown⟩ := exists_first_failure hnames
      exact .inr ⟨_, .names hmodule hsplit hknown hunknown⟩
    by_cases hlists : m.entry.names "name" = [] ∨ m.entry.names "type" = []
    case neg => exact .inr ⟨_, .lists hmodule hnames (not_or.mp hlists)⟩
    cases kind with
    | unique =>
      by_cases hsingle : ∀ a ∈ before, a.entry.name ≠ m.entry.name
      · exact .inl ⟨hmodule, hnames, hlists, fun _ => hsingle, by simp [hkind]⟩
      · obtain ⟨a, ha, hname⟩ : ∃ a ∈ before, a.entry.name = m.entry.name := by
          simpa using hsingle
        exact .inr ⟨_, .repeated hkind hnames hlists ha hname⟩
    | perDetector =>
      by_cases hfree : ∀ d ∈ c.detectors, m.Targets d → ¬Contested before m d
      · exact .inl ⟨hmodule, hnames, hlists, by simp [hkind], fun _ => hfree⟩
      · obtain ⟨earlier, detector, later, hsplit, hearlier, hfails⟩ := exists_first_failure hfree
        obtain ⟨htargets, hcontested⟩ : m.Targets detector ∧ Contested before m detector := by
          simpa using hfails
        exact .inr ⟨_, .contested hkind hnames hlists hsplit hearlier htargets hcontested⟩

theorem addEntry_eq_error_iff (hdetectors : (c.detectors.map Entry.name).Nodup)
    (hremain : Candidate.Remain (c.requests registry before) candidates) :
    c.addEntry registry candidates m = .error error ↔ Refused c registry before m error := by
  constructor
  · intro h
    rcases accepted_or_refused c registry before m with haccepted | ⟨cause, hrefused⟩
    · obtain ⟨next, hok, -⟩ := addEntry_ok hdetectors hremain haccepted
      rw [hok] at h
      cases h
    · have hcause := addEntry_error hdetectors hremain hrefused
      obtain rfl : cause = error := by simpa [hcause] using h
      exact hrefused
  · exact addEntry_error hdetectors hremain

/-! ## All entries -/

def AllAccepted (c : Configuration) (registry : Registry φ) (entries : List ActiveModule) : Prop :=
  ∀ before m after, entries = before ++ m :: after → Accepted c registry before m

theorem allAccepted_append_singleton :
    AllAccepted c registry (entries ++ [m]) ↔
      AllAccepted c registry entries ∧ Accepted c registry entries m := by
  constructor
  · intro h
    refine ⟨fun before a after hsplit => ?_, h entries m [] rfl⟩
    exact h before a (after ++ [m]) (by simp [hsplit])
  · rintro ⟨hall, hlast⟩ before a after hsplit
    rcases List.eq_nil_or_concat after with rfl | ⟨init, last, rfl⟩
    · obtain ⟨rfl, rfl⟩ : entries = before ∧ m = a := by simpa using hsplit
      exact hlast
    · apply hall before a init
      have hinit : entries ++ [m] = (before ++ a :: init) ++ [last] := by simpa using hsplit
      exact (List.append_inj' hinit rfl).1

theorem addEntries_ok (hdetectors : (c.detectors.map Entry.name).Nodup)
    (h : AllAccepted c registry entries) :
    ∃ candidates, entries.foldlM (c.addEntry registry) [] = .ok candidates ∧
      Candidate.Remain (c.requests registry entries) candidates := by
  induction entries using List.reverseRecOn with
  | nil => exact ⟨[], rfl, Candidate.remain_nil⟩
  | append_singleton entries m ih =>
    obtain ⟨hall, hlast⟩ := allAccepted_append_singleton.mp h
    obtain ⟨reached, hrun, hreached⟩ := ih hall
    obtain ⟨next, hstep, hnext⟩ := addEntry_ok hdetectors hreached hlast
    refine ⟨next, ?_, hnext⟩
    rw [List.foldlM_append, hrun]
    exact foldlM_cons_ok hstep []

theorem allAccepted_of_addEntries_ok (hdetectors : (c.detectors.map Entry.name).Nodup)
    (h : entries.foldlM (c.addEntry registry) [] = .ok candidates) :
    AllAccepted c registry entries := by
  induction entries using List.reverseRecOn generalizing candidates with
  | nil =>
    intro before m after hsplit
    simp at hsplit
  | append_singleton entries m ih =>
    rw [List.foldlM_append] at h
    cases hrun : entries.foldlM (c.addEntry registry) [] with
    | error cause =>
      rw [hrun] at h
      cases h
    | ok reached =>
      have hall := ih hrun
      obtain ⟨reached, hrun', hreached⟩ := addEntries_ok hdetectors hall
      rw [hrun'] at h
      refine allAccepted_append_singleton.mpr ⟨hall, ?_⟩
      rcases accepted_or_refused c registry entries m with haccepted | ⟨cause, hrefused⟩
      · exact haccepted
      · have hcause := addEntry_error hdetectors hreached hrefused
        have hlast := foldlM_cons_error hcause []
        exact absurd (hlast.symm.trans h) (by simp)

/-- The run over all entries fails with the error of the first entry that is refused. -/
theorem addEntries_eq_error_iff (hdetectors : (c.detectors.map Entry.name).Nodup) :
    entries.foldlM (c.addEntry registry) [] = .error error ↔
      ∃ before m after, entries = before ++ m :: after ∧ AllAccepted c registry before ∧
        Refused c registry before m error := by
  rw [foldlM_eq_error_iff]
  constructor
  · rintro ⟨before, m, after, reached, hsplit, hrun, hstep⟩
    have hall := allAccepted_of_addEntries_ok hdetectors hrun
    obtain ⟨reached', hrun', hreached⟩ := addEntries_ok hdetectors hall
    obtain rfl : reached = reached' := by simpa [hrun] using hrun'
    exact ⟨before, m, after, hsplit, hall, (addEntry_eq_error_iff hdetectors hreached).mp hstep⟩
  · rintro ⟨before, m, after, hsplit, hall, hrefused⟩
    obtain ⟨reached, hrun, hreached⟩ := addEntries_ok hdetectors hall
    exact ⟨before, m, after, reached, hsplit, hrun, addEntry_error hdetectors hreached hrefused⟩

end TestBeam.Configuration
