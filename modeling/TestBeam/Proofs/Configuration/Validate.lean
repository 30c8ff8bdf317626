import TestBeam.Proofs.Configuration.Sequence

/-!
# Validation

A configuration can run exactly if it is well formed. If an entry of the sequence is at fault, the error is
that of the first such entry.
-/

namespace TestBeam

/-! ## Counts -/

def Entry.IsCount (entry : Entry) (key : String) : Prop :=
  ∀ value, entry.get? key = some value → ∃ i : Int64, 0 ≤ i ∧
    (value = .integer i ∨
      ∃ text, value = .text text ∧ Decimal.readInt64 (Text.trimChars text.toList) = some i)

theorem Entry.integer_ok_iff {entry : Entry} {key : String} {value : Setting}
    (hget : entry.get? key = some value) (i : Int64) :
    entry.integer key = .ok i ↔ value = .integer i ∨
      ∃ text, value = .text text ∧ Decimal.readInt64 (Text.trimChars text.toList) = some i := by
  have hrequire : entry.require key = .ok value := by simp [Entry.require, hget]
  unfold Entry.integer
  rw [hrequire]
  cases value with
  | integer j =>
    change (Except.ok j : Except SettingError Int64) = .ok i ↔ _
    simp
  | text s =>
    cases hread : Decimal.readInt64 (Text.trimChars s.toList) with
    | none => simp [bind, Except.bind, Entry.refuse, hread]
    | some j => simp [bind, Except.bind, hread]
  | float x => simp [bind, Except.bind, Entry.refuse]
  | boolean b => simp [bind, Except.bind, Entry.refuse]
  | quantity q => simp [bind, Except.bind, Entry.refuse]

theorem Entry.countOr_ok_iff (entry : Entry) (key : String) (default : Nat) :
    (∃ n, entry.countOr key default = .ok n) ↔ entry.IsCount key := by
  cases hget : entry.get? key with
  | none => simp [Entry.countOr, Entry.has, hget, Entry.IsCount]
  | some value =>
    have hinteger := Entry.integer_ok_iff hget
    have hcount : entry.countOr key default = (entry.integer key).bind fun i =>
        if i < 0 then entry.refuse key (.integer i) "must not be negative" else .ok i.toInt.toNat := by
      simp [Entry.countOr, Entry.has, hget, bind]
    unfold Entry.IsCount
    simp only [hget, Option.some.injEq, forall_eq', ← hinteger]
    rw [hcount]
    cases entry.integer key with
    | error cause => simp [Except.bind]
    | ok i =>
      by_cases hneg : i < 0
      · simp [Except.bind, hneg, Entry.refuse, Int64.not_le]
      · simp [Except.bind, hneg, Int64.not_lt.mp hneg]

theorem readSettings_ok_iff (global : Entry) :
    (∃ settings, RunSettings.read global = .ok settings) ↔
      global.IsCount "number_of_events" ∧ global.IsCount "random_seed" := by
  rw [← Entry.countOr_ok_iff global _ 1, ← Entry.countOr_ok_iff global _ 42, RunSettings.read]
  cases global.countOr "number_of_events" 1 with
  | error cause => simp [bind, Except.bind]
  | ok events =>
    cases global.countOr "random_seed" 42 with
    | error cause => simp [bind, Except.bind]
    | ok seed => simp [bind, Except.bind, pure, Except.pure]

namespace Configuration

/-! ## Checks before the entries -/

/-- What has to hold before any entry of the sequence is checked. -/
structure Prepared (c : Configuration) : Prop where
  global : ∃ global, c.global = some global ∧
    global.IsCount "number_of_events" ∧ global.IsCount "random_seed"
  detectors : (c.detectors.map Entry.name).Nodup
  models : ∀ detector ∈ c.detectors, detector.has "type"
  active : c.active ≠ []

theorem checkDetectors_ok_iff (seen : List String) (detectors : List Entry) :
    checkDetectors seen detectors = .ok () ↔
      (detectors.map Entry.name).Nodup ∧ (∀ d ∈ detectors, d.name ∉ seen) ∧
        ∀ d ∈ detectors, d.has "type" := by
  induction detectors generalizing seen with
  | nil => simp [checkDetectors]
  | cons first detectors ih =>
    by_cases hseen : first.name ∈ seen
    · simp [checkDetectors, hseen, bind, Except.bind]
    cases hget : first.get? "type" with
    | none =>
      simp [checkDetectors, hseen, bind, Except.bind, Entry.text, Entry.require, hget, Except.map,
        Except.mapError, Entry.has]
    | some value =>
      have hstep : checkDetectors seen (first :: detectors) =
          checkDetectors (first.name :: seen) detectors := by
        simp [checkDetectors, hseen, bind, Except.bind, Entry.text, Entry.require, hget, Except.map,
          Except.mapError]
      have hhas : first.has "type" = true := by simp [Entry.has, hget]
      rw [hstep, ih]
      simp [hhas, hseen]
      grind

variable {φ : Type} {c : Configuration} {registry : Registry φ}

theorem plan_of_prepared (h : c.Prepared) (registry : Registry φ) :
    c.plan registry =
      (c.active.foldlM (c.addEntry registry) []).map (·.map Candidate.planned) := by
  obtain ⟨global, hglobal, hcounts⟩ := h.global
  obtain ⟨settings, hsettings⟩ := (readSettings_ok_iff global).mpr hcounts
  have hdetectors := (checkDetectors_ok_iff [] c.detectors).mpr ⟨h.detectors, by simp, h.models⟩
  have hactive : c.active.isEmpty = false := by simpa using h.active
  unfold plan requireGlobal
  simp only [hglobal, hsettings, hdetectors, hactive, bind, Except.bind,
    Except.mapError]
  cases c.active.foldlM (c.addEntry registry) [] <;> rfl

theorem prepared_of_plan {planned : List PlannedInstance} (h : c.plan registry = .ok planned) :
    c.Prepared := by
  unfold plan at h
  cases hglobal : c.global with
  | none => simp [requireGlobal, hglobal, bind, Except.bind] at h
  | some global =>
    cases hsettings : RunSettings.read global with
    | error cause =>
      simp [requireGlobal, hglobal, hsettings, bind, Except.bind, Except.mapError] at h
    | ok settings =>
      cases hdetectors : checkDetectors [] c.detectors with
      | error cause =>
        simp [requireGlobal, hglobal, hsettings, hdetectors, bind, Except.bind, Except.mapError] at h
      | ok done =>
        obtain ⟨hnames, -, hmodels⟩ := (checkDetectors_ok_iff [] c.detectors).mp hdetectors
        refine ⟨⟨global, hglobal, (readSettings_ok_iff global).mp ⟨settings, hsettings⟩⟩, hnames,
          hmodels, ?_⟩
        intro hactive
        simp [requireGlobal, hglobal, hsettings, hdetectors, hactive, bind, Except.bind,
          Except.mapError] at h

/-! ## Well-formed configurations -/

/-- What has to hold for a configuration to run with the modules of a registry. -/
structure WellFormed (c : Configuration) (registry : Registry φ) : Prop extends c.Prepared where
  modules : ∀ m ∈ c.active, (registry.kind? m.entry.name).isSome
  names : ∀ m ∈ c.active, ∀ name ∈ m.entry.names "name", name ∈ c.detectors.map Entry.name
  lists : ∀ m ∈ c.active, m.entry.names "name" = [] ∨ m.entry.names "type" = []
  /-- No two entries of a module with one instance. -/
  single : ∀ a ∈ c.active, ∀ b ∈ c.active, registry.kind? b.entry.name = some .unique →
    a.entry.name = b.entry.name → a = b
  /-- Equally specific entries of a module share a detector only below a more specific one. -/
  free : ∀ a ∈ c.active, ∀ b ∈ c.active, a.index < b.index →
    registry.kind? b.entry.name = some .perDetector → a.entry.name = b.entry.name →
    a.priority = b.priority → ∀ detector ∈ c.detectors, a.Targets detector → b.Targets detector →
      ∃ k ∈ c.active, k.index < b.index ∧ k.entry.name = b.entry.name ∧
        b.priority < k.priority ∧ k.Targets detector

/-- The first entry that fails a check fails it with this error. -/
def FirstRefused (c : Configuration) (registry : Registry φ) (error : ConfigurationError) : Prop :=
  ∃ before m after, c.active = before ++ m :: after ∧ AllAccepted c registry before ∧
    Refused c registry before m error

theorem mem_before_iff {before after : List ActiveModule} {m : ActiveModule}
    (hsplit : c.active = before ++ m :: after) (a : ActiveModule) :
    a ∈ before ↔ a ∈ c.active ∧ a.index < m.index := by
  have hascending := c.active_ascending
  rw [hsplit] at hascending ⊢
  obtain ⟨-, htail, hlt⟩ := List.pairwise_append.mp hascending
  constructor
  · intro ha
    exact ⟨List.mem_append_left _ ha, hlt a ha m (by simp)⟩
  · rintro ⟨ha, hindex⟩
    rcases List.mem_append.mp ha with ha | ha
    · exact ha
    rcases List.mem_cons.mp ha with rfl | ha
    · omega
    · have := (List.pairwise_cons.mp htail).1 a ha
      omega

theorem eq_of_index {a b : ActiveModule} (ha : a ∈ c.active) (hb : b ∈ c.active)
    (heq : a.index = b.index) : a = b := by
  have hget := (mem_active.mp ha).1
  rw [heq, (mem_active.mp hb).1] at hget
  obtain ⟨indexA, entryA⟩ := a
  obtain ⟨indexB, entryB⟩ := b
  simp_all

theorem WellFormed.allAccepted (h : c.WellFormed registry) : AllAccepted c registry c.active := by
  intro before m after hsplit
  have hm : m ∈ c.active := by simp [hsplit]
  have hbefore := mem_before_iff hsplit
  refine ⟨h.modules m hm, h.names m hm, h.lists m hm, ?_, ?_⟩
  · intro hkind a ha hname
    obtain ⟨hmem, hlt⟩ := (hbefore a).mp ha
    obtain rfl := h.single a hmem m hm hkind hname
    omega
  · rintro hkind d hd htargets ⟨⟨a, ha, hname, hatargets, hpriority⟩, hle⟩
    obtain ⟨hmem, hlt⟩ := (hbefore a).mp ha
    obtain ⟨k, hk, hklt, hkname, hkpriority, hktargets⟩ :=
      h.free a hmem m hm hlt hkind hname hpriority d hd hatargets htargets
    have := hle k ((hbefore k).mpr ⟨hk, hklt⟩) hkname hktargets
    omega

theorem wellFormed_iff :
    c.WellFormed registry ↔ c.Prepared ∧ AllAccepted c registry c.active := by
  constructor
  · intro h
    exact ⟨h.toPrepared, h.allAccepted⟩
  rintro ⟨hprepared, hall⟩
  -- The entries before one are those of lower index, so the order of the list can be left out.
  have haccepted (m : ActiveModule) (hm : m ∈ c.active) :
      ∃ before, (∀ a, a ∈ before ↔ a ∈ c.active ∧ a.index < m.index) ∧
        Accepted c registry before m := by
    obtain ⟨before, after, hsplit⟩ := List.append_of_mem hm
    exact ⟨before, mem_before_iff hsplit, hall before m after hsplit⟩
  have hsingle (a b : ActiveModule) (ha : a ∈ c.active) (hb : b ∈ c.active)
      (hkind : registry.kind? b.entry.name = some .unique) (hname : a.entry.name = b.entry.name) :
      ¬a.index < b.index := by
    intro hlt
    obtain ⟨before, hbefore, h⟩ := haccepted b hb
    exact h.single hkind a ((hbefore a).mpr ⟨ha, hlt⟩) hname
  refine ⟨hprepared, ?_, ?_, ?_, ?_, ?_⟩
  · intro m hm
    obtain ⟨_, -, h⟩ := haccepted m hm
    exact h.module
  · intro m hm
    obtain ⟨_, -, h⟩ := haccepted m hm
    exact h.names
  · intro m hm
    obtain ⟨_, -, h⟩ := haccepted m hm
    exact h.lists
  · intro a ha b hb hkind hname
    have hab := hsingle a b ha hb hkind hname
    have hba := hsingle b a hb ha (hname ▸ hkind) hname.symm
    exact eq_of_index ha hb (by omega)
  · intro a ha b hb hlt hkind hname hpriority d hd hatargets hbtargets
    obtain ⟨before, hbefore, h⟩ := haccepted b hb
    have hfree := h.free hkind d hd hbtargets
    by_contra hnone
    refine hfree ⟨⟨a, (hbefore a).mpr ⟨ha, hlt⟩, hname, hatargets, hpriority⟩, ?_⟩
    intro k hk hkname hktargets
    obtain ⟨hkmem, hklt⟩ := (hbefore k).mp hk
    by_contra hgt
    exact hnone ⟨k, hkmem, hklt, hkname, by omega, hktargets⟩

theorem plan_ok_iff_wellFormed :
    (∃ planned, c.plan registry = .ok planned) ↔ c.WellFormed registry := by
  rw [wellFormed_iff]
  constructor
  · rintro ⟨planned, h⟩
    have hprepared := prepared_of_plan h
    rw [plan_of_prepared hprepared] at h
    refine ⟨hprepared, ?_⟩
    cases hrun : c.active.foldlM (c.addEntry registry) [] with
    | error cause =>
      rw [hrun] at h
      cases h
    | ok candidates => exact allAccepted_of_addEntries_ok hprepared.detectors hrun
  · rintro ⟨hprepared, hall⟩
    obtain ⟨candidates, hrun, -⟩ := addEntries_ok hprepared.detectors hall
    exact ⟨_, by rw [plan_of_prepared hprepared, hrun]; rfl⟩

theorem plan_error_iff_firstRefused (h : c.Prepared) (error : ConfigurationError) :
    c.plan registry = .error error ↔ c.FirstRefused registry error := by
  rw [plan_of_prepared h, FirstRefused, ← addEntries_eq_error_iff h.detectors]
  cases c.active.foldlM (c.addEntry registry) [] <;> simp [Except.map]

theorem validate_ok_iff_plan :
    c.validate registry = .ok () ↔ ∃ planned, c.plan registry = .ok planned := by
  unfold validate
  cases c.plan registry <;> simp [Except.map]

theorem validate_error_iff_plan (error : ConfigurationError) :
    c.validate registry = .error error ↔ c.plan registry = .error error := by
  unfold validate
  cases c.plan registry <;> simp [Except.map]

/--
Exactly the well-formed configurations are accepted. Where the checks before the entries pass, the error
is that of the first entry that fails a check.
-/
theorem validate_accepts_wellFormed (c : Configuration) (registry : Registry φ) :
    (c.validate registry = .ok () ↔ c.WellFormed registry) ∧
      ((∃ planned, c.plan registry = .ok planned) ↔ c.WellFormed registry) ∧
      ∀ error, (c.validate registry = .error error ↔ c.plan registry = .error error) ∧
        (c.Prepared ∧ c.validate registry = .error error ↔
          c.Prepared ∧ c.FirstRefused registry error) := by
  refine ⟨validate_ok_iff_plan.trans plan_ok_iff_wellFormed, plan_ok_iff_wellFormed, ?_⟩
  intro error
  refine ⟨validate_error_iff_plan error, and_congr_right fun hprepared => ?_⟩
  exact (validate_error_iff_plan error).trans (plan_error_iff_firstRefused hprepared error)

end Configuration

end TestBeam
