import TestBeam.Proofs.Configuration.Validate

/-!
# Duplicates and the order of entries

Two equally specific entries of a module may claim one detector. If a more specific entry of the module claims
it as well, they are a duplicate only as long as that entry does not stand in front of the second of them. So
the order of the entries decides whether a configuration is accepted exactly if it has such duplicates and
nothing else is wrong with it.
-/

namespace TestBeam

def Entry.priority (entry : Entry) : Nat :=
  Configuration.ActiveModule.priority ⟨0, entry⟩

namespace Configuration

variable {φ : Type} {c : Configuration} {registry : Registry φ} {others : List Entry}

instance (m : ActiveModule) (detector : Entry) : Decidable (m.Targets detector) :=
  decidable_of_iff _ (m.selects_target detector)

/-! ## Entries without their positions -/

def activeEntries (c : Configuration) : List Entry :=
  c.modules.filter (·.name ∉ c.ignored)

theorem map_entry_active (c : Configuration) :
    c.active.map ActiveModule.entry = c.activeEntries := by
  unfold active activeEntries
  have hzip : c.modules.zipIdx.map (fun p => (⟨p.2, p.1⟩ : ActiveModule).entry) = c.modules :=
    List.zipIdx_map_fst 0 c.modules
  conv_rhs => rw [← hzip]
  rw [List.filter_map, List.map_map, List.filter_map]
  rfl

theorem activeEntries_perm (h : c.modules.Perm others) :
    c.activeEntries.Perm (c.setModules others).activeEntries :=
  h.filter _

theorem mem_activeEntries {entry : Entry} :
    entry ∈ c.activeEntries ↔ ∃ m ∈ c.active, m.entry = entry := by
  rw [← map_entry_active, List.mem_map]

theorem forall_active_iff {p : Entry → Prop} :
    (∀ m ∈ c.active, p m.entry) ↔ ∀ entry ∈ c.activeEntries, p entry := by
  rw [← map_entry_active, List.forall_mem_map]

theorem pairwise_activeEntries_iff {r : Entry → Entry → Prop} :
    c.activeEntries.Pairwise r ↔
      ∀ a ∈ c.active, ∀ b ∈ c.active, a.index < b.index → r a.entry b.entry := by
  rw [← map_entry_active, List.pairwise_map]
  constructor
  · intro h a ha b hb hlt
    obtain ⟨before, after, hsplit⟩ := List.append_of_mem hb
    rw [hsplit] at h
    exact (List.pairwise_append.mp h).2.2 a ((mem_before_iff hsplit a).mpr ⟨ha, hlt⟩) b (by simp)
  · intro h
    refine c.active_ascending.imp_of_mem fun {a b} ha hb hlt => h a ha b hb hlt

/-! ## Claims -/

def Claims (name : String) (priority : Nat) (detector entry : Entry) : Prop :=
  entry.name = name ∧ entry.priority = priority ∧ ActiveModule.Targets ⟨0, entry⟩ detector

instance (name : String) (priority : Nat) (detector entry : Entry) :
    Decidable (Claims name priority detector entry) :=
  inferInstanceAs (Decidable (_ ∧ _ ∧ _))

/-- How many entries of a module claim a detector with a priority. -/
def claims (c : Configuration) (name : String) (priority : Nat) (detector : Entry) : Nat :=
  c.activeEntries.countP (Claims name priority detector)

theorem claims_setModules (h : c.modules.Perm others) (name : String) (priority : Nat)
    (detector : Entry) :
    (c.setModules others).claims name priority detector = c.claims name priority detector :=
  ((activeEntries_perm h).countP_eq _).symm

theorem claims_pos_iff {name : String} {priority : Nat} {detector : Entry} :
    0 < c.claims name priority detector ↔
      ∃ k ∈ c.active, k.entry.name = name ∧ k.priority = priority ∧ k.Targets detector := by
  unfold claims
  rw [List.countP_pos_iff]
  constructor
  · rintro ⟨entry, hentry, hclaims⟩
    obtain ⟨k, hk, rfl⟩ := mem_activeEntries.mp hentry
    exact ⟨k, hk, of_decide_eq_true hclaims⟩
  · rintro ⟨k, hk, hclaims⟩
    exact ⟨k.entry, mem_activeEntries.mpr ⟨k, hk, rfl⟩, decide_eq_true hclaims⟩

theorem two_le_countP_iff {α : Type} {p : α → Bool} {l : List α} :
    2 ≤ l.countP p ↔ ¬l.Pairwise fun a b => ¬(p a = true ∧ p b = true) := by
  induction l with
  | nil => simp
  | cons x l ih =>
    rw [List.countP_cons, List.pairwise_cons, not_and_or, ← ih]
    by_cases hx : p x = true
    · have hpos : 0 < l.countP p ↔ ¬∀ y ∈ l, ¬(p x = true ∧ p y = true) := by
        rw [List.countP_pos_iff]
        simp [hx]
      rw [← hpos, if_pos hx]
      omega
    · simp [hx]

theorem two_le_claims_iff {name : String} {priority : Nat} {detector : Entry} :
    2 ≤ c.claims name priority detector ↔
      ∃ a ∈ c.active, ∃ b ∈ c.active, a.index < b.index ∧
        (a.entry.name = name ∧ a.priority = priority ∧ a.Targets detector) ∧
        b.entry.name = name ∧ b.priority = priority ∧ b.Targets detector := by
  unfold claims
  rw [two_le_countP_iff, pairwise_activeEntries_iff]
  simp only [decide_eq_true_eq, not_forall, not_not, exists_prop]
  rfl

/-! ## Duplicates -/

/-- At least two entries of a module with one instance for each detector claim it equally specifically. -/
structure Doubled (c : Configuration) (registry : Registry φ) (name : String) (priority : Nat)
    (detector : Entry) : Prop where
  kind : registry.kind? name = some .perDetector
  known : detector ∈ c.detectors
  twice : 2 ≤ c.claims name priority detector

def Overridden (c : Configuration) (name : String) (priority : Nat) (detector : Entry) : Prop :=
  ∃ higher, priority < higher ∧ 0 < c.claims name higher detector

/-- Two entries of the module are a duplicate in every order. -/
def HasDuplicate (c : Configuration) (registry : Registry φ) : Prop :=
  ∃ name priority detector, Doubled c registry name priority detector ∧
    ¬c.Overridden name priority detector

/-- Two entries of the module are a duplicate in some orders only. -/
def HasShadowed (c : Configuration) (registry : Registry φ) : Prop :=
  ∃ name priority detector, Doubled c registry name priority detector ∧
    c.Overridden name priority detector

section Reordered

variable (hperm : c.modules.Perm others) (name : String) (priority : Nat) (detector : Entry)
include hperm

theorem doubled_setModules :
    Doubled (c.setModules others) registry name priority detector ↔
      Doubled c registry name priority detector := by
  constructor
  · rintro ⟨hkind, hknown, htwice⟩
    exact ⟨hkind, hknown, claims_setModules hperm .. ▸ htwice⟩
  · rintro ⟨hkind, hknown, htwice⟩
    exact ⟨hkind, hknown, claims_setModules hperm .. ▸ htwice⟩

theorem overridden_setModules :
    (c.setModules others).Overridden name priority detector ↔
      c.Overridden name priority detector := by
  unfold Overridden
  simp only [claims_setModules hperm]

omit name priority detector in
theorem hasDuplicate_setModules :
    (c.setModules others).HasDuplicate registry ↔ c.HasDuplicate registry := by
  unfold HasDuplicate
  simp only [doubled_setModules hperm, overridden_setModules hperm]

omit name priority detector in
theorem hasShadowed_setModules :
    (c.setModules others).HasShadowed registry ↔ c.HasShadowed registry := by
  unfold HasShadowed
  simp only [doubled_setModules hperm, overridden_setModules hperm]

end Reordered

/-! ## Checks that do not look at the order -/

/-- Everything that is demanded of a configuration but for the detectors that its entries claim twice. -/
structure Admissible (c : Configuration) (registry : Registry φ) : Prop extends c.Prepared where
  modules : ∀ entry ∈ c.activeEntries, (registry.kind? entry.name).isSome
  names : ∀ entry ∈ c.activeEntries, ∀ name ∈ entry.names "name", name ∈ c.detectors.map Entry.name
  lists : ∀ entry ∈ c.activeEntries, entry.names "name" = [] ∨ entry.names "type" = []
  single : c.activeEntries.Pairwise fun a b =>
    ¬(registry.kind? b.name = some .unique ∧ a.name = b.name)

theorem Prepared.setModules (h : c.Prepared) (hperm : c.modules.Perm others) :
    (c.setModules others).Prepared where
  global := h.global
  detectors := h.detectors
  models := h.models
  active := by
    intro hnil
    have hempty : c.activeEntries = [] := by
      refine List.Perm.eq_nil (l := c.activeEntries) ?_
      rw [← List.map_nil (f := ActiveModule.entry), ← hnil, map_entry_active]
      exact activeEntries_perm hperm
    rw [← map_entry_active, List.map_eq_nil_iff] at hempty
    exact h.active hempty

theorem Admissible.setModules (h : c.Admissible registry) (hperm : c.modules.Perm others) :
    (c.setModules others).Admissible registry := by
  have hentries := activeEntries_perm hperm
  refine ⟨h.toPrepared.setModules hperm, ?_, ?_, ?_, ?_⟩
  · exact fun entry hentry => h.modules entry (hentries.mem_iff.mpr hentry)
  · exact fun entry hentry => h.names entry (hentries.mem_iff.mpr hentry)
  · exact fun entry hentry => h.lists entry (hentries.mem_iff.mpr hentry)
  · refine (hentries.pairwise_iff ?_).mp h.single
    rintro a b hab ⟨hkind, hname⟩
    exact hab ⟨hname ▸ hkind, hname.symm⟩

/-- The only check that looks at the order is whether a second claim stands behind a more specific one. -/
theorem wellFormed_iff_admissible :
    c.WellFormed registry ↔ c.Admissible registry ∧
      ∀ name priority detector, Doubled c registry name priority detector →
        ∀ a ∈ c.active, ∀ b ∈ c.active, a.index < b.index →
          (a.entry.name = name ∧ a.priority = priority ∧ a.Targets detector) →
          (b.entry.name = name ∧ b.priority = priority ∧ b.Targets detector) →
          ∃ k ∈ c.active, k.index < b.index ∧ k.entry.name = name ∧ priority < k.priority ∧
            k.Targets detector := by
  constructor
  · intro h
    refine ⟨⟨h.toPrepared, forall_active_iff.mp h.modules, forall_active_iff.mp h.names,
      forall_active_iff.mp h.lists, pairwise_activeEntries_iff.mpr ?_⟩, ?_⟩
    · rintro a ha b hb hlt ⟨hkind, hname⟩
      obtain rfl := h.single a ha b hb hkind hname
      omega
    · rintro name priority detector ⟨hkind, hknown, -⟩ a ha b hb hlt ⟨hname, hpriority, hatargets⟩
        ⟨rfl, rfl, hbtargets⟩
      exact h.free a ha b hb hlt hkind hname hpriority detector hknown hatargets hbtargets
  · rintro ⟨h, hfree⟩
    have hsingle := pairwise_activeEntries_iff.mp h.single
    refine ⟨h.toPrepared, forall_active_iff.mpr h.modules, forall_active_iff.mpr h.names,
      forall_active_iff.mpr h.lists, ?_, ?_⟩
    · intro a ha b hb hkind hname
      have hab : ¬a.index < b.index := fun hlt => hsingle a ha b hb hlt ⟨hkind, hname⟩
      have hba : ¬b.index < a.index := fun hlt =>
        hsingle b hb a ha hlt ⟨hname ▸ hkind, hname.symm⟩
      exact eq_of_index ha hb (by omega)
    · intro a ha b hb hlt hkind hname hpriority detector hknown hatargets hbtargets
      -- Two entries with the same claim make it a doubled one.
      have htwice := two_le_claims_iff.mpr ⟨a, ha, b, hb, hlt, ⟨hname, hpriority, hatargets⟩,
        rfl, rfl, hbtargets⟩
      exact hfree b.entry.name b.priority detector ⟨hkind, hknown, htwice⟩ a ha b hb hlt
        ⟨hname, hpriority, hatargets⟩ ⟨rfl, rfl, hbtargets⟩

/-! ## Orders -/

theorem WellFormed.not_hasDuplicate (h : c.WellFormed registry) : ¬c.HasDuplicate registry := by
  rintro ⟨name, priority, detector, hdoubled, hnot⟩
  obtain ⟨a, ha, b, hb, hlt, hclaims, hclaims'⟩ := two_le_claims_iff.mp hdoubled.twice
  obtain ⟨k, hk, -, hname, hpriority, htargets⟩ :=
    (wellFormed_iff_admissible.mp h).2 name priority detector hdoubled a ha b hb hlt hclaims hclaims'
  exact hnot ⟨k.priority, hpriority, claims_pos_iff.mpr ⟨k, hk, hname, rfl, htargets⟩⟩

theorem wellFormed_iff_of_not_hasShadowed (h : ¬c.HasShadowed registry) :
    c.WellFormed registry ↔ c.Admissible registry ∧ ¬c.HasDuplicate registry := by
  constructor
  · intro hformed
    exact ⟨(wellFormed_iff_admissible.mp hformed).1, hformed.not_hasDuplicate⟩
  · rintro ⟨hadmissible, hnone⟩
    refine wellFormed_iff_admissible.mpr ⟨hadmissible, ?_⟩
    intro name priority detector hdoubled
    by_cases hoverridden : c.Overridden name priority detector
    · exact absurd ⟨name, priority, detector, hdoubled, hoverridden⟩ h
    · exact absurd ⟨name, priority, detector, hdoubled, hoverridden⟩ hnone

/-- The more specific entries come first. -/
def Descending (c : Configuration) : Prop :=
  c.activeEntries.Pairwise fun a b => b.priority ≤ a.priority

/-- The more specific entries come last. -/
def Ascending (c : Configuration) : Prop :=
  c.activeEntries.Pairwise fun a b => a.priority ≤ b.priority

/-- With the more specific entries in front, only what is a duplicate in every order is refused. -/
theorem Descending.wellFormed (hdescending : c.Descending) (hadmissible : c.Admissible registry)
    (hnone : ¬c.HasDuplicate registry) : c.WellFormed registry := by
  refine wellFormed_iff_admissible.mpr ⟨hadmissible, ?_⟩
  rintro name priority detector hdoubled a ha b hb hlt - ⟨hname, hpriority, htargets⟩
  by_cases hoverridden : c.Overridden name priority detector
  · obtain ⟨higher, hhigher, hpos⟩ := hoverridden
    obtain ⟨k, hk, hkname, rfl, hktargets⟩ := claims_pos_iff.mp hpos
    refine ⟨k, hk, ?_, hkname, hhigher, hktargets⟩
    by_contra hge
    rcases Nat.lt_or_eq_of_le (Nat.le_of_not_lt hge) with hbehind | heq
    · have hle : k.priority ≤ b.priority :=
        pairwise_activeEntries_iff.mp hdescending b hb k hk hbehind
      omega
    · obtain rfl := eq_of_index hb hk heq
      omega
  · exact absurd ⟨name, priority, detector, hdoubled, hoverridden⟩ hnone

/-- With the more specific entries behind, whatever is shadowed is refused. -/
theorem Ascending.not_wellFormed (hascending : c.Ascending) (h : c.HasShadowed registry) :
    ¬c.WellFormed registry := by
  intro hformed
  obtain ⟨name, priority, detector, hdoubled, -⟩ := h
  obtain ⟨a, ha, b, hb, hlt, hclaims, hclaims'⟩ := two_le_claims_iff.mp hdoubled.twice
  obtain ⟨k, hk, hbefore, -, hpriority, -⟩ := (wellFormed_iff_admissible.mp hformed).2 name priority
    detector hdoubled a ha b hb hlt hclaims hclaims'
  have hle : k.priority ≤ b.priority := pairwise_activeEntries_iff.mp hascending k hk b hb hbefore
  obtain ⟨-, rfl, -⟩ := hclaims'
  omega

theorem exists_sorted (c : Configuration) {r : Entry → Entry → Prop} [DecidableRel r]
    (htrans : ∀ x y z, r x y → r y z → r x z) (htotal : ∀ x y, r x y ∨ r y x) :
    ∃ others, c.modules.Perm others ∧ (c.setModules others).activeEntries.Pairwise r := by
  refine ⟨c.modules.mergeSort fun x y => decide (r x y), (List.mergeSort_perm _ _).symm, ?_⟩
  have hsorted : (c.modules.mergeSort fun x y => decide (r x y)).Pairwise
      fun x y => decide (r x y) = true :=
    List.pairwise_mergeSort (fun x y z => by simpa using htrans x y z)
      (fun x y => by simpa using htotal x y) c.modules
  exact List.Pairwise.filter _ (hsorted.imp of_decide_eq_true)

theorem exists_descending (c : Configuration) :
    ∃ others, c.modules.Perm others ∧ (c.setModules others).Descending :=
  c.exists_sorted (fun _ _ _ hxy hyz => Nat.le_trans hyz hxy) fun _ _ => Nat.le_total _ _

theorem exists_ascending (c : Configuration) :
    ∃ others, c.modules.Perm others ∧ (c.setModules others).Ascending :=
  c.exists_sorted (fun _ _ _ => Nat.le_trans) fun _ _ => Nat.le_total _ _

/-! ## Acceptance -/

/--
Every order of the entries has a plan or none has, unless the configuration is admissible, claims some detector
twice below a more specific entry, and claims none twice without one. In that case the order decides.
-/
theorem plan_order_irrelevant_iff (c : Configuration) (registry : Registry φ) :
    (∀ others, c.modules.Perm others →
      ((∃ planned, (c.setModules others).plan registry = .ok planned) ↔
        ∃ planned, c.plan registry = .ok planned)) ↔
      (c.Admissible registry → c.HasShadowed registry → c.HasDuplicate registry) := by
  simp only [plan_ok_iff_wellFormed]
  constructor
  · intro hfree hadmissible hshadowed
    by_contra hnone
    obtain ⟨descending, hperm, hdescending⟩ := c.exists_descending
    obtain ⟨ascending, hperm', hascending⟩ := c.exists_ascending
    have haccepted := hdescending.wellFormed (hadmissible.setModules hperm)
      (mt (hasDuplicate_setModules hperm).mp hnone)
    have hrefused := hascending.not_wellFormed ((hasShadowed_setModules hperm').mpr hshadowed)
    exact hrefused ((hfree ascending hperm').mpr ((hfree descending hperm).mp haccepted))
  · intro h others hperm
    have hduplicate : (c.setModules others).HasDuplicate registry ↔ c.HasDuplicate registry :=
      hasDuplicate_setModules hperm
    have hadmissible : (c.setModules others).Admissible registry ↔ c.Admissible registry := by
      constructor
      · intro hformed
        have hback := hformed.setModules hperm.symm
        exact hback
      · exact fun hformed => hformed.setModules hperm
    by_cases hshadowed : c.HasShadowed registry
    · by_cases hrest : c.Admissible registry
      · have hnot := h hrest hshadowed
        exact iff_of_false (fun hformed => hformed.not_hasDuplicate (hduplicate.mpr hnot))
          fun hformed => hformed.not_hasDuplicate hnot
      · exact iff_of_false
          (fun hformed => hrest (hadmissible.mp (wellFormed_iff_admissible.mp hformed).1))
          fun hformed => hrest (wellFormed_iff_admissible.mp hformed).1
    · rw [wellFormed_iff_of_not_hasShadowed hshadowed,
        wellFormed_iff_of_not_hasShadowed (mt (hasShadowed_setModules hperm).mp hshadowed),
        hadmissible, hduplicate]

/-! ## Three entries for one detector -/

def shadowing : Configuration where
  global := some (.empty "run")
  modules := [.ofPairs "Charge" [("name", .text "dut")], .empty "Charge", .empty "Charge"]
  detectors := [.ofPairs "dut" [("type", .text "strip")]]

def chargeRegistry : Registry Unit :=
  .ofList [("Charge", .perDetector, ())]

/-- Two entries for all detectors are accepted behind the one that names the detector, but not before it. -/
theorem plan_depends_on_order :
    shadowing.modules.Perm shadowing.modules.reverse ∧
      shadowing.plan chargeRegistry =
        .ok [⟨0, ⟨"Charge", some "dut"⟩, .perDetector⟩] ∧
      (shadowing.setModules shadowing.modules.reverse).plan chargeRegistry =
        .error (.duplicateModule 1 ⟨"Charge", some "dut"⟩) := by
  refine ⟨(List.reverse_perm _).symm, ?_, ?_⟩
  · decide +kernel
  · decide +kernel

end Configuration

end TestBeam
