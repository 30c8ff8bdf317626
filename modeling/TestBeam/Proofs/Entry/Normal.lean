import TestBeam.Proofs.Configuration.Built
import TestBeam.Proofs.Setting.Normalized

/-!
# Normal entries

An entry that was built has each key once and stores settings in normalized form. Such an entry is built
again from its own pairs.
-/

namespace TestBeam.Entry

/-- Each key occurs once, and each setting is in normalized form. -/
structure Normal (entry : Entry) : Prop where
  keys : (entry.settings.map Prod.fst).Nodup
  settings : ∀ p ∈ entry.settings, p.2.normalized = p.2

variable {entry : Entry} {key : String} {value : Setting} {pairs : List (String × Setting)}

/-! ## Assignments -/

theorem keys_assign_of_mem (h : key ∈ pairs.map Prod.fst) (value : Setting) :
    (assign key value pairs).map Prod.fst = pairs.map Prod.fst := by
  induction pairs with
  | nil => simp at h
  | cons p pairs ih =>
    unfold assign
    split
    · rfl
    · rename_i hne
      rw [List.map_cons, List.mem_cons] at h
      rw [List.map_cons, List.map_cons, ih (h.resolve_left (Ne.symm hne))]

theorem assign_of_not_mem (h : key ∉ pairs.map Prod.fst) (value : Setting) :
    assign key value pairs = pairs ++ [(key, value)] := by
  induction pairs with
  | nil => rfl
  | cons p pairs ih =>
    rw [List.map_cons, List.mem_cons, not_or] at h
    unfold assign
    rw [if_neg (Ne.symm h.1), ih h.2]
    rfl

theorem mem_assign {p : String × Setting} (h : p ∈ assign key value pairs) :
    p ∈ pairs ∨ p.2 = value := by
  induction pairs with
  | nil =>
    obtain rfl : p = (key, value) := by simpa [assign] using h
    exact .inr rfl
  | cons q pairs ih =>
    unfold assign at h
    split at h
    · rcases List.mem_cons.mp h with rfl | h
      · exact .inr rfl
      · exact .inl (by simp [h])
    · rcases List.mem_cons.mp h with rfl | h
      · exact .inl (by simp)
      · exact (ih h).imp (List.mem_cons_of_mem q) id

/-! ## Entries -/

theorem normal_empty (name : String) : (empty name).Normal :=
  ⟨List.nodup_nil, by simp [empty]⟩

theorem Normal.set (h : entry.Normal) (key : String) (value : Setting) :
    (entry.set key value).Normal := by
  refine ⟨?_, fun p hp => ?_⟩
  · change ((assign key value.normalized entry.settings).map Prod.fst).Nodup
    by_cases hkey : key ∈ entry.settings.map Prod.fst
    · rw [keys_assign_of_mem hkey]
      exact h.keys
    · rw [assign_of_not_mem hkey, List.map_append, List.nodup_append]
      refine ⟨h.keys, List.nodup_singleton _, fun a ha b hb => ?_⟩
      obtain rfl : b = key := by simpa using hb
      exact fun heq => hkey (heq ▸ ha)
  · rcases mem_assign hp with hp | hp
    · exact h.settings p hp
    · rw [hp]
      exact value.normalized_normalized

theorem normal_ofPairs (name : String) (pairs : List (String × Setting)) :
    (ofPairs name pairs).Normal := by
  unfold ofPairs
  suffices hall : ∀ entry : Entry, entry.Normal →
      (pairs.foldl (fun entry p => entry.set p.1 p.2) entry).Normal from
    hall (empty name) (normal_empty name)
  induction pairs with
  | nil => exact fun entry h => h
  | cons p pairs ih => exact fun entry h => ih (entry.set p.1 p.2) (h.set p.1 p.2)

theorem Built.normal (h : entry.Built) : entry.Normal := by
  induction h with
  | empty name => exact normal_empty name
  | ofPairs name pairs => exact normal_ofPairs name pairs
  | set h key value ih => exact ih.set key value

theorem Normal.ofPairs_settings (h : entry.Normal) : ofPairs entry.name entry.settings = entry := by
  suffices hall : ∀ pairs more : List (String × Setting),
      ((pairs ++ more).map Prod.fst).Nodup → (∀ p ∈ more, p.2.normalized = p.2) →
      more.foldl (fun (entry : Entry) p => entry.set p.1 p.2) ⟨entry.name, pairs⟩ =
        (⟨entry.name, pairs ++ more⟩ : Entry) from
    hall [] entry.settings h.keys h.settings
  intro pairs more hkeys hnormal
  induction more generalizing pairs with
  | nil => simp
  | cons p more ih =>
    have hnew : p.1 ∉ pairs.map Prod.fst := by
      rw [List.map_append, List.nodup_append] at hkeys
      exact fun hmem => hkeys.2.2 p.1 hmem p.1 (by simp) rfl
    have hset : (⟨entry.name, pairs⟩ : Entry).set p.1 p.2 = ⟨entry.name, pairs ++ [p]⟩ := by
      unfold Entry.set
      rw [hnormal p (by simp), assign_of_not_mem hnew]
    rw [List.foldl_cons, hset, List.append_cons pairs p more]
    exact ih (pairs ++ [p]) (by rwa [← List.append_cons]) fun q hq => hnormal q (by simp [hq])

theorem beq_self_of_forall {α : Type} [BEq α] {items : List α} (h : ∀ x ∈ items, (x == x) = true) :
    (items == items) = true := by
  induction items with
  | nil => rfl
  | cons x items ih =>
    rw [List.cons_beq_cons, h x (by simp), ih fun y hy => h y (by simp [hy])]
    rfl

theorem Normal.beq_self (h : entry.Normal) : (entry == entry) = true := by
  have hsettings : (entry.settings == entry.settings) = true := by
    apply beq_self_of_forall
    intro p hp
    have hvalue := Setting.beq_self_of_normalized (h.settings p hp)
    change (p.1 == p.1 && p.2 == p.2) = true
    rw [hvalue, beq_self_eq_true]
    rfl
  change (entry.name == entry.name && entry.settings == entry.settings) = true
  rw [hsettings, beq_self_eq_true]
  rfl

end TestBeam.Entry
