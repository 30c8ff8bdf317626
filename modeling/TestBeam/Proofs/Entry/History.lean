import Mathlib.Data.Finset.Card
import TestBeam.Proofs.Entry.Written

/-!
# What an entry keeps of its settings

An entry is given settings one after another, some of them by overrides. It keeps each key where it first
came, with the normalized form of the value that came last, and every value it keeps is stable.
-/

namespace TestBeam

/-! ## Stable settings -/

namespace Setting

/-- The setting is read back from its own text, and normalizing it again changes nothing. -/
structure Stable (v : Setting) : Prop where
  normalized : v.normalized = v
  equal : (v.normalized == v) = true
  finite : ∀ x, v = .float x → x.isFinite = true
  unit : ∀ q, v = .quantity q → q.unit.isSome = true
  text : ∀ s, v = .text s → ofText v.display = v
  quantity : ∀ q, v = .quantity q → ofText v.display = v

theorem unit_of_normalized {q : Quantity} (h : (quantity q).normalized = quantity q) :
    q.unit.isSome = true := by
  unfold Setting.normalized at h
  simp only [ofText] at h
  split at h
  · rename_i p hp
    obtain rfl := Setting.quantity.inj h
    exact (Quantity.parse_of_withUnit hp).2
  · cases h

theorem stable_iff {v : Setting} : v.Stable ↔ v.normalized = v := by
  refine ⟨Stable.normalized, fun h => ⟨h, ?_, ?_, ?_, ?_, ?_⟩⟩
  · rw [h]
    exact beq_self_of_normalized h
  · rintro x rfl
    exact isFinite_of_normalized h
  · rintro q rfl
    exact unit_of_normalized h
  · rintro s rfl
    exact h
  · rintro q rfl
    exact h

theorem stable_normalized (v : Setting) : v.normalized.Stable :=
  stable_iff.mpr v.normalized_normalized

end Setting

namespace Entry

/-! ## Histories -/

/-- The settings that an entry was given, one after another. -/
inductive Given : List (String × Setting) → Entry → Prop where
  | empty (name : String) : Given [] (.empty name)
  | ofPairs (name : String) (pairs : List (String × Setting)) : Given pairs (.ofPairs name pairs)
  | set {pairs : List (String × Setting)} {entry : Entry} (h : Given pairs entry) (key : String)
      (value : Setting) : Given (pairs ++ [(key, value)]) (entry.set key value)
  | override {pairs : List (String × Setting)} {entry : Entry} (h : Given pairs entry)
      {option : String} {change : Override} (hparse : Override.parse option = .ok change) :
      Given (pairs ++ [(change.key, change.value)]) (entry.set change.key change.value)

/-- Keys in the order in which they first came, each with the last value that it was given. -/
structure Keeps (pairs : List (String × Setting)) (entry : Entry) : Prop where
  keys : entry.settings.map Prod.fst = (pairs.map Prod.fst).eraseDups
  distinct : (entry.settings.map Prod.fst).Nodup
  get : ∀ key, entry.get? key = (pairs.reverse.lookup key).map Setting.normalized
  size : entry.size = (pairs.map Prod.fst).toFinset.card
  stored : ∀ p ∈ entry.settings, entry.get? p.1 = some p.2 ∧ p.2.Stable

variable {entry : Entry} {pairs : List (String × Setting)}

theorem ofPairs_append (name : String) (pairs : List (String × Setting)) (key : String)
    (value : Setting) :
    ofPairs name (pairs ++ [(key, value)]) = (ofPairs name pairs).set key value := by
  unfold ofPairs
  rw [List.foldl_append, List.foldl_cons, List.foldl_nil]

/-- However it was built, an entry is the one that is built from all it was given. -/
theorem Given.eq_ofPairs (h : Given pairs entry) : entry = Entry.ofPairs entry.name pairs := by
  induction h with
  | empty name => rfl
  | ofPairs name pairs => rw [ofPairs_name]
  | set h key value ih =>
    rw [ofPairs_append]
    exact congrArg (·.set key value) ih
  | @override _ _ h _ change hparse ih =>
    rw [ofPairs_append]
    exact congrArg (·.set change.key change.value) ih

theorem Built.exists_given (h : entry.Built) : ∃ pairs, Given pairs entry := by
  induction h with
  | empty name => exact ⟨[], .empty name⟩
  | ofPairs name pairs => exact ⟨pairs, .ofPairs name pairs⟩
  | set h key value ih =>
    obtain ⟨pairs, hpairs⟩ := ih
    exact ⟨pairs ++ [(key, value)], hpairs.set key value⟩

/-! ## Keys -/

theorem keys_set (entry : Entry) (key : String) (value : Setting) :
    (entry.set key value).settings.map Prod.fst =
      if key ∈ entry.settings.map Prod.fst then entry.settings.map Prod.fst
      else entry.settings.map Prod.fst ++ [key] := by
  change (assign key value.normalized entry.settings).map Prod.fst = _
  split
  · rename_i hmem
    exact keys_assign_of_mem hmem _
  · rename_i hnew
    rw [assign_of_not_mem hnew, List.map_append]
    rfl

theorem keys_ofPairs (name : String) (pairs : List (String × Setting)) :
    (ofPairs name pairs).settings.map Prod.fst = (pairs.map Prod.fst).eraseDups := by
  induction pairs using List.reverseRecOn with
  | nil => rfl
  | append_singleton pairs p ih =>
    rw [ofPairs_append, keys_set, ih, List.map_append, List.eraseDups_append]
    by_cases hmem : p.1 ∈ pairs.map Prod.fst
    · rw [if_pos (List.mem_eraseDups.mpr hmem)]
      simp [List.removeAll, hmem]
    · rw [if_neg (mt List.mem_eraseDups.mp hmem)]
      simp [List.removeAll, hmem, List.eraseDups_cons]

theorem size_ofPairs (name : String) (pairs : List (String × Setting)) :
    (ofPairs name pairs).size = (pairs.map Prod.fst).toFinset.card := by
  have hdistinct := (normal_ofPairs name pairs).keys
  have hsame : ((ofPairs name pairs).settings.map Prod.fst).toFinset =
      (pairs.map Prod.fst).toFinset := by
    ext key
    rw [List.mem_toFinset, List.mem_toFinset, keys_ofPairs, List.mem_eraseDups]
  rw [← hsame, List.toFinset_card_of_nodup hdistinct, List.length_map]
  rfl

theorem get?_of_mem (h : (entry.settings.map Prod.fst).Nodup) {p : String × Setting}
    (hp : p ∈ entry.settings) : entry.get? p.1 = some p.2 := by
  obtain ⟨before, after, hsplit⟩ := List.append_of_mem hp
  unfold get?
  rw [hsplit, List.map_append, List.nodup_append] at h
  refine List.lookup_eq_some_iff.mpr ⟨before, after, hsplit, fun q hq => bne_iff_ne.mpr ?_⟩
  exact (h.2.2 q.1 (List.mem_map_of_mem hq) p.1 (by simp)).symm

theorem Given.keeps (h : Given pairs entry) : Keeps pairs entry := by
  rw [h.eq_ofPairs]
  have hnormal := normal_ofPairs entry.name pairs
  exact {
    keys := keys_ofPairs entry.name pairs
    distinct := hnormal.keys
    get := fun key => get?_ofPairs entry.name key pairs
    size := size_ofPairs entry.name pairs
    stored := fun p hp => ⟨get?_of_mem hnormal.keys hp, Setting.stable_iff.mpr (hnormal.settings p hp)⟩ }

/--
An entry keeps of what it was given each key once, in the order in which they first came, with the last
value in its normalized form. All entries of a configuration have such a history, and a normalized setting
is stable whatever it was made from.
-/
theorem keeps_last_values :
    (∀ pairs entry, Given pairs entry → Keeps pairs entry) ∧
      (∀ c : Configuration, c.Built → ∀ entry ∈ c.entries, ∃ pairs, Given pairs entry) ∧
      ∀ v : Setting, v.normalized.Stable :=
  ⟨fun _ _ h => h.keeps, fun _ h entry hmem => (h.entries_built entry hmem).exists_given,
    Setting.stable_normalized⟩

/-- A number that is not finite under a unit that no document has, and a key that an override sets again. -/
def retold : List (String × Setting) :=
  [("depth", .text "2mm"), ("bias", .float (0 / 0)), ("depth", .quantity ⟨1 / 0, some " e"⟩)]

theorem keeps_last_values_retold :
    ∃ change, Override.parse "bias=-0" = .ok change ∧
      Keeps (retold ++ [(change.key, change.value)])
        ((ofPairs "run" retold).set change.key change.value) ∧
      ∃ pairs, Given pairs ((ofPairs "run" retold).set change.key change.value) := by
  obtain ⟨hkeeps, hreached, -⟩ := keeps_last_values
  have hparse : Override.parse "bias=-0" = .ok ⟨none, "bias", .ofOption "-0"⟩ := rfl
  have hset : ((ofPairs "run" retold).set "bias" (.ofOption "-0")).Built :=
    .set (.ofPairs "run" retold) "bias" (.ofOption "-0")
  have hbuilt := Configuration.Built.setGlobal .new hset
  exact ⟨_, hparse, hkeeps _ _ (.override (.ofPairs "run" retold) hparse),
    hreached _ hbuilt _ (by simp [Configuration.entries, Configuration.setGlobal])⟩

end Entry

end TestBeam
