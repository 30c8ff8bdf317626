import Mathlib.Data.List.Forall2
import TestBeam.Proofs.Entry.Normal

/-!
# What an override changes

An override changes one key, in all modules with the name of its target, in the first such detector, or
in the global section. Everything else stays. A change made in place either ends with the changed
configuration or fails and leaves it as it was.
-/

namespace TestBeam

/-! ## How an override is written -/

namespace Text

variable {mark : Char} {cs front back : List Char}

theorem splitOnce_append (h : mark ∉ front) (back : List Char) :
    splitOnce mark (front ++ mark :: back) = some (front, back) := by
  induction front with
  | nil => simp [splitOnce]
  | cons c front ih =>
    simp only [List.mem_cons, not_or] at h
    simp [splitOnce, Ne.symm h.1, ih h.2]

theorem splitOnce_eq_none_iff : splitOnce mark cs = none ↔ mark ∉ cs := by
  induction cs with
  | nil => simp [splitOnce]
  | cons c cs ih =>
    unfold splitOnce
    by_cases hc : c = mark
    · simp [hc]
    · simp [hc, ih, Ne.symm hc]

theorem splitOnce_eq_some_iff :
    splitOnce mark cs = some (front, back) ↔ mark ∉ front ∧ cs = front ++ mark :: back := by
  constructor
  · intro h
    induction cs generalizing front with
    | nil => simp [splitOnce] at h
    | cons c cs ih =>
      unfold splitOnce at h
      split at h
      case isTrue hc =>
        obtain ⟨rfl, rfl⟩ := Prod.mk.inj (Option.some.inj h)
        simp [hc]
      case isFalse hc =>
        obtain ⟨⟨before, after⟩, hsplit, heq⟩ := Option.map_eq_some_iff.mp h
        obtain ⟨rfl, rfl⟩ := Prod.mk.inj heq
        obtain ⟨hnot, rfl⟩ := ih hsplit
        simp [hnot, Ne.symm hc]
  · rintro ⟨hnot, rfl⟩
    exact splitOnce_append hnot back

end Text

namespace Override

/-- The left side of an override names a key behind a target, or a key alone. -/
def Names (left : List Char) (change : Override) : Prop :=
  (∃ target key, '.' ∉ target ∧ Text.trimChars left = target ++ '.' :: key ∧
      change.target = some (String.ofList (Text.trimChars target)) ∧
      change.key = String.ofList (Text.trimChars key)) ∨
    ('.' ∉ Text.trimChars left ∧ change.target = none ∧
      change.key = String.ofList (Text.trimChars left))

/-- The left side ends at the first equals sign. Everything behind it is the value. -/
def WrittenAs (option : String) (change : Override) : Prop :=
  ∃ left text, '=' ∉ left ∧ option.toList = left ++ '=' :: text ∧ Names left change ∧
    change.key ≠ "" ∧ change.target ≠ some "" ∧ change.value = Setting.ofOption (String.ofList text)

variable {option : String} {change : Override} {left : List Char}

theorem splitTarget_eq_iff : splitTarget left = (change.target, change.key) ↔ Names left change := by
  unfold splitTarget Names
  split
  case h_1 target key hsplit =>
    obtain ⟨hnot, heq⟩ := Text.splitOnce_eq_some_iff.mp hsplit
    constructor
    · intro h
      exact .inl ⟨target, key, hnot, heq, (congrArg Prod.fst h).symm, (congrArg Prod.snd h).symm⟩
    · rintro (⟨target', key', hnot', heq', htarget, hkey⟩ | ⟨hno, -⟩)
      · rw [heq', Text.splitOnce_append hnot', Option.some.injEq, Prod.mk.injEq] at hsplit
        rw [htarget, hkey, hsplit.1, hsplit.2]
      · simp [heq] at hno
  case h_2 hsplit =>
    have hno := Text.splitOnce_eq_none_iff.mp hsplit
    constructor
    · intro h
      exact .inr ⟨hno, (congrArg Prod.fst h).symm, (congrArg Prod.snd h).symm⟩
    · rintro (⟨target, key, -, heq, -⟩ | ⟨-, htarget, hkey⟩)
      · simp [heq] at hno
      · rw [htarget, hkey]

theorem parse_eq_ok_iff : parse option = .ok change ↔ WrittenAs option change := by
  unfold parse
  split
  case h_1 hsplit =>
    constructor
    · intro h
      cases h
    · rintro ⟨left, text, hnot, heq, -⟩
      rw [heq, Text.splitOnce_append hnot] at hsplit
      cases hsplit
  case h_2 left text hsplit =>
    rcases hleft : splitTarget left with ⟨target, key⟩
    simp only
    constructor
    · intro h
      split at h
      case isTrue => cases h
      case isFalse hfilled =>
        obtain rfl := Except.ok.inj h
        obtain ⟨hnot, heq⟩ := Text.splitOnce_eq_some_iff.mp hsplit
        simp only [Bool.or_eq_true, String.isEmpty_iff, decide_eq_true_eq, not_or] at hfilled
        refine ⟨left, text, hnot, heq, splitTarget_eq_iff.mp hleft, hfilled.1, hfilled.2, ?_⟩
        simp only
    · rintro ⟨left', text', hnot, heq, hnames, hkey, htarget, hvalue⟩
      rw [heq, Text.splitOnce_append hnot, Option.some.injEq, Prod.mk.injEq] at hsplit
      obtain ⟨rfl, rfl⟩ := hsplit
      rw [splitTarget_eq_iff.mpr hnames, Prod.mk.injEq] at hleft
      obtain ⟨rfl, rfl⟩ := hleft
      rw [if_neg (by simp [hkey, htarget]), ← hvalue]

end Override

/-! ## What happens to an entry -/

namespace Entry

variable {key other : String} {value first : Setting} {entry old new : Entry}

/-- A key gets a value, where it stands or behind all others, and nothing else changes. -/
def Bound (old : Entry) (key : String) (value : Setting) (new : Entry) : Prop :=
  new.name = old.name ∧
    ((∃ before former after, key ∉ before.map Prod.fst ∧
        old.settings = before ++ (key, former) :: after ∧
        new.settings = before ++ (key, value) :: after) ∨
      (key ∉ old.settings.map Prod.fst ∧ new.settings = old.settings ++ [(key, value)]))

theorem assign_of_mem {before after : List (String × Setting)} (h : key ∉ before.map Prod.fst)
    (former value : Setting) :
    assign key value (before ++ (key, former) :: after) = before ++ (key, value) :: after := by
  induction before with
  | nil => simp [assign]
  | cons p before ih =>
    simp only [List.map_cons, List.mem_cons, not_or] at h
    simp [assign, Ne.symm h.1, ih h.2]

theorem exists_first_of_mem {settings : List (String × Setting)} (h : key ∈ settings.map Prod.fst) :
    ∃ before former after, key ∉ before.map Prod.fst ∧ settings = before ++ (key, former) :: after := by
  obtain ⟨front, back, heq, hnot⟩ := List.eq_append_cons_of_mem h
  obtain ⟨before, rest, rfl, rfl, hrest⟩ := List.map_eq_append_iff.mp heq
  obtain ⟨p, after, rfl, rfl, -⟩ := List.map_eq_cons_iff.mp hrest
  exact ⟨before, p.2, after, hnot, rfl⟩

theorem eq_set_iff :
    new = old.set key value ↔
      new.name = old.name ∧ new.settings = assign key value.normalized old.settings := by
  cases new
  simp [set]

theorem bound_iff : old.Bound key value.normalized new ↔ new = old.set key value := by
  rw [eq_set_iff]
  unfold Bound
  apply and_congr_right
  intro hname
  constructor
  · rintro (⟨before, former, after, hnot, hold, hnew⟩ | ⟨hnot, hnew⟩)
    · rw [hold, hnew, assign_of_mem hnot]
    · rw [hnew, assign_of_not_mem hnot]
  · intro hnew
    by_cases hkey : key ∈ old.settings.map Prod.fst
    · obtain ⟨before, former, after, hnot, hold⟩ := exists_first_of_mem hkey
      rw [hold, assign_of_mem hnot] at hnew
      exact .inl ⟨before, former, after, hnot, hold, hnew⟩
    · rw [assign_of_not_mem hkey] at hnew
      exact .inr ⟨hkey, hnew⟩

theorem assign_assign (key : String) (first value : Setting) (settings : List (String × Setting)) :
    assign key value (assign key first settings) = assign key value settings := by
  induction settings with
  | nil => simp [assign]
  | cons p settings ih =>
    by_cases hkey : p.1 = key
    · simp [assign, hkey]
    · simp [assign, hkey, ih]

theorem set_set (entry : Entry) (key : String) (first value : Setting) :
    (entry.set key first).set key value = entry.set key value := by
  unfold set
  simp [assign_assign]

end Entry

/-! ## What happens to a configuration -/

namespace Configuration

variable {c next : Configuration} {option : String} {change : Override}

/-- Without a target the global section is changed. With a target all modules of that name are, and
there is one. -/
def ModulesChanged (c : Configuration) (change : Override) (next : Configuration) : Prop :=
  match change.target with
  | none =>
    ∃ old new, c.global = some old ∧ old.Bound change.key change.value.normalized new ∧
      next = { c with global := some new }
  | some name =>
    ∃ modules, (∃ entry ∈ c.modules, entry.name = name) ∧
      c.modules.Forall₂ (fun old new => if old.name = name then
        old.Bound change.key change.value.normalized new else new = old) modules ∧
      next = { c with modules }

/-- The first detector with the name of the target is changed. -/
def DetectorChanged (c : Configuration) (change : Override) (next : Configuration) : Prop :=
  ∃ name before old new after, change.target = some name ∧ c.detectors = before ++ old :: after ∧
    (∀ detector ∈ before, detector.name ≠ name) ∧ old.name = name ∧
    old.Bound change.key change.value.normalized new ∧
    next = { c with detectors := before ++ new :: after }

theorem forall₂_bound_iff {name key : String} {value : Setting} {entries changed : List Entry} :
    entries.Forall₂ (fun old new => if old.name = name then
        old.Bound key value.normalized new else new = old) changed ↔
      changed = setEvery name key value entries := by
  have hrel : (fun old new : Entry => if old.name = name then
      old.Bound key value.normalized new else new = old) =
      fun old new => (if old.name = name then old.set key value else old) = new := by
    funext old new
    split
    · rw [Entry.bound_iff]
      exact propext eq_comm
    · exact propext eq_comm
  unfold setEvery
  rw [hrel, ← List.forall₂_map_left_iff, List.forall₂_eq_eq_eq, eq_comm]

theorem setFirst_eq_some_iff {name key : String} {value : Setting} {entries changed : List Entry} :
    setFirst name key value entries = some changed ↔
      ∃ before old after, entries = before ++ old :: after ∧
        (∀ entry ∈ before, entry.name ≠ name) ∧ old.name = name ∧
        changed = before ++ old.set key value :: after := by
  constructor
  · intro h
    induction entries generalizing changed with
    | nil => simp [setFirst] at h
    | cons entry entries ih =>
      unfold setFirst at h
      split at h
      case isTrue hname =>
        obtain rfl := Option.some.inj h
        exact ⟨[], entry, entries, rfl, by simp, hname, rfl⟩
      case isFalse hname =>
        obtain ⟨rest, hrest, rfl⟩ := Option.map_eq_some_iff.mp h
        obtain ⟨before, old, after, rfl, hbefore, hold, rfl⟩ := ih hrest
        exact ⟨entry :: before, old, after, rfl, by simpa [hname] using hbefore, hold, rfl⟩
  · rintro ⟨before, old, after, rfl, hbefore, hold, rfl⟩
    induction before with
    | nil => simp [setFirst, hold]
    | cons entry before ih =>
      simp only [List.mem_cons, forall_eq_or_imp] at hbefore
      simp [setFirst, hbefore.1, ih hbefore.2]

theorem applyModuleOption_of_parse (hparse : Override.parse option = .ok change) :
    c.applyModuleOption option = .ok next ↔ c.ModulesChanged change next := by
  unfold applyModuleOption ModulesChanged
  rw [hparse]
  change (match change.target with | none => _ | some name => _) = _ ↔ _
  cases change.target with
  | none =>
    cases c.global with
    | none => simp
    | some global =>
      simp only [Option.some.injEq, Except.ok.injEq, Entry.bound_iff]
      simp [setGlobal, eq_comm]
  | some name =>
    have hfound : (c.module? name).isSome ↔ ∃ entry ∈ c.modules, entry.name = name := by
      simp [module?, List.find?_isSome]
    simp only [forall₂_bound_iff]
    split
    case isTrue hsome =>
      rw [Except.ok.injEq]
      constructor
      · rintro rfl
        exact ⟨_, hfound.mp hsome, rfl, rfl⟩
      · rintro ⟨modules, -, rfl, rfl⟩
        rfl
    case isFalse hnone =>
      constructor
      · intro h
        cases h
      · rintro ⟨modules, hentry, -⟩
        exact (hnone (hfound.mpr hentry)).elim

theorem applyModuleOption_ok_iff :
    c.applyModuleOption option = .ok next ↔
      ∃ change, Override.WrittenAs option change ∧ c.ModulesChanged change next := by
  constructor
  · intro h
    obtain ⟨change, hparse, -⟩ := exists_of_bind_ok h
    exact ⟨change, Override.parse_eq_ok_iff.mp hparse, (applyModuleOption_of_parse hparse).mp h⟩
  · rintro ⟨change, hwritten, hchanged⟩
    exact (applyModuleOption_of_parse (Override.parse_eq_ok_iff.mpr hwritten)).mpr hchanged

theorem applyDetectorOption_of_parse (hparse : Override.parse option = .ok change) :
    c.applyDetectorOption option = .ok next ↔ c.DetectorChanged change next := by
  unfold applyDetectorOption DetectorChanged
  rw [hparse]
  change (match change.target with | none => _ | some name => _) = _ ↔ _
  cases change.target with
  | none => simp
  | some name =>
    simp only [Option.some.injEq, Entry.bound_iff]
    split
    case h_1 detectors hfirst =>
      obtain ⟨before, old, after, heq, hbefore, hold, rfl⟩ := setFirst_eq_some_iff.mp hfirst
      rw [Except.ok.injEq]
      constructor
      · rintro rfl
        exact ⟨name, before, old, _, after, rfl, heq, hbefore, hold, rfl, rfl⟩
      · rintro ⟨_, before', old', _, after', rfl, heq', hbefore', hold', rfl, rfl⟩
        rw [setFirst_eq_some_iff.mpr ⟨before', old', after', heq', hbefore', hold', rfl⟩] at hfirst
        rw [Option.some.inj hfirst]
    case h_2 hfirst =>
      constructor
      · intro h
        cases h
      · rintro ⟨_, before, old, _, after, rfl, heq, hbefore, hold, -⟩
        rw [setFirst_eq_some_iff.mpr ⟨before, old, after, heq, hbefore, hold, rfl⟩] at hfirst
        cases hfirst

theorem applyDetectorOption_ok_iff :
    c.applyDetectorOption option = .ok next ↔
      ∃ change, Override.WrittenAs option change ∧ c.DetectorChanged change next := by
  constructor
  · intro h
    obtain ⟨change, hparse, -⟩ := exists_of_bind_ok h
    exact ⟨change, Override.parse_eq_ok_iff.mp hparse, (applyDetectorOption_of_parse hparse).mp h⟩
  · rintro ⟨change, hwritten, hchanged⟩
    exact (applyDetectorOption_of_parse (Override.parse_eq_ok_iff.mpr hwritten)).mpr hchanged

/-! ## The same key once more -/

theorem setEvery_setEvery (name key : String) (first value : Setting) (entries : List Entry) :
    setEvery name key value (setEvery name key first entries) = setEvery name key value entries := by
  unfold setEvery
  rw [List.map_map]
  apply List.map_congr_left
  intro entry _
  by_cases hname : entry.name = name
  · have hset : (entry.set key first).name = name := hname
    simp [hname, hset, Entry.set_set]
  · simp [hname]

/-- Two options change the same key of the same target. -/
def SameKey (first second : String) : Prop :=
  ∃ a b, Override.WrittenAs first a ∧ Override.WrittenAs second b ∧ a.target = b.target ∧ a.key = b.key

theorem SameKey.refl (hwritten : Override.WrittenAs option change) : SameKey option option :=
  ⟨change, change, hwritten, hwritten, rfl, rfl⟩

variable {first second : String} {middle : Configuration}

theorem applyModuleOption_again (hsame : SameKey first second)
    (h : c.applyModuleOption first = .ok middle) :
    ∃ last, c.applyModuleOption second = .ok last ∧ middle.applyModuleOption second = .ok last := by
  obtain ⟨a, b, ha, hb, htarget, hkey⟩ := hsame
  have hmiddle := (applyModuleOption_of_parse (Override.parse_eq_ok_iff.mpr ha)).mp h
  simp only [applyModuleOption_of_parse (Override.parse_eq_ok_iff.mpr hb)]
  unfold ModulesChanged at hmiddle ⊢
  rw [← htarget, ← hkey]
  cases hname : a.target with
  | none =>
    rw [hname] at hmiddle
    obtain ⟨old, _, hglobal, hbound, rfl⟩ := hmiddle
    obtain rfl := Entry.bound_iff.mp hbound
    refine ⟨_, ⟨old, _, hglobal, Entry.bound_iff.mpr rfl, rfl⟩, _, _, rfl, Entry.bound_iff.mpr rfl, ?_⟩
    rw [Entry.set_set]
  | some name =>
    rw [hname] at hmiddle
    obtain ⟨_, ⟨entry, hentry, hentryName⟩, hall, rfl⟩ := hmiddle
    obtain rfl := forall₂_bound_iff.mp hall
    refine ⟨_, ⟨_, ⟨entry, hentry, hentryName⟩, forall₂_bound_iff.mpr rfl, rfl⟩, _, ?_,
      forall₂_bound_iff.mpr rfl, ?_⟩
    · exact ⟨entry.set a.key a.value, List.mem_map.mpr ⟨entry, hentry, if_pos hentryName⟩, hentryName⟩
    · rw [setEvery_setEvery]

theorem applyModuleOption_twice (h : c.applyModuleOption option = .ok next) :
    next.applyModuleOption option = .ok next := by
  obtain ⟨change, hwritten, -⟩ := applyModuleOption_ok_iff.mp h
  obtain ⟨last, hlast, htwice⟩ := applyModuleOption_again (SameKey.refl hwritten) h
  rw [h, Except.ok.injEq] at hlast
  rw [htwice, hlast]

theorem applyDetectorOption_again (hsame : SameKey first second)
    (h : c.applyDetectorOption first = .ok middle) :
    ∃ last, c.applyDetectorOption second = .ok last ∧
      middle.applyDetectorOption second = .ok last := by
  obtain ⟨a, b, ha, hb, htarget, hkey⟩ := hsame
  have hmiddle := (applyDetectorOption_of_parse (Override.parse_eq_ok_iff.mpr ha)).mp h
  simp only [applyDetectorOption_of_parse (Override.parse_eq_ok_iff.mpr hb)]
  unfold DetectorChanged at hmiddle ⊢
  rw [← htarget, ← hkey]
  obtain ⟨name, before, old, _, after, hname, heq, hbefore, hold, hbound, rfl⟩ := hmiddle
  obtain rfl := Entry.bound_iff.mp hbound
  refine ⟨_, ⟨name, before, old, _, after, hname, heq, hbefore, hold, Entry.bound_iff.mpr rfl, rfl⟩,
    name, before, _, _, after, hname, rfl, hbefore, hold, Entry.bound_iff.mpr rfl, ?_⟩
  rw [Entry.set_set]

theorem applyDetectorOption_twice (h : c.applyDetectorOption option = .ok next) :
    next.applyDetectorOption option = .ok next := by
  obtain ⟨change, hwritten, -⟩ := applyDetectorOption_ok_iff.mp h
  obtain ⟨last, hlast, htwice⟩ := applyDetectorOption_again (SameKey.refl hwritten) h
  rw [h, Except.ok.injEq] at hlast
  rw [htwice, hlast]

end Configuration

end TestBeam
