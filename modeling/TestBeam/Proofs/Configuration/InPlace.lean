import TestBeam.Proofs.Configuration.Changed

/-!
# Overrides in place

The same changes, made step by step in one configuration. A module option writes to each module that it
meets, and only behind the last one it is known whether there was any. A failed change has written
nothing.
-/

namespace TestBeam.Configuration

/-- A change of a configuration in place, which can fail at any point. -/
abbrev Edit (α : Type) := ExceptT ConfigurationError (StateM Configuration) α

namespace Edit

/-- Sets a key in each of the modules from place `i` on that has the name, and tells whether one had
it. -/
def setFrom (name key : String) (value : Setting) : Nat → List Entry → Edit Bool
  | _, [] => return false
  | i, entry :: rest => do
    if entry.name = name then
      modify fun c => c.setModules (c.modules.set i (entry.set key value))
      let _ ← setFrom name key value (i + 1) rest
      return true
    else setFrom name key value (i + 1) rest

def moduleOption (option : String) : Edit Unit := do
  let change ← ofExcept (Override.parse option)
  match change.target with
  | none =>
    match (← get).global with
    | none => throw .missingGlobal
    | some global => modify fun c => c.setGlobal (global.set change.key change.value)
  | some name =>
    let found ← setFrom name change.key change.value 0 (← get).modules
    unless found do
      throw (.malformedOption option ("no module named '" ++ name ++ "' is configured"))

def detectorOption (option : String) : Edit Unit := do
  let change ← ofExcept (Override.parse option)
  match change.target with
  | none => throw (.malformedOption option "expected <detector>.<key>=<value>")
  | some name =>
    match (← get).detectors.findIdx? (·.name = name) with
    | none => throw (.noSuchDetector name)
    | some i =>
      modify fun c => { c with detectors := c.detectors.modify i (·.set change.key change.value) }

/-- A change ends with a configuration, or fails and leaves the one that was there. -/
def settle (c : Configuration) :
    Except ConfigurationError Configuration → Except ConfigurationError Unit × Configuration
  | .ok next => (.ok (), next)
  | .error cause => (.error cause, c)

variable {name key option : String} {value : Setting}

theorem run_bind {α β : Type} (edit : Edit α) (more : α → Edit β) (c : Configuration) :
    (edit >>= more).run.run c =
      match edit.run.run c with
      | (.ok a, after) => (more a).run.run after
      | (.error cause, after) => (.error cause, after) := by
  rw [ExceptT.run_bind, StateT.run_bind]
  rcases edit.run.run c with ⟨_ | a, after⟩
  · rfl
  · rfl

theorem run_get (c : Configuration) : (get : Edit Configuration).run.run c = (.ok c, c) :=
  rfl

theorem run_ofExcept {α : Type} (result : Except ConfigurationError α) (c : Configuration) :
    (ofExcept result : Edit α).run.run c = (result, c) := by
  cases result <;> rfl

theorem run_setFrom (c : Configuration) (front rest : List Entry) (h : c.modules = front ++ rest) :
    (setFrom name key value front.length rest).run.run c =
      (.ok (rest.any (·.name = name)), c.setModules (front ++ setEvery name key value rest)) := by
  -- In front of its place the loop has done its work, and from there on the modules are as before.
  induction rest generalizing c front with
  | nil =>
    unfold setFrom setModules setEvery
    rw [List.map_nil, ← h]
    rfl
  | cons entry rest ih =>
    unfold setFrom
    by_cases hname : entry.name = name
    · have hset : c.modules.set front.length (entry.set key value) =
          (front ++ [entry.set key value]) ++ rest := by
        simp [h]
      have hrest := ih (c.setModules (c.modules.set front.length (entry.set key value)))
        (front ++ [entry.set key value]) hset
      rw [List.length_append, List.length_singleton] at hrest
      rw [if_pos hname, run_bind]
      change StateT.run (ExceptT.run (setFrom name key value (front.length + 1) rest >>= _)) _ = _
      rw [run_bind, hrest]
      simp only [List.any_cons, hname, decide_true, Bool.true_or]
      simp [setEvery, setModules, hname]
      rfl
    · have hrest := ih c (front ++ [entry]) (by simp [h])
      rw [List.length_append, List.length_singleton] at hrest
      rw [if_neg hname, hrest]
      simp [setEvery, hname]

theorem setEvery_of_not_any {entries : List Entry} (h : entries.any (·.name = name) = false) :
    setEvery name key value entries = entries := by
  unfold setEvery
  simp only [List.any_eq_false, decide_eq_true_eq] at h
  nth_rewrite 2 [← List.map_id entries]
  apply List.map_congr_left
  intro entry hentry
  rw [if_neg (h entry hentry), id]

theorem run_moduleOption (c : Configuration) (option : String) :
    (moduleOption option).run.run c = settle c (c.applyModuleOption option) := by
  unfold moduleOption applyModuleOption
  rcases Override.parse option with cause | ⟨_ | name, key, value⟩
  · rfl
  · rcases c with ⟨_ | global, modules, detectors, ignored⟩
    · rfl
    · rfl
  · have hloop : (setFrom name key value 0 c.modules).run.run c = _ := run_setFrom c [] c.modules rfl
    have hfound : (c.module? name).isSome = c.modules.any (·.name = name) := by
      simp [module?, List.isSome_find?, beq_eq_decide]
    change StateT.run (ExceptT.run (setFrom name key value 0 c.modules >>= _)) c =
      settle c (if (c.module? name).isSome then _ else _)
    rw [run_bind, hloop, hfound]
    cases hany : c.modules.any (·.name = name) with
    | true => rfl
    | false =>
      -- Nothing was found, so the loop wrote nothing.
      rw [setEvery_of_not_any hany]
      rfl

theorem setFirst_eq_modify (entries : List Entry) :
    setFirst name key value entries =
      (entries.findIdx? (·.name = name)).map fun i => entries.modify i (·.set key value) := by
  induction entries with
  | nil => rfl
  | cons entry entries ih =>
    unfold setFirst
    rw [List.findIdx?_cons, ih]
    by_cases hname : entry.name = name
    · simp [hname]
    · simp [hname, Function.comp_def]

theorem run_detectorOption (c : Configuration) (option : String) :
    (detectorOption option).run.run c = settle c (c.applyDetectorOption option) := by
  unfold detectorOption applyDetectorOption
  simp only [setFirst_eq_modify]
  rcases Override.parse option with cause | ⟨_ | name, key, value⟩
  · rfl
  · rfl
  · simp only [run_bind, run_ofExcept, run_get]
    simp only [bind, Except.bind]
    cases c.detectors.findIdx? (·.name = name) with
    | none => rfl
    | some i => rfl

end Edit

/-! ## Overrides -/

/-- An override is made as a whole or not at all. It changes the key of its target and nothing else,
another time it changes nothing, and of two overrides for one key only the later one counts. -/
theorem override_changes_target (c : Configuration) (option : String) :
    ((Edit.moduleOption option).run.run c = Edit.settle c (c.applyModuleOption option) ∧
        (Edit.detectorOption option).run.run c = Edit.settle c (c.applyDetectorOption option)) ∧
      (∀ next, c.applyModuleOption option = .ok next ↔
        ∃ change, Override.WrittenAs option change ∧ c.ModulesChanged change next) ∧
      (∀ next, c.applyDetectorOption option = .ok next ↔
        ∃ change, Override.WrittenAs option change ∧ c.DetectorChanged change next) ∧
      (∀ next, c.applyModuleOption option = .ok next → next.applyModuleOption option = .ok next) ∧
      (∀ next, c.applyDetectorOption option = .ok next → next.applyDetectorOption option = .ok next) ∧
      (∀ later middle, SameKey option later → c.applyModuleOption option = .ok middle →
        ∃ last, c.applyModuleOption later = .ok last ∧ middle.applyModuleOption later = .ok last) ∧
      ∀ later middle, SameKey option later → c.applyDetectorOption option = .ok middle →
        ∃ last, c.applyDetectorOption later = .ok last ∧
          middle.applyDetectorOption later = .ok last := by
  refine ⟨⟨Edit.run_moduleOption c option, Edit.run_detectorOption c option⟩, ?_, ?_, ?_, ?_, ?_, ?_⟩
  · intro next
    exact applyModuleOption_ok_iff
  · intro next
    exact applyDetectorOption_ok_iff
  · intro next h
    exact applyModuleOption_twice h
  · intro next h
    exact applyDetectorOption_twice h
  · intro later middle hsame h
    exact applyModuleOption_again hsame h
  · intro later middle hsame h
    exact applyDetectorOption_again hsame h

theorem override_changes_two_modules :
    let c : Configuration :=
      ⟨none, [⟨"Charge", []⟩, ⟨"Other", []⟩, ⟨"Charge", [("k", .integer 1)]⟩], [], []⟩
    ∃ next, c.applyModuleOption " Charge . k =2=2" = .ok next ∧
      next.applyModuleOption " Charge . k =2=2" = .ok next := by
  intro c
  have hok : (c.applyModuleOption " Charge . k =2=2").isOk := by decide +kernel
  cases hnext : c.applyModuleOption " Charge . k =2=2" with
  | error cause =>
    rw [hnext] at hok
    cases hok
  | ok next =>
    obtain ⟨-, -, -, htwice, -⟩ := override_changes_target c " Charge . k =2=2"
    exact ⟨next, rfl, htwice next hnext⟩

end TestBeam.Configuration
