import TestBeam.Configuration.Basic

/-!
# Plans

A plan lists the module instances of a run in the order of their entries. An entry of a detector module
targets the detectors that it names, or those of the models that it lists, or all of them. Where two
entries of a module target one detector, the more specific entry has the instance.
-/

namespace TestBeam

/-! ## Settings of the run -/

/-- What the global section says about the run itself. -/
structure RunSettings where
  events : Nat
  seed : UInt64
  deriving DecidableEq, Repr

/-- One event and the seed 42 unless the section says otherwise. -/
def RunSettings.read (global : Entry) : Except SettingError RunSettings := do
  let events ← global.countOr "number_of_events" 1
  let seed ← global.countOr "random_seed" 42
  return ⟨events, seed.toUInt64⟩

/-! ## Targets -/

/-- The detectors that an entry targets. -/
inductive Target where
  | all
  | models (listed : List String)
  | named (listed : List String)
  deriving DecidableEq, Repr

namespace Target

/-- A name is more specific than a model, and a model more than nothing. -/
def specificity : Target → Nat
  | .all => 0
  | .models _ => 1
  | .named _ => 2

def selects (target : Target) (detector : Entry) : Bool :=
  match target with
  | .all => true
  | .models listed => detector.textOr "type" "" ∈ listed
  | .named listed => detector.name ∈ listed

/-- Lists that are empty do not count. -/
def ofLists (names models : List String) : Target :=
  if !names.isEmpty then .named names
  else if !models.isEmpty then .models models
  else .all

end Target

/-! ## Candidates -/

structure PlannedInstance where
  /-- The position of the module entry. -/
  index : Nat
  id : ModuleId
  kind : ModuleKind
  deriving DecidableEq, Repr

/-- An instance with the specificity of the entry that asks for it. -/
structure Candidate where
  planned : PlannedInstance
  specificity : Nat
  deriving DecidableEq, Repr

/--
Adds a candidate to those of earlier entries. It fails against an equally specific candidate for the
same instance, yields to a more specific one and displaces a less specific one.
-/
def Candidate.addTo (candidate : Candidate) (candidates : List Candidate) :
    Except ConfigurationError (List Candidate) :=
  match candidates.find? (·.planned.id = candidate.planned.id) with
  | none => .ok (candidates ++ [candidate])
  | some earlier =>
    if earlier.specificity = candidate.specificity then
      .error (.duplicateModule candidate.planned.index candidate.planned.id)
    else if candidate.specificity < earlier.specificity then .ok candidates
    else .ok (candidates.filter (·.planned.id ≠ candidate.planned.id) ++ [candidate])

/-! ## Plans -/

namespace Configuration

/-- The target of an entry, whose names all have to be detectors. -/
def target (c : Configuration) (m : ActiveModule) : Except ConfigurationError Target :=
  let names := m.entry.names "name"
  let models := m.entry.names "type"
  match names.find? fun name => name ∉ c.detectors.map Entry.name with
  | some unknown => .error (.unknownDetector m.index m.entry.name unknown)
  | none =>
    if !names.isEmpty && !models.isEmpty then
      .error <| .malformedSetting <|
        .invalid m.entry.name "type" (", ".intercalate models) "cannot be combined with 'name'"
    else .ok (.ofLists names models)

/-- The candidates of one entry, in the order of the detectors. -/
def candidatesOf (c : Configuration) (m : ActiveModule) (kind : ModuleKind) (target : Target) :
    List Candidate :=
  match kind with
  | .unique => [⟨⟨m.index, ⟨m.entry.name, none⟩, kind⟩, 0⟩]
  | .perDetector =>
    (c.detectors.filter target.selects).map fun detector =>
      ⟨⟨m.index, ⟨m.entry.name, some detector.name⟩, kind⟩, target.specificity⟩

variable {φ : Type}

/-- Checks one entry and adds its candidates. -/
def addEntry (c : Configuration) (registry : Registry φ) (candidates : List Candidate)
    (m : ActiveModule) : Except ConfigurationError (List Candidate) := do
  let registration ← (registry.resolve m.entry.name).mapError (.unknownModule m.index)
  let target ← c.target m
  (c.candidatesOf m registration.kind target).foldlM (fun all candidate => candidate.addTo all)
    candidates

/-- Checks that every detector has a model and a name of its own. -/
def checkDetectors (seen : List String) : List Entry → Except ConfigurationError Unit
  | [] => .ok ()
  | detector :: rest => do
    if detector.name ∈ seen then .error (.duplicateDetector detector.name)
    let _ ← (detector.text "type").mapError .malformedSetting
    checkDetectors (detector.name :: seen) rest

/-- The global section, which a run has to have. -/
def requireGlobal (c : Configuration) : Except ConfigurationError Entry :=
  match c.global with
  | some global => .ok global
  | none => .error .missingGlobal

/-- Checks a configuration and lists the instances of its run. -/
def plan (c : Configuration) (registry : Registry φ) :
    Except ConfigurationError (List PlannedInstance) := do
  let global ← c.requireGlobal
  let _ ← (RunSettings.read global).mapError .malformedSetting
  checkDetectors [] c.detectors
  if c.active.isEmpty then .error .noModules
  let candidates ← c.active.foldlM (c.addEntry registry) []
  return candidates.map Candidate.planned

/-- Whether a configuration can run. -/
def validate (c : Configuration) (registry : Registry φ) : Except ConfigurationError Unit :=
  (c.plan registry).map fun _ => ()

end Configuration

end TestBeam
