import TestBeam.Configuration.Plan
import TestBeam.Module.Setup
import TestBeam.Random
import TestBeam.Summary

/-!
# Executing a run

A run constructs all planned instances, calls `init` on each, steps each once for every event and at
last calls `finalize` on each, always in the order of the plan. The first failure ends the run. An
abort is noticed between two calls.
-/

namespace TestBeam

/-! ## Errors -/

/-- Why a run did not complete. -/
inductive RunError where
  | configuration (cause : ConfigurationError)
  | construction (index : Nat) (id : ModuleId) (cause : StageError)
  | call (index : Nat) (id : ModuleId) (phase : Phase) (cause : StageError)
  | aborted (index : Nat) (id : ModuleId) (phase : Phase)
  deriving DecidableEq, Repr

namespace RunError

def message : RunError → String
  | .configuration _ => "invalid configuration"
  | .construction index id _ =>
    "module #" ++ toString index ++ " '" ++ id.display ++ "' could not be constructed"
  | .call index id phase _ =>
    "module #" ++ toString index ++ " '" ++ id.display ++ "' failed during " ++ phase.display
  | .aborted index id phase =>
    "run aborted before module #" ++ toString index ++ " '" ++ id.display ++ "' (" ++
      phase.display ++ ")"

/-- The texts of the causes, outermost first. -/
def causes : RunError → List String
  | .configuration cause => cause.message :: cause.causes
  | .construction _ _ cause => cause.message :: cause.causes
  | .call _ _ _ cause => cause.message :: cause.causes
  | .aborted _ _ _ => []

end RunError

/-! ## Instances -/

structure Instance (ι : Type) where
  index : Nat
  id : ModuleId
  module : ι
  /-- The time of all its calls. -/
  elapsedSeconds : Float

def Instance.report {ι : Type} (i : Instance ι) : ModuleReport :=
  ⟨i.index.toUInt64, i.id, i.elapsedSeconds⟩

/-- The modules that a run can use, and what the run asks of its surroundings. -/
structure Environment (m : Type → Type) (ι : Type) where
  registry : Registry (Setup → m (Except StageError ι))
  /-- A call that succeeds gives the module as it is afterwards. -/
  call : ι → Hook → Context → Call m ι
  /-- Whether an abort was asked for. -/
  aborted : m Bool
  /-- Seconds since some fixed moment. -/
  clock : m Float

namespace Environment

variable {m : Type → Type} [Monad m] {ι : Type} (env : Environment m ι)

/-! ## Construction -/

/-- Constructs the instances of a plan. Each takes the next seed. -/
def construct (c : Configuration) (global : Entry) (detectors : DetectorTable) :
    List PlannedInstance → Generator → m (Except RunError (List (Instance ι)))
  | [], _ => return .ok []
  | planned :: rest, generator => do
    match env.registry.resolve planned.id.name with
    | .error cause => return .error (.configuration (.unknownModule planned.index cause))
    | .ok registration =>
      let (seed, generator) := generator.next
      let setup : Setup := {
        id := planned.id
        entry := c.modules[planned.index]?.getD (Entry.empty planned.id.name)
        global
        detector := planned.id.detector.bind detectors.get?
        seed }
      match ← registration.factory setup with
      | .error cause => return .error (.construction planned.index planned.id cause)
      | .ok module =>
        match ← construct c global detectors rest generator with
        | .error e => return .error e
        | .ok instances => return .ok (⟨planned.index, planned.id, module, 0⟩ :: instances)

/-! ## Phases -/

/-- Calls one instance and adds the time of the call. -/
def callInstance (context : Context) (phase : Phase) (i : Instance ι) :
    StateT RunBus m (Except StageError (Instance ι)) := do
  let start ← env.clock
  let result ← (env.call i.module phase.hook { context with event := phase.event? }).run
  let stop ← env.clock
  return result.map fun module =>
    { i with module, elapsedSeconds := i.elapsedSeconds + (stop - start) }

/-- Calls the instances in order up to the first failure. -/
def runPhase (context : Context) (phase : Phase) :
    List (Instance ι) → StateT RunBus m (Except RunError Unit × List (Instance ι))
  | [] => return (.ok (), [])
  | i :: rest => do
    if ← env.aborted then return (.error (.aborted i.index i.id phase), i :: rest)
    match ← env.callInstance context phase i with
    | .error cause => return (.error (.call i.index i.id phase cause), i :: rest)
    | .ok called =>
      let (result, rest) ← runPhase context phase rest
      return (result, called :: rest)

/-- Steps through a number of events, starting with a given one. -/
def runEvents (context : Context) :
    (remaining event : Nat) → List (Instance ι) →
      StateT RunBus m (Except RunError Unit × List (Instance ι))
  | 0, _, instances => return (.ok (), instances)
  | remaining + 1, event, instances => do
    match ← env.runPhase context (.event event) instances with
    | (.error e, instances) => return (.error e, instances)
    | (.ok (), instances) => runEvents context remaining (event + 1) instances

def runPhases (context : Context) (events : Nat) (instances : List (Instance ι)) :
    StateT RunBus m (Except RunError Unit × List (Instance ι)) := do
  match ← env.runPhase context .init instances with
  | (.error e, instances) => return (.error e, instances)
  | (.ok (), instances) =>
    match ← env.runEvents context events 1 instances with
    | (.error e, instances) => return (.error e, instances)
    | (.ok (), instances) => env.runPhase context .finalize instances

/-! ## Runs -/

/-- What a completed run leaves behind. -/
structure Completion (ι : Type) where
  events : Nat
  instances : List (Instance ι)
  bus : RunBus

/-- What a run needs to know before it constructs anything. -/
structure Preparation where
  planned : List PlannedInstance
  global : Entry
  settings : RunSettings
  detectors : DetectorTable

/-- Checks a configuration and reads what the run needs of it. -/
def prepare (c : Configuration) : Except ConfigurationError Preparation := do
  let planned ← c.plan env.registry
  let global ← c.requireGlobal
  let settings ← (RunSettings.read global).mapError .malformedSetting
  let detectors ← (DetectorTable.ofEntries c.detectors).mapError .malformedSetting
  return { planned, global, settings, detectors }

def execute (runId : RunId) (c : Configuration) : m (Except RunError (Completion ι)) := do
  match env.prepare c with
  | .error cause => return .error (.configuration cause)
  | .ok prepared =>
    let generator := Generator.ofSeed prepared.settings.seed
    match ← env.construct c prepared.global prepared.detectors prepared.planned generator with
    | .error e => return .error e
    | .ok instances =>
      let context : Context := {
        global := prepared.global, detectors := prepared.detectors, runId, event := none }
      let events := prepared.settings.events
      match ← (env.runPhases context events instances).run Bus.empty with
      | ((.error e, _), _) => return .error e
      | ((.ok (), instances), bus) => return .ok { events, instances, bus }

def Completion.summary (done : Completion ι) (runId : RunId) (elapsedSeconds : Float) :
    RunSummary :=
  { runId
    events := done.events.toUInt64
    modules := done.instances.map Instance.report
    failed := 0
    elapsedSeconds }

/-- Runs a configuration and sums it up. -/
def run (runId : RunId) (c : Configuration) : m (Except RunError RunSummary) := do
  let start ← env.clock
  let result ← env.execute runId c
  let stop ← env.clock
  return result.map fun done => done.summary runId (stop - start)

end Environment

end TestBeam
