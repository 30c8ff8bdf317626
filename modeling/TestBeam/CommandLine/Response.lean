import TestBeam.CommandLine.Arguments
import TestBeam.Configuration.Document
import TestBeam.Configuration.Override
import TestBeam.LogSettings
import TestBeam.Stage.Builtin

/-!
# Commands

What each command does and how it reports. The status tells the kind of failure: 1 for a configuration
that cannot run, 2 for a failed run or an error of usage, 3 for files.
-/

namespace TestBeam.CommandLine

/-! ## Failures -/

inductive Failure where
  | configuration (cause : ConfigurationError)
  | run (cause : RunError)
  | summary (cause : SummaryError)
  deriving DecidableEq, Repr

namespace Failure

def configurationStatus : ConfigurationError → Nat
  | .read .. => 3
  | .write .. => 3
  | _ => 1

def status : Failure → Nat
  | .configuration cause => configurationStatus cause
  | .run (.configuration cause) => configurationStatus cause
  | .run _ => 2
  | .summary _ => 3

def message : Failure → String
  | .configuration cause => cause.message
  | .run cause => cause.message
  | .summary cause => cause.message

def causes : Failure → List String
  | .configuration cause => cause.causes
  | .run cause => cause.causes
  | .summary cause => cause.causes

/-- The failure and, one on each line, its causes. -/
def report (f : Failure) : List String :=
  ("error: " ++ f.message) :: f.causes.map fun cause => "  caused by: " ++ cause

end Failure

/-! ## Responses -/

/-- What a command prints and its exit status. -/
structure Response where
  status : Nat
  output : List String
  errors : List String
  deriving DecidableEq, Repr

namespace Response

def success (output : List String) : Response :=
  ⟨0, output, []⟩

/-- What was printed before a failure stays printed. -/
def failure (output : List String) (f : Failure) : Response :=
  ⟨f.status, output, f.report⟩

end Response

/-! ## Commands -/

def versionLine : String :=
  "detsim 0.1.0"

def helpLines : List String :=
  [ "Runs a detector simulation pipeline described by a TOML configuration",
    "",
    "Usage: detsim <COMMAND>",
    "",
    "Commands:",
    "  run      Run the configured module pipeline",
    "  check    Validate a configuration without running it",
    "  modules  List the available modules" ]

/-- The built-in modules with their kinds. -/
def moduleLines : List String :=
  Stage.registry.toList.map fun (name, registration) =>
    name ++ " (" ++ registration.kind.name ++ ")"

def planLines (path : String) (planned : List PlannedInstance) : List String :=
  (path ++ " is valid, " ++ toString planned.length ++ " module instances:") ::
    planned.map fun p => "  #" ++ toString p.index ++ " " ++ p.id.display

def finishedLine (s : RunSummary) : String :=
  "run " ++ s.runId.text ++ " finished: " ++ toString s.executed ++
    " module instances executed, " ++ toString s.failed.toNat ++ " failed, over " ++
    toString s.events.toNat ++ " events in " ++ Decimal.fixed 3 s.elapsedSeconds ++ "s"

/-- Without a global section all log settings have their defaults. -/
def checkLogSettings (c : Configuration) : Except ConfigurationError Unit :=
  ((LogSettings.read (c.global.getD (Entry.empty "Allpix"))).mapError .malformedSetting).map
    fun _ => ()

variable {m : Type → Type} [Monad m] [FileStore m]

/-- Reads a configuration and applies all overrides. -/
def load (selection : Selection) : m (Except ConfigurationError Configuration) := do
  match ← Configuration.loadFrom selection.configuration with
  | .error e => return .error e
  | .ok c => return c.applyOptions selection.moduleOptions selection.detectorOptions

/-- Validates a configuration and lists the instances of its plan. -/
def check (selection : Selection) : m Response := do
  match ← load selection with
  | .error e => return .failure [] (.configuration e)
  | .ok c =>
    match c.plan Stage.registry with
    | .error e => return .failure [] (.configuration e)
    | .ok planned => return .success (planLines selection.configuration planned)

/-- Runs a configuration and stores the summary if a path is given. -/
def run (runId : RunId) (clock : m Float) (selection : Selection) (summaryPath : Option String) :
    m Response := do
  match ← load selection with
  | .error e => return .failure [] (.configuration e)
  | .ok c =>
    match checkLogSettings c with
    | .error e => return .failure [] (.configuration e)
    | .ok () =>
      match ← (Stage.environment clock).run runId c with
      | .error e => return .failure [] (.run e)
      | .ok summary =>
        let output := [finishedLine summary]
        match summaryPath with
        | none => return .success output
        | some path =>
          match ← summary.write path with
          | .error e => return .failure output (.summary e)
          | .ok () => return .success output

/-- Does what a command line asks for. -/
def respond (runId : RunId) (clock : m Float) (args : List String) : m Response := do
  match parse args with
  | none => return ⟨2, [], helpLines⟩
  | some .version => return .success [versionLine]
  | some .help => return .success helpLines
  | some .modules => return .success moduleLines
  | some (.check selection) => check selection
  | some (.run selection summary) => run runId clock selection summary

end TestBeam.CommandLine
