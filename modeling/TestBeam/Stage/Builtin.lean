import TestBeam.Executor
import TestBeam.Stage.Charge
import TestBeam.Stage.Fields
import TestBeam.Stage.ParticleSource
import TestBeam.Stage.Placing
import TestBeam.Stage.PlaneHistogram

/-!
# Built-in stages

The modules that every run can use. Most of them only publish something when they are initialised.
The particle source and the histograms also work in every event.
-/

namespace TestBeam

inductive Stage where
  | placing (stage : Stage.Placing)
  | magneticField (stage : Stage.MagneticFieldSource)
  | electricField (stage : Stage.ElectricFieldSource)
  | particleSource (stage : Stage.ParticleSource)
  | propagation (stage : Stage.Propagation)
  | transfer (stage : Stage.Transfer)
  | digitizer (stage : Stage.Digitizer)
  | planeHistogram (stage : Stage.PlaneHistogram)

namespace Stage

/-- The name under which a stage is configured. -/
def name : Stage → String
  | .placing _ => Placing.name
  | .magneticField _ => MagneticFieldSource.name
  | .electricField _ => ElectricFieldSource.name
  | .particleSource _ => ParticleSource.name
  | .propagation _ => Propagation.name
  | .transfer _ => Transfer.name
  | .digitizer _ => Digitizer.name
  | .planeHistogram _ => PlaneHistogram.name

variable {m : Type → Type} [Monad m]

/-! ## Calls -/

def init (context : Context) : Stage → Call m Stage
  | .placing s => do s.init context; return .placing s
  | .magneticField s => do s.init; return .magneticField s
  | .electricField s => do s.init; return .electricField s
  | .particleSource s => do ParticleSource.init; return .particleSource s
  | .propagation s => do s.init; return .propagation s
  | .transfer s => do s.init; return .transfer s
  | .digitizer s => do s.init; return .digitizer s
  | .planeHistogram s => return .planeHistogram (← s.init)

def step (context : Context) : Stage → Call m Stage
  | .particleSource s => return .particleSource (← s.step context)
  | .planeHistogram s => return .planeHistogram (← s.step context)
  | other => return other

def finalize [FileStore m] (context : Context) : Stage → Call m Stage
  | .planeHistogram s => do s.finalize context; return .planeHistogram s
  | other => return other

def call [FileStore m] (stage : Stage) (hook : Hook) (context : Context) : Call m Stage :=
  match hook with
  | .init => stage.init context
  | .step => stage.step context
  | .finalize => stage.finalize context

/-! ## The registry -/

/-- The built-in stages with the way to construct each. -/
def table : List (String × ModuleKind × (Setup → Except StageError Stage)) :=
  [ (Placing.name, .unique, fun s => (Placing.ofSetup s).map .placing),
    (MagneticFieldSource.name, .unique, fun s => (MagneticFieldSource.ofSetup s).map .magneticField),
    (ElectricFieldSource.name, .perDetector,
      fun s => (ElectricFieldSource.ofSetup s).map .electricField),
    (ParticleSource.name, .unique, fun s => (ParticleSource.ofSetup s).map .particleSource),
    (Propagation.name, .perDetector, fun s => (Propagation.ofSetup s).map .propagation),
    (Transfer.name, .perDetector, fun s => (Transfer.ofSetup s).map .transfer),
    (Digitizer.name, .perDetector, fun s => (Digitizer.ofSetup s).map .digitizer),
    (PlaneHistogram.name, .perDetector, fun s => (PlaneHistogram.ofSetup s).map .planeHistogram) ]

def registry : Registry (Setup → Except StageError Stage) :=
  Registry.ofList table

/-- The built-in stages with a clock and without a way to abort. -/
def environment [FileStore m] (clock : m Float) : Environment m Stage where
  registry := Registry.ofList (table.map fun (name, kind, build) =>
    (name, kind, fun setup => pure (build setup)))
  call := call
  aborted := return false
  clock := clock

end Stage

end TestBeam
