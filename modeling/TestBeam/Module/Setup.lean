import TestBeam.Detector
import TestBeam.Module.Error
import TestBeam.Module.Payload

/-!
# What modules are given

A module is constructed from a setup. Its calls see a context that they cannot change, and a bus that
they can.
-/

namespace TestBeam

/-- Everything that constructs one instance. -/
structure Setup where
  id : ModuleId
  entry : Entry
  global : Entry
  detector : Option Detector
  /-- The seed of the instance's own random numbers. -/
  seed : UInt64

def Setup.requireDetector (setup : Setup) : Except StageError Detector :=
  match setup.detector with
  | some detector => .ok detector
  | none => .error (.detectorRequired setup.id)

/-- What every call sees of the run. -/
structure Context where
  global : Entry
  detectors : DetectorTable
  runId : RunId
  event : Option Nat

inductive Hook where
  | init
  | step
  | finalize
  deriving DecidableEq, Repr

def Phase.hook : Phase → Hook
  | .init => .init
  | .event _ => .step
  | .finalize => .finalize

/-- A call changes the bus. What it changed before it fails stays changed. -/
abbrev Call (m : Type → Type) := ExceptT StageError (StateT RunBus m)

namespace Call

variable {m : Type → Type} [Monad m]

/-- Stops unless a condition holds. -/
def ensure (condition : Bool) (otherwise : StageError) : Call m Unit :=
  if condition then pure () else throw otherwise

def put (topic : Topic) (payload : topic.Payload) : Call m Unit :=
  modify fun bus => bus.put topic payload

def get? (topic : Topic) : Call m (Option topic.Payload) := do
  return (← get).get? topic

end Call

/-- Refuses a setup unless a condition holds. -/
def Setup.ensure (condition : Bool) (otherwise : StageError) : Except StageError Unit :=
  if condition then .ok () else .error otherwise

end TestBeam
