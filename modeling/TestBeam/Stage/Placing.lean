import TestBeam.Module.Setup

/-!
# Placing detectors

This stage places every detector of the run in the global frame. All stages that need to know where a
detector is come after it.
-/

namespace TestBeam.Stage

open StageError (reading)

/-- Publishes the layout of the run. -/
structure Placing where
  margin : Float

namespace Placing

def name : String := "GeometryBuilderGeant4"

def ofSetup (setup : Setup) : Except StageError Placing := do
  let margin ← reading (setup.entry.quantityOr "world_margin" .length "0mm")
  Setup.ensure (0 ≤ margin) (.negative "world_margin")
  return ⟨margin⟩

/-- The placement of a detector. Without settings it stands at the origin, unturned. -/
def place (detector : Detector) : Except SettingError (Placement Float) := do
  let position ← detector.entry.vectorOr "position" .length "0 0 0"
  let angles ← detector.entry.vectorOr "orientation" .angle "0 0 0"
  return ⟨detector.name, detector.model, position, Rotation.ofAngles angles⟩

def placeAll (detectors : List Detector) : Except StageError (List (Placement Float)) :=
  detectors.mapM fun detector => (place detector).mapError (.placement detector.name)

variable {m : Type → Type} [Monad m]

def init (stage : Placing) (context : Context) : Call m Unit := do
  Call.ensure (!context.detectors.detectors.isEmpty) .noDetectors
  let placements ← liftExcept (placeAll context.detectors.detectors)
  Call.put .geometry ⟨stage.margin, placements⟩

end Placing

end TestBeam.Stage
