import TestBeam.Module.Setup

/-!
# Fields

One stage sets the magnetic field for all detectors. Another one sets the electric field of a single
sensor.
-/

namespace TestBeam.Stage

open StageError (reading)

variable {m : Type → Type} [Monad m]

/-! ## The magnetic field -/

/-- Publishes a constant field, also as each placed detector sees it. -/
structure MagneticFieldSource where
  field : Vec3 Float

namespace MagneticFieldSource

def name : String := "MagneticFieldReader"

def ofSetup (setup : Setup) : Except StageError MagneticFieldSource := do
  let _ ← reading (setup.entry.choiceOr "model" ["constant"] "constant")
  let field ← reading (setup.entry.vector "magnetic_field" .magneticField)
  return ⟨field⟩

/-- The field in the frame of each placed detector. -/
def perDetector {α : Type} [Zero α] [Add α] [Mul α] (field : Vec3 α) (layout : DetectorLayout α) :
    NameMap (Vec3 α) :=
  layout.placements.foldl
    (fun map p => map.insert p.name (p.orientation.applyInverse field)) NameMap.empty

def init (stage : MagneticFieldSource) : Call m Unit := do
  match ← Call.get? .geometry with
  | none => throw .magneticFieldBeforeGeometry
  | some layout => Call.put .magneticField ⟨stage.field, perDetector stage.field layout⟩

end MagneticFieldSource

/-! ## The electric field -/

structure ElectricFieldSource where
  detector : String
  field : ElectricField

namespace ElectricFieldSource

def name : String := "ElectricFieldReader"

/-- A linear field may have a bias voltage, which is not larger than the voltage. -/
def readBias (entry : Entry) (model : ElectricFieldModel) (voltage : Float) :
    Except StageError (Option Float) :=
  if model = .linear && entry.has "bias_voltage" then do
    let bias ← reading (entry.quantity "bias_voltage" .voltage)
    Setup.ensure (bias.abs ≤ voltage.abs) .biasAboveVoltage
    return some bias
  else return none

def ofSetup (setup : Setup) : Except StageError ElectricFieldSource := do
  let detector ← setup.requireDetector
  let word ← reading (setup.entry.choiceOr "model" ["constant", "linear"] "linear")
  let model : ElectricFieldModel := if word = "constant" then .constant else .linear
  let voltage ← reading (setup.entry.quantity "voltage" .voltage)
  let biasVoltage ← readBias setup.entry model voltage
  return ⟨detector.name, { model, voltage, biasVoltage }⟩

def init (stage : ElectricFieldSource) : Call m Unit := do
  let layout? ← Call.get? .geometry
  let placed := (layout?.bind fun layout => layout.get? stage.detector).isSome
  Call.ensure placed (.electricFieldBeforePlacement stage.detector)
  let fields ← Call.get? .electricFields
  Call.put .electricFields ((fields.getD NameMap.empty).insert stage.detector stage.field)

end ElectricFieldSource

end TestBeam.Stage
