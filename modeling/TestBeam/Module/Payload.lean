import TestBeam.Bus
import TestBeam.Geometry.Placement
import TestBeam.NameMap

/-!
# Payloads

What modules exchange on the bus of a run. All values are in internal units. Payloads that belong to
detectors or instances are keyed by their names.
-/

namespace TestBeam

/-! ## Fields -/

/-- A constant magnetic field, in the global frame and in the frame of each detector. -/
structure MagneticField where
  global : Vec3 Float
  perDetector : NameMap (Vec3 Float)

inductive ElectricFieldModel where
  | constant
  | linear
  deriving DecidableEq, Repr

def ElectricFieldModel.name : ElectricFieldModel → String
  | .constant => "Constant"
  | .linear => "Linear"

structure ElectricField where
  model : ElectricFieldModel
  voltage : Float
  /-- Only a linear field has one. -/
  biasVoltage : Option Float
  deriving Repr

/-! ## Particles -/

/-- A particle at its start. The direction has length one. -/
structure PrimaryVertex where
  position : Vec3 Float
  direction : Vec3 Float
  energy : Float
  particle : String
  deriving Repr

structure Primaries where
  event : Nat
  vertices : List PrimaryVertex
  deriving Repr

/-! ## Parameters -/

/-- Numbers recorded by module instances, under the text of the instance and a key. -/
abbrev StageParameters := NameMap (NameMap Float)

namespace StageParameters

def record (parameters : StageParameters) (instanceName key : String) (value : Float) :
    StageParameters :=
  NameMap.insert parameters instanceName
    (NameMap.insert ((NameMap.get? parameters instanceName).getD NameMap.empty) key value)

def value? (parameters : StageParameters) (instanceName key : String) : Option Float :=
  (NameMap.get? parameters instanceName).bind fun values => NameMap.get? values key

end StageParameters

/-! ## The bus of a run -/

inductive Topic where
  | geometry
  | magneticField
  | electricFields
  | primaries
  | parameters
  deriving DecidableEq, Repr

abbrev Topic.Payload : Topic → Type
  | .geometry => DetectorLayout Float
  | .magneticField => MagneticField
  | .electricFields => NameMap ElectricField
  | .primaries => Primaries
  | .parameters => StageParameters

abbrev RunBus := Bus Topic.Payload

end TestBeam
