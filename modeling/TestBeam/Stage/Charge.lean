import TestBeam.Module.Setup

/-!
# Charges

Three stages follow the charges in one sensor: propagation to the surface, transfer to the implants
and digitisation. Each records its parameters under its own instance.
-/

namespace TestBeam.Stage

open StageError (reading)

variable {m : Type → Type} [Monad m]

/-- Records numbers under an instance. -/
def recordAll (id : ModuleId) (values : List (String × Float)) (parameters : StageParameters) :
    StageParameters :=
  values.foldl (fun p (key, value) => StageParameters.record p id.display key value) parameters

/-- The parameters on the bus, or none yet. -/
def parameters : Call m StageParameters := do
  return (← Call.get? .parameters).getD NameMap.empty

/-! ## Propagation -/

structure PropagationSettings where
  temperature : Float
  chargePerStep : Nat
  propagateHoles : Bool
  timestepMin : Float
  timestepMax : Float
  outputPlots : Bool

def PropagationSettings.ofEntry (entry : Entry) : Except StageError PropagationSettings := do
  let temperature ← reading (entry.quantityOr "temperature" .temperature "293K")
  Setup.ensure (0 < temperature) (.notPositive "temperature")
  let chargePerStep ← reading (entry.countOr "charge_per_step" 10)
  Setup.ensure (0 < chargePerStep) (.belowOne "charge_per_step")
  let timestepMin ← reading (entry.quantityOr "timestep_min" .time "0.5ps")
  let timestepMax ← reading (entry.quantityOr "timestep_max" .time "0.5ns")
  Setup.ensure (0 < timestepMin && timestepMin ≤ timestepMax) .timestepOrder
  let propagateHoles ← reading (entry.booleanOr "propagate_holes" false)
  let outputPlots ← reading (entry.booleanOr "output_plots" false)
  return { temperature, chargePerStep, propagateHoles, timestepMin, timestepMax, outputPlots }

/-- Needs the electric field of its detector. -/
structure Propagation where
  id : ModuleId
  detector : String
  settings : PropagationSettings

namespace Propagation

def name : String := "GenericPropagation"

def ofSetup (setup : Setup) : Except StageError Propagation := do
  let detector ← setup.requireDetector
  return ⟨setup.id, detector.name, ← PropagationSettings.ofEntry setup.entry⟩

def recorded (s : PropagationSettings) : List (String × Float) :=
  [ ("temperature", s.temperature),
    ("charge_per_step", Float.ofNat s.chargePerStep),
    ("propagate_holes", if s.propagateHoles then 1 else 0),
    ("timestep_min", s.timestepMin),
    ("timestep_max", s.timestepMax) ]

def init (stage : Propagation) : Call m Unit := do
  let fields ← Call.get? .electricFields
  let hasField := (fields.getD NameMap.empty).contains stage.detector
  Call.ensure hasField (.noElectricField stage.detector)
  Call.put .parameters (recordAll stage.id (recorded stage.settings) (← parameters))

end Propagation

/-! ## Transfer -/

/-- Needs the propagation of its detector. -/
structure Transfer where
  id : ModuleId
  detector : String
  maxDepthDistance : Float

namespace Transfer

def name : String := "SimpleTransfer"

def ofSetup (setup : Setup) : Except StageError Transfer := do
  let distance ← reading (setup.entry.quantityOr "max_depth_distance" .length "5um")
  Setup.ensure (0 ≤ distance) (.negative "max_depth_distance")
  let detector ← setup.requireDetector
  return ⟨setup.id, detector.name, distance⟩

/-- The instance whose charges are transferred. -/
def chargeSource (detector : String) : ModuleId :=
  ⟨Propagation.name, some detector⟩

/-- The parameters are on the bus even when the check fails. -/
def init (stage : Transfer) : Call m Unit := do
  let recorded ← parameters
  Call.put .parameters recorded
  let propagated := NameMap.contains recorded (chargeSource stage.detector).display
  Call.ensure propagated (.noPropagatedCharges stage.detector)
  Call.put .parameters
    (recordAll stage.id [("max_depth_distance", stage.maxDepthDistance)] recorded)

end Transfer

/-! ## Digitisation -/

structure Digitizer where
  id : ModuleId
  threshold : Float
  electronicsNoise : Float
  /-- Bits of the charge-to-digital converter. -/
  resolution : Nat

namespace Digitizer

def name : String := "DefaultDigitizer"

def ofSetup (setup : Setup) : Except StageError Digitizer := do
  let _ ← setup.requireDetector
  let threshold ← reading (setup.entry.quantityOr "threshold" .charge "600e")
  let noise ← reading (setup.entry.quantityOr "electronics_noise" .charge "110e")
  Setup.ensure (0 ≤ noise) (.negative "electronics_noise")
  let resolution ← reading (setup.entry.countOr "qdc_resolution" 8)
  Setup.ensure (1 ≤ resolution && resolution ≤ 32) .resolution
  return ⟨setup.id, threshold, noise, resolution⟩

def recorded (stage : Digitizer) : List (String × Float) :=
  [ ("threshold", stage.threshold),
    ("electronics_noise", stage.electronicsNoise),
    ("qdc_resolution", Float.ofNat stage.resolution) ]

def init (stage : Digitizer) : Call m Unit := do
  Call.put .parameters (recordAll stage.id (recorded stage) (← parameters))

end Digitizer

end TestBeam.Stage
