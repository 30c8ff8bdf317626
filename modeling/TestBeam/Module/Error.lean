import TestBeam.Entry
import TestBeam.Files.Store
import TestBeam.Histogram
import TestBeam.Module.Identity

/-!
# Module errors

Why a module instance could not be constructed, or why one of its calls failed.
-/

namespace TestBeam

inductive StageError where
  | setting (cause : SettingError)
  | histogram (cause : HistogramError)
  | detectorRequired (id : ModuleId)
  -- Parameters outside their range.
  | notPositive (key : String)
  | negative (key : String)
  | belowOne (key : String)
  | nullDirection
  | biasAboveVoltage
  | timestepOrder
  | resolution
  -- Payloads that an earlier module should have put on the bus.
  | noDetectors
  | placement (detector : String) (cause : SettingError)
  | magneticFieldBeforeGeometry
  | depositionBeforeGeometry
  | electricFieldBeforePlacement (detector : String)
  | noElectricField (detector : String)
  | noPropagatedCharges (detector : String)
  | notPlaced (detector : String)
  | stalePrimaries (found current : Nat)
  | noPrimaries (event : Nat)
  -- Calls out of order.
  | depositionOutsideEvent
  | histogramBeforeInit
  | histogramOutsideEvent
  -- Files.
  | createDirectory (path : String) (cause : FileError)
  | createFile (path : String) (cause : FileError)
  | writeHistogram (path : String) (cause : FileError)
  /-- A cause that only the module itself knows. -/
  | other (text : String)
  deriving DecidableEq, Repr

namespace StageError

/-- The end of every message about missing particles. -/
def depositionFirst : String :=
  "the deposition stage must run before the histogrammer"

def message : StageError → String
  | .setting cause => cause.message
  | .histogram cause => cause.message
  | .detectorRequired id => id.display ++ " must be instantiated for a detector"
  | .notPositive key => key ++ " must be positive"
  | .negative key => key ++ " must not be negative"
  | .belowOne key => key ++ " must be at least 1"
  | .nullDirection => "beam_direction must not be a null vector"
  | .biasAboveVoltage => "bias_voltage must not exceed voltage in magnitude"
  | .timestepOrder => "timesteps must satisfy 0 < timestep_min <= timestep_max"
  | .resolution => "qdc_resolution must be between 1 and 32 bits"
  | .noDetectors => "no detectors are configured"
  | .placement detector _ => "detector '" ++ detector ++ "'"
  | .magneticFieldBeforeGeometry =>
    "the geometry has to be built before the magnetic field is read"
  | .depositionBeforeGeometry => "the geometry has to be built before particles are deposited"
  | .electricFieldBeforePlacement detector =>
    "detector '" ++ detector ++ "' has to be placed before its electric field is set"
  | .noElectricField detector =>
    "detector '" ++ detector ++ "' has no electric field to propagate charges in"
  | .noPropagatedCharges detector =>
    "detector '" ++ detector ++ "' has no propagated charges to transfer"
  | .notPlaced detector => "detector '" ++ detector ++ "' has not been placed"
  | .stalePrimaries found current =>
    "primaries on the bus belong to event " ++ toString found ++ ", not " ++ toString current ++
      "; " ++ depositionFirst
  | .noPrimaries event => "no primaries for event " ++ toString event ++ "; " ++ depositionFirst
  | .depositionOutsideEvent => "deposition runs per event"
  | .histogramBeforeInit => "histogrammer stepped before init"
  | .histogramOutsideEvent => "histogrammer stepped outside an event"
  | .createDirectory path _ => "Failed to create directory: " ++ path
  | .createFile path _ => "Failed to create file: " ++ path
  | .writeHistogram path _ => "Failed to write histogram to: " ++ path
  | .other text => text

/-- The texts of the causes, outermost first. -/
def causes : StageError → List String
  | .setting cause => cause.causes
  | .placement _ cause => cause.message :: cause.causes
  | .createDirectory _ cause => [cause.message]
  | .createFile _ cause => [cause.message]
  | .writeHistogram _ cause => [cause.message]
  | _ => []

def reading {α : Type} (result : Except SettingError α) : Except StageError α :=
  result.mapError .setting

end StageError

end TestBeam
