import TestBeam.Entry
import TestBeam.Files.Store
import TestBeam.Module.Registry

/-!
# Configuration errors

What can be wrong with a configuration before anything runs. Module entries are numbered by their
position in the configured sequence, counted from zero.
-/

namespace TestBeam

inductive ConfigurationError where
  | missingGlobal
  | noModules
  | unknownModule (index : Nat) (cause : LookupError)
  | unknownDetector (index : Nat) (module detector : String)
  | noSuchDetector (name : String)
  | duplicateDetector (name : String)
  | duplicateModule (index : Nat) (id : ModuleId)
  | malformedSetting (cause : SettingError)
  | malformedOption (option reason : String)
  | read (path : String) (cause : FileError)
  | write (path : String) (cause : FileError)
  | malformedDocument
  deriving DecidableEq, Repr

namespace ConfigurationError

def message : ConfigurationError → String
  | .missingGlobal => "no global configuration was set"
  | .noModules => "no modules are configured"
  | .unknownModule index _ => "module #" ++ toString index ++ " cannot be resolved"
  | .unknownDetector index module detector =>
    "module #" ++ toString index ++ " '" ++ module ++ "' references unknown detector '" ++ detector ++
      "'"
  | .noSuchDetector name => "no detector named '" ++ name ++ "'"
  | .duplicateDetector name => "detector '" ++ name ++ "' is defined more than once"
  | .duplicateModule index id =>
    "module #" ++ toString index ++ " instantiates '" ++ id.display ++ "' which already exists"
  | .malformedSetting _ => "malformed setting"
  | .malformedOption option reason => "malformed option '" ++ option ++ "': " ++ reason
  | .read path _ => "failed to read '" ++ path ++ "'"
  | .write path _ => "failed to write '" ++ path ++ "'"
  | .malformedDocument => "failed to parse configuration document"

/-- The texts of the causes, outermost first. -/
def causes : ConfigurationError → List String
  | .unknownModule _ cause => [cause.message]
  | .malformedSetting cause => cause.message :: cause.causes
  | .read _ cause => [cause.message]
  | .write _ cause => [cause.message]
  | _ => []

end ConfigurationError

end TestBeam
