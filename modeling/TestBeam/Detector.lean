import TestBeam.Entry
import TestBeam.NameOrder

/-!
# Detectors

Every detector of a run has a model. The table lists the detectors in ascending order of their names.
-/

namespace TestBeam

structure Detector where
  name : String
  model : String
  entry : Entry
  deriving BEq, Repr

/-- The setting `type` names the model. -/
def Detector.ofEntry (entry : Entry) : Except SettingError Detector :=
  (entry.text "type").map fun model => ⟨entry.name, model, entry⟩

structure DetectorTable where
  detectors : List Detector
  deriving BEq, Repr

namespace DetectorTable

def ofEntries (entries : List Entry) : Except SettingError DetectorTable :=
  (entries.mapM Detector.ofEntry).map fun detectors => ⟨sortByName Detector.name detectors⟩

def get? (table : DetectorTable) (name : String) : Option Detector :=
  table.detectors.find? (·.name == name)

def names (table : DetectorTable) : List String :=
  table.detectors.map Detector.name

end DetectorTable

end TestBeam
