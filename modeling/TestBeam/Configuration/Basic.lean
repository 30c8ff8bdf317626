import TestBeam.Configuration.Error
import TestBeam.NameOrder

/-!
# Configurations

A configuration has a global section, module entries in the order of execution, and detectors in the
order of their names. Module entries with an ignored name take no part in a run.
-/

namespace TestBeam

structure Configuration where
  global : Option Entry := none
  modules : List Entry := []
  detectors : List Entry := []
  ignored : List String := ["Ignore"]
  deriving BEq, Repr

namespace Configuration

def setGlobal (c : Configuration) (global : Entry) : Configuration :=
  { c with global := some global }

def setModules (c : Configuration) (modules : List Entry) : Configuration :=
  { c with modules }

/-- Detectors are sorted, and those with equal names keep their order. -/
def setDetectors (c : Configuration) (detectors : List Entry) : Configuration :=
  { c with detectors := sortByName Entry.name detectors }

def setIgnored (c : Configuration) (ignored : List String) : Configuration :=
  { c with ignored }

def module? (c : Configuration) (name : String) : Option Entry :=
  c.modules.find? (·.name == name)

def detector? (c : Configuration) (name : String) : Option Entry :=
  c.detectors.find? (·.name == name)

/-- A module entry with its position in the sequence. -/
structure ActiveModule where
  index : Nat
  entry : Entry
  deriving BEq, Repr

/-- The module entries that take part in a run. -/
def active (c : Configuration) : List ActiveModule :=
  (c.modules.zipIdx.map fun (entry, index) => ⟨index, entry⟩).filter
    fun m => m.entry.name ∉ c.ignored

end Configuration

end TestBeam
