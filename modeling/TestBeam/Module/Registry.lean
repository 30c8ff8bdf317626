import TestBeam.Module.Identity
import TestBeam.NameMap

/-!
# Registry

The registry knows, for each module name, how many instances an entry has and how to construct one.
-/

namespace TestBeam

structure Registration (φ : Type) where
  kind : ModuleKind
  factory : φ

abbrev Registry (φ : Type) := NameMap (Registration φ)

structure LookupError where
  name : String
  known : List String
  deriving DecidableEq, Repr

def LookupError.message (e : LookupError) : String :=
  "unknown module '" ++ e.name ++ "' (known modules: " ++ ", ".intercalate e.known ++ ")"

namespace Registry

variable {φ : Type}

/-- Adds a module, or replaces the one with the same name. -/
def register (registry : Registry φ) (name : String) (kind : ModuleKind) (factory : φ) :
    Registry φ :=
  NameMap.insert registry name ⟨kind, factory⟩

def ofList (modules : List (String × ModuleKind × φ)) : Registry φ :=
  modules.foldl (fun registry (name, kind, factory) => register registry name kind factory)
    NameMap.empty

def resolve (registry : Registry φ) (name : String) : Except LookupError (Registration φ) :=
  match NameMap.get? registry name with
  | some registration => .ok registration
  | none => .error ⟨name, NameMap.names registry⟩

end Registry

end TestBeam
