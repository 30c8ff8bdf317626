import TestBeam.Configuration.Basic

/-!
# Overrides

An override changes one setting of a configuration that was already read. It is written
`target.key=value`. Without a target it changes the global section.
-/

namespace TestBeam

/-- A setting to change. -/
structure Override where
  target : Option String
  key : String
  value : Setting
  deriving Repr

namespace Override

/-- The key of an override, and the target in front of the first point. -/
def splitTarget (cs : List Char) : Option String × String :=
  match Text.splitOnce '.' (Text.trimChars cs) with
  | some (target, key) =>
    (some (String.ofList (Text.trimChars target)), String.ofList (Text.trimChars key))
  | none => (none, String.ofList (Text.trimChars cs))

/-- The value is everything behind the first equals sign. -/
def parse (option : String) : Except ConfigurationError Override :=
  match Text.splitOnce '=' option.toList with
  | none => .error (.malformedOption option "expected key=value")
  | some (left, value) =>
    let (target, key) := splitTarget left
    if key.isEmpty || target = some "" then
      .error (.malformedOption option "empty key or target")
    else .ok ⟨target, key, .ofOption (String.ofList value)⟩

end Override

namespace Configuration

def setFirst (name key : String) (value : Setting) : List Entry → Option (List Entry)
  | [] => none
  | entry :: rest =>
    if entry.name = name then some (entry.set key value :: rest)
    else (setFirst name key value rest).map (entry :: ·)

def setEvery (name key : String) (value : Setting) (entries : List Entry) : List Entry :=
  entries.map fun entry => if entry.name = name then entry.set key value else entry

/-- Changes every module entry with the name of the target, or the global section. -/
def applyModuleOption (c : Configuration) (option : String) :
    Except ConfigurationError Configuration := do
  let change ← Override.parse option
  match change.target with
  | none =>
    match c.global with
    | none => .error .missingGlobal
    | some global => .ok (c.setGlobal (global.set change.key change.value))
  | some name =>
    if (c.module? name).isSome then
      .ok (c.setModules (setEvery name change.key change.value c.modules))
    else .error (.malformedOption option ("no module named '" ++ name ++ "' is configured"))

/-- Changes the detector with the name of the target. -/
def applyDetectorOption (c : Configuration) (option : String) :
    Except ConfigurationError Configuration := do
  let change ← Override.parse option
  match change.target with
  | none => .error (.malformedOption option "expected <detector>.<key>=<value>")
  | some name =>
    match setFirst name change.key change.value c.detectors with
    | some detectors => .ok { c with detectors }
    | none => .error (.noSuchDetector name)

/-- Module options come before detector options. -/
def applyOptions (c : Configuration) (moduleOptions detectorOptions : List String) :
    Except ConfigurationError Configuration := do
  let c ← moduleOptions.foldlM applyModuleOption c
  detectorOptions.foldlM applyDetectorOption c

end Configuration

end TestBeam
