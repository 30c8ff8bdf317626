/-!
# Module instances

A module of a configuration runs once, or once for each detector that it targets. Each of these
instances goes through the phases of a run.
-/

namespace TestBeam

/-- How many instances a module entry has. -/
inductive ModuleKind where
  | unique
  | perDetector
  deriving DecidableEq, Repr

def ModuleKind.name : ModuleKind → String
  | .unique => "Unique"
  | .perDetector => "Detector"

/-- One instance: the name of its module and the detector it runs for. -/
structure ModuleId where
  name : String
  detector : Option String
  deriving DecidableEq, Repr

/-- The name, and the detector after a colon. -/
def ModuleId.display (id : ModuleId) : String :=
  match id.detector with
  | some detector => id.name ++ ":" ++ detector
  | none => id.name

/-- The phases of a run. Events are counted from one. -/
inductive Phase where
  | init
  | event (number : Nat)
  | finalize
  deriving DecidableEq, Repr

namespace Phase

def event? : Phase → Option Nat
  | .event n => some n
  | _ => none

def display : Phase → String
  | .init => "init"
  | .event n => "event " ++ toString n
  | .finalize => "finalize"

end Phase

structure RunId where
  text : String
  deriving DecidableEq, Repr

namespace RunId

/-- The part in front of the first hyphen, enough to tell runs apart. -/
def short (id : RunId) : String :=
  String.ofList (id.text.toList.takeWhile (· ≠ '-'))

/-- The hexadecimal digits of a number, with zeros in front. -/
def hexDigits (count n : Nat) : List Char :=
  let ds := Nat.toDigits 16 n
  List.replicate (count - ds.length) '0' ++ ds

/--
The identifier of 128 random bits: five groups of hexadecimal digits. Six of the bits are fixed and
mark it as a random one.
-/
def ofBits (high low : UInt64) : RunId :=
  let high := (high &&& 0xFFFFFFFFFFFF0FFF) ||| 0x4000
  let low := (low &&& 0x3FFFFFFFFFFFFFFF) ||| 0x8000000000000000
  let first := hexDigits 16 high.toNat
  let second := hexDigits 16 low.toNat
  let groups :=
    [first.take 8, (first.drop 8).take 4, first.drop 12, second.take 4, second.drop 4]
  ⟨String.ofList (['-'].intercalate groups)⟩

end RunId

end TestBeam
