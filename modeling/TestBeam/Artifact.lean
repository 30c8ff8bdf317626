import TestBeam.Files.Store
import TestBeam.Histogram
import TestBeam.Json.Number
import TestBeam.Json.Printer
import TestBeam.Json.Reader
import TestBeam.Module.Identity

/-!
# Artifacts

A histogram is stored as a JSON file that also says which instance filled it in which run.
-/

namespace TestBeam

def Histogram.toJson (h : Histogram) : Json :=
  .object
    [ ("bins_x", .ofNat h.binsX),
      ("bins_y", .ofNat h.binsY),
      ("range", .ofFloat h.range),
      ("counts", .array (h.counts.toList.map .ofNat)),
      ("entries", .ofNat h.entries),
      ("overflow", .ofNat h.overflow) ]

def Histogram.ofJson? (json : Json) : Option Histogram :=
  match json.record? ["bins_x", "bins_y", "range", "counts", "entries", "overflow"] with
  | some [some binsX, some binsY, some range, some counts, some entries, some overflow] => do
    return {
      binsX := ← binsX.count?
      binsY := ← binsY.count?
      range := ← range.float?
      counts := (← (← counts.items?).mapM Json.count?).toArray
      entries := ← entries.count?
      overflow := ← overflow.count? }
  | _ => none

/-- A stored histogram. -/
structure Artifact where
  module : String
  detector : String
  runId : RunId
  events : Nat
  histogram : Histogram

namespace Artifact

def toJson (a : Artifact) : Json :=
  .object
    [ ("module", .string a.module),
      ("detector", .string a.detector),
      ("run_id", .string a.runId.text),
      ("events", .ofNat a.events),
      ("histogram", a.histogram.toJson) ]

def ofJson? (json : Json) : Option Artifact :=
  match json.record? ["module", "detector", "run_id", "events", "histogram"] with
  | some [some module, some detector, some runId, some events, some histogram] => do
    return {
      module := ← module.string?
      detector := ← detector.string?
      runId := ⟨← runId.string?⟩
      events := ← events.count?
      histogram := ← Histogram.ofJson? histogram }
  | _ => none

def parse? (text : String) : Option Artifact :=
  (Json.parse? text).bind ofJson?

/-- The file of a module and a detector in the output directory. -/
def path (directory module detector : String) : String :=
  joinPath directory (module ++ "_" ++ detector ++ ".json")

end Artifact

end TestBeam
