import TestBeam.Artifact
import TestBeam.Module.Setup

/-!
# Histograms of the sensor plane

This stage counts where the particles of each event cross the plane of one detector. At the end of the
run it stores the histogram if the global section names an output directory.
-/

namespace TestBeam.Stage

open StageError (reading)

structure PlaneHistogram where
  id : ModuleId
  detector : String
  placement : Option (Placement Float)
  histogram : Histogram
  events : Nat

namespace PlaneHistogram

def name : String := "DetectorHistogrammer"

def ofSetup (setup : Setup) : Except StageError PlaneHistogram := do
  let detector ← setup.requireDetector
  let binsX ← reading (setup.entry.countOr "bins_x" 100)
  let binsY ← reading (setup.entry.countOr "bins_y" 100)
  let range ← reading (setup.entry.quantityOr "range" .length "10mm")
  let histogram ← (Histogram.make binsX binsY range).mapError .histogram
  return ⟨setup.id, detector.name, none, histogram, 0⟩

/-! ## Crossings -/

/-- A direction whose slope is below this counts as parallel to the plane. -/
def parallelThreshold : Float := 2.220446049250313e-16

/-- Counts one particle. One that flies parallel to the plane is passed over. -/
def countVertex (placement : Placement Float) (h : Histogram) (vertex : PrimaryVertex) : Histogram :=
  match placement.crossing? parallelThreshold vertex.position vertex.direction with
  | some hit => h.fill hit.x hit.y
  | none => h

def countAll (placement : Placement Float) (h : Histogram) (vertices : List PrimaryVertex) :
    Histogram :=
  vertices.foldl (countVertex placement) h

/-! ## The stage -/

variable {m : Type → Type} [Monad m]

def init (stage : PlaneHistogram) : Call m PlaneHistogram := do
  let layout? ← Call.get? .geometry
  match layout?.bind fun layout => layout.get? stage.detector with
  | none => throw (.notPlaced stage.detector)
  | some placement => return { stage with placement := some placement }

def currentPrimaries (event : Nat) : Call m Primaries := do
  match ← Call.get? .primaries with
  | none => throw (.noPrimaries event)
  | some primaries =>
    if primaries.event = event then return primaries
    else throw (.stalePrimaries primaries.event event)

def step (stage : PlaneHistogram) (context : Context) : Call m PlaneHistogram := do
  match stage.placement, context.event with
  | none, _ => throw .histogramBeforeInit
  | _, none => throw .histogramOutsideEvent
  | some placement, some event =>
    let primaries ← currentPrimaries event
    return { stage with
      events := stage.events + 1
      histogram := countAll placement stage.histogram primaries.vertices }

def artifactPath (stage : PlaneHistogram) (directory : String) : String :=
  Artifact.path directory stage.id.name stage.detector

def artifact (stage : PlaneHistogram) (runId : RunId) : Artifact :=
  { module := stage.id.name
    detector := stage.detector
    runId
    events := stage.events
    histogram := stage.histogram }

variable [FileStore m]

/-- Writes the histogram into a directory, which is made if it is missing. What happens when the file is
closed is not looked at. -/
def store (stage : PlaneHistogram) (directory : String) (runId : RunId) :
    m (Except StageError Unit) := do
  match ← FileStore.makeDirectories directory with
  | .error cause => return .error (.createDirectory directory cause)
  | .ok () =>
    let path := stage.artifactPath directory
    match ← FileStore.writePieces path (stage.artifact runId).toJson.pieces with
    | .error cause => return .error (.createFile path cause)
    | .ok storing => return storing.passing.mapError (.writeHistogram path)

def finalize (stage : PlaneHistogram) (context : Context) : Call m Unit := do
  match context.global.get? "output_directory" with
  | none => return ()
  | some directory => ExceptT.mk (StateT.lift (stage.store directory.display context.runId))

end PlaneHistogram

end TestBeam.Stage
