import TestBeam.Geometry.BeamSpot
import TestBeam.Module.Setup
import TestBeam.Random

/-!
# The particle source

The source starts the particles of every event. A beam starts in a disk and has one direction. A point
source emits in all directions. All draws of an instance come from its own seed, one after another.
-/

namespace TestBeam.Stage

open StageError (reading)

inductive SourceShape where
  | beam
  | point
  deriving DecidableEq, Repr

def SourceShape.name : SourceShape → String
  | .beam => "Beam"
  | .point => "Point"

structure SourceSettings where
  physicsList : String
  particle : String
  energy : Float
  position : Vec3 Float
  shape : SourceShape
  /-- The radius of the disk. -/
  beamSize : Float
  /-- A direction of length one. -/
  direction : Vec3 Float
  particlesPerEvent : Nat
  maxStepLength : Float

namespace SourceSettings

def ofEntry (entry : Entry) : Except StageError SourceSettings := do
  let word ← reading (entry.choiceOr "source_type" ["beam", "point"] "beam")
  let energy ← reading (entry.quantity "source_energy" .energy)
  Setup.ensure (0 < energy) (.notPositive "source_energy")
  let beamSize ← reading (entry.quantityOr "beam_size" .length "0mm")
  Setup.ensure (0 ≤ beamSize) (.negative "beam_size")
  let direction ← reading (entry.vectorOr "beam_direction" .dimensionless "0 0 1")
  let direction ← match direction.normalize? with
    | some unit => .ok unit
    | none => .error .nullDirection
  let particlesPerEvent ← reading (entry.countOr "number_of_particles" 1)
  Setup.ensure (0 < particlesPerEvent) (.belowOne "number_of_particles")
  let maxStepLength ← reading (entry.quantityOr "max_step_length" .length "1um")
  Setup.ensure (0 < maxStepLength) (.notPositive "max_step_length")
  let particle ← reading (entry.text "particle_type")
  let position ← reading (entry.vector "source_position" .length)
  return {
    physicsList := entry.textOr "physics_list" "FTFP_BERT_EMZ"
    particle
    energy
    position
    shape := if word = "point" then .point else .beam
    beamSize
    direction
    particlesPerEvent
    maxStepLength }

/-! ## Draws -/

/-- The start of a beam particle lies anywhere in the disk with equal probability. -/
def drawBeam (s : SourceSettings) (g : Generator) : (Vec3 Float × Vec3 Float) × Generator :=
  let (u, g) := g.unit
  let (phi, g) := g.below (2 * pi)
  ((spotPoint s.position s.direction s.beamSize u phi.cos phi.sin, s.direction), g)

def drawPoint (s : SourceSettings) (g : Generator) : (Vec3 Float × Vec3 Float) × Generator :=
  let (cosTheta, g) := g.cosine
  let sinTheta := (1 - cosTheta * cosTheta).sqrt
  let (phi, g) := g.below (2 * pi)
  ((s.position, ⟨sinTheta * phi.cos, sinTheta * phi.sin, cosTheta⟩), g)

def draw (s : SourceSettings) (g : Generator) : PrimaryVertex × Generator :=
  let ((position, direction), g) :=
    match s.shape with
    | .beam => s.drawBeam g
    | .point => s.drawPoint g
  (⟨position, direction, s.energy, s.particle⟩, g)

/-- A number of particles, drawn one after another. -/
def drawMany (s : SourceSettings) : Nat → Generator → List PrimaryVertex × Generator
  | 0, g => ([], g)
  | n + 1, g =>
    let (vertex, g) := s.draw g
    let (vertices, g) := drawMany s n g
    (vertex :: vertices, g)

end SourceSettings

/-! ## The stage -/

/-- Publishes the particles of each event. -/
structure ParticleSource where
  settings : SourceSettings
  generator : Generator

namespace ParticleSource

def name : String := "DepositionGeant4"

def ofSetup (setup : Setup) : Except StageError ParticleSource := do
  return ⟨← SourceSettings.ofEntry setup.entry, Generator.ofSeed setup.seed⟩

variable {m : Type → Type} [Monad m]

def init : Call m Unit := do
  Call.ensure (← Call.get? .geometry).isSome .depositionBeforeGeometry

def step (stage : ParticleSource) (context : Context) : Call m ParticleSource := do
  match context.event with
  | none => throw .depositionOutsideEvent
  | some event =>
    let settings := stage.settings
    let (vertices, generator) := settings.drawMany settings.particlesPerEvent stage.generator
    Call.put .primaries ⟨event, vertices⟩
    return { stage with generator }

end ParticleSource

end TestBeam.Stage
