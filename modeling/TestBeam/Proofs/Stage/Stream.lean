import TestBeam.Proofs.Random
import TestBeam.Proofs.Stage.Accounting

/-!
# The stream of particles

A source draws its particles one after another from its generator, and an event only takes the next ones.
So the particles of all events are a stream that the settings and the seed determine, and the length of an
event only says where the stream is cut.
-/

namespace TestBeam

namespace Stage

/-! ## Samples -/

namespace SourceSettings

def behind (s : SourceSettings) (g : Generator) : Nat → Generator
  | 0 => g
  | count + 1 => (s.draw (behind s g count)).2

variable (s : SourceSettings)

/-- The particles that are drawn one after another. -/
def sample (g : Generator) (k : Nat) : PrimaryVertex :=
  (s.draw (s.behind g k)).1

theorem behind_add (g : Generator) (count more : Nat) :
    s.behind g (count + more) = s.behind (s.behind g count) more := by
  induction more with
  | zero => rfl
  | succ more ih => rw [← Nat.add_assoc, behind, behind, ih]

theorem sample_behind (g : Generator) (count : Nat) :
    s.sample (s.behind g count) = fun k => s.sample g (count + k) := by
  funext k
  unfold sample
  rw [behind_add]

theorem behind_draw (g : Generator) (count : Nat) :
    s.behind (s.draw g).2 count = s.behind g (count + 1) := by
  rw [Nat.add_comm count, behind_add]
  rfl

theorem sample_draw (g : Generator) : s.sample (s.draw g).2 = fun k => s.sample g (k + 1) := by
  funext k
  unfold sample
  rw [behind_draw]

/-- Particles that are drawn together are the first ones of the stream. -/
theorem drawMany_eq (count : Nat) (g : Generator) :
    s.drawMany count g = ((List.range count).map (s.sample g), s.behind g count) := by
  induction count generalizing g with
  | zero => rfl
  | succ count ih =>
    unfold drawMany
    simp only [ih, behind_draw, sample_draw]
    rw [List.range_succ_eq_map, List.map_cons, List.map_map]
    rfl

/--
A particle as the source draws it from ranges. A draw below a bound may take several outputs until one is
below it.
-/
inductive Samples (g : Generator) : PrimaryVertex × Generator → Prop where
  | beam {share angle : Float × Generator} (hshape : s.shape = .beam)
      (hshare : g.DrawsBelow 1 1 share) (hangle : share.2.DrawsBelow (2 * pi) (2 * pi) angle) :
      Samples g
        (⟨spotPoint s.position s.direction s.beamSize share.1 angle.1.cos angle.1.sin, s.direction,
          s.energy, s.particle⟩, angle.2)
  | point {angle : Float × Generator} (hshape : s.shape = .point)
      (hangle : g.cosine.2.DrawsBelow (2 * pi) (2 * pi) angle) :
      Samples g
        (⟨s.position,
          ⟨(1 - g.cosine.1 * g.cosine.1).sqrt * angle.1.cos,
            (1 - g.cosine.1 * g.cosine.1).sqrt * angle.1.sin, g.cosine.1⟩,
          s.energy, s.particle⟩, angle.2)

theorem draw_beam (h : s.shape = .beam) (g : Generator) :
    s.draw g =
      (⟨spotPoint s.position s.direction s.beamSize g.unit.1 (g.unit.2.below (2 * pi)).1.cos
          (g.unit.2.below (2 * pi)).1.sin, s.direction, s.energy, s.particle⟩, g.skip 2) := by
  unfold draw
  rw [h]
  rfl

theorem samples_iff (g : Generator) (drawn : PrimaryVertex × Generator) :
    s.Samples g drawn ↔ drawn = s.draw g := by
  constructor
  · intro h
    cases h with
    | beam hshape hshare hangle =>
      obtain rfl := (g.draws_once _).1.mp hshare
      obtain rfl := (g.unit.2.draws_once _).2.mp hangle
      rw [s.draw_beam hshape]
      rfl
    | point hshape hangle =>
      obtain rfl := (g.cosine.2.draws_once _).2.mp hangle
      unfold draw
      rw [hshape]
      rfl
  · rintro rfl
    cases hshape : s.shape with
    | beam =>
      rw [s.draw_beam hshape]
      exact .beam hshape ((g.draws_once _).1.mpr rfl) ((g.unit.2.draws_once _).2.mpr rfl)
    | point =>
      have hdraws := Samples.point hshape ((g.cosine.2.draws_once _).2.mpr rfl)
      unfold draw
      rw [hshape]
      exact hdraws

theorem draw_skip (g : Generator) : (s.draw g).2 = g.skip 2 := by
  unfold draw
  cases s.shape <;> rfl

theorem behind_eq_skip (g : Generator) (count : Nat) : s.behind g count = g.skip (2 * count) := by
  induction count with
  | zero => rfl
  | succ count ih =>
    rw [behind, ih, draw_skip]
    rfl

theorem samples_sample (g : Generator) (k : Nat) :
    s.Samples (g.skip (2 * k)) (s.sample g k, g.skip (2 * (k + 1))) := by
  rw [samples_iff, ← behind_eq_skip, ← behind_eq_skip]
  rfl

end SourceSettings

/-! ## Events -/

namespace ParticleSource

variable (s : ParticleSource)

/-- The part of the stream that event `k + 1` publishes. -/
def portion (k : Nat) : Primaries :=
  ⟨k + 1, (List.range s.settings.particlesPerEvent).map fun j =>
    s.settings.sample s.generator (k * s.settings.particlesPerEvent + j)⟩

theorem next_eq :
    s.next = ⟨s.settings, s.settings.behind s.generator s.settings.particlesPerEvent⟩ := by
  unfold next
  rw [SourceSettings.drawMany_eq]

theorem advance_eq (count : Nat) :
    s.advance count =
      ⟨s.settings, s.settings.behind s.generator (count * s.settings.particlesPerEvent)⟩ := by
  induction count generalizing s with
  | zero =>
    rw [Nat.zero_mul]
    rfl
  | succ count ih =>
    rw [advance, ih, next_eq]
    simp only
    rw [← SourceSettings.behind_add, Nat.succ_mul, Nat.add_comm]

theorem next_advance (count : Nat) : (s.advance count).next = s.advance (count + 1) := by
  rw [next_eq, advance_eq, advance_eq]
  simp only
  rw [← SourceSettings.behind_add, Nat.succ_mul]

theorem emission_advance (k : Nat) : (s.advance k).emission (k + 1) = s.portion k := by
  unfold emission portion
  rw [SourceSettings.drawMany_eq, advance_eq]
  simp only [SourceSettings.sample_behind]

theorem emissions_eq_map (event count : Nat) :
    s.emissions event count = (List.range count).map fun k => (s.advance k).emission (event + k) := by
  induction count generalizing s event with
  | zero => rfl
  | succ count ih =>
    rw [emissions, ih, List.range_succ_eq_map, List.map_cons, List.map_map]
    simp only [Function.comp_def, Nat.add_assoc, Nat.add_comm 1, Nat.succ_eq_add_one]
    rfl

theorem emissions_eq (count : Nat) : s.emissions 1 count = (List.range count).map s.portion := by
  rw [emissions_eq_map]
  simp only [Nat.add_comm 1, emission_advance]

theorem flatMap_portions (count : Nat) :
    ((List.range count).map s.portion).flatMap Primaries.vertices =
      (List.range (count * s.settings.particlesPerEvent)).map (s.settings.sample s.generator) := by
  induction count with
  | zero =>
    rw [Nat.zero_mul]
    rfl
  | succ count ih =>
    rw [List.range_succ, List.map_append, List.flatMap_append, ih, Nat.succ_mul, List.range_add,
      List.map_append, List.map_map]
    simp [portion, Function.comp_def]

theorem outcome_step {σ : Type} {context : Context} {event : Nat} (h : context.event = some event)
    (bus : RunBus) (world : σ) :
    (s.step context : Call (StateM σ) ParticleSource).outcome bus world =
      ((.ok s.next, bus.put .primaries (s.emission event)), world) := by
  unfold step
  rw [h]
  rfl

theorem outcome_step_advance {σ : Type} {context : Context} {k : Nat}
    (h : context.event = some (k + 1)) (bus : RunBus) (world : σ) :
    ((s.advance k).step context : Call (StateM σ) ParticleSource).outcome bus world =
      ((.ok (s.advance (k + 1)), bus.put .primaries (s.portion k)), world) := by
  rw [outcome_step _ h, next_advance, emission_advance]

end ParticleSource

end Stage

end TestBeam
