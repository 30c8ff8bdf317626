import TestBeam.Proofs.Decimal.Signs
import TestBeam.Proofs.Geometry.BeamSpot
import TestBeam.Proofs.Stage.Stream

/-!
# Where the particles of a beam start

A beam has a direction of length one, and its particles start in a disk that is perpendicular to it. What the
source draws for a particle is a share of the area of the disk and an angle.
-/

namespace TestBeam

theorem Generator.unit_nonneg (g : Generator) : 0 ≤ g.unit.1 := by
  rcases g.unit_cases with h | ⟨n, v, h⟩
  · rw [h]
    decide +kernel
  · apply Decimal.zero_le_of_zero_lt
    rw [Decimal.zero_lt_iff, h.unpack, Decimal.Magnitude.unpacked, dif_neg]
    · rfl
    · exact ((Nat.two_pow_pos 52).trans_le h.full).ne'

namespace Stage

/-! ## Settings -/

theorem SourceSettings.beamSize_nonneg {entry : Entry} {s : SourceSettings}
    (h : ofEntry entry = .ok s) : 0 ≤ s.beamSize := by
  have hread := (reads_of_ofEntry h).beamSize
  unfold ofEntry at h
  obtain ⟨word, -, h⟩ := exists_of_bind_ok h
  obtain ⟨energy, -, h⟩ := exists_of_bind_ok h
  obtain ⟨-, -, h⟩ := exists_of_bind_ok h
  obtain ⟨beamSize, hbeamSize, h⟩ := exists_of_bind_ok h
  obtain ⟨done, hnonneg, -⟩ := exists_of_bind_ok h
  have hsame : beamSize = s.beamSize :=
    Except.ok.inj ((mapError_ok_iff.mp hbeamSize).symm.trans hread)
  rw [hsame] at hnonneg
  unfold Setup.ensure at hnonneg
  split at hnonneg
  · rename_i hle
    exact of_decide_eq_true hle
  · cases hnonneg

/-! ## Draws -/

/--
A particle of a beam that a generator draws: its share of the disk is one output, and its angle the next one.
-/
structure SourceSettings.StartsInSpot (s : SourceSettings) (g : Generator) (vertex : PrimaryVertex) :
    Prop where
  direction : vertex.direction = s.direction
  position : vertex.position =
    spotPoint s.position s.direction s.beamSize g.unit.1 (g.unit.2.below (2 * pi)).1.cos
      (g.unit.2.below (2 * pi)).1.sin
  share_nonneg : 0 ≤ g.unit.1
  share_lt : g.unit.1 < 1

theorem SourceSettings.startsInSpot_draw {s : SourceSettings} (h : s.shape = .beam)
    (g : Generator) : s.StartsInSpot g (s.draw g).1 := by
  rw [s.draw_beam h]
  exact ⟨rfl, rfl, g.unit_nonneg, g.unit_lt_one⟩

theorem ParticleSource.startsInSpot_emission {s : ParticleSource} (h : s.settings.shape = .beam)
    (event k : Nat) (vertex : PrimaryVertex)
    (hvertex : (s.emission event).vertices[k]? = some vertex) :
    s.settings.StartsInSpot (s.generator.skip (2 * k)) vertex := by
  unfold emission at hvertex
  rw [SourceSettings.drawMany_eq, List.getElem?_map] at hvertex
  obtain ⟨index, hindex, rfl⟩ := Option.map_eq_some_iff.mp hvertex
  obtain ⟨hlt, rfl⟩ := List.getElem?_eq_some_iff.mp hindex
  rw [List.getElem_range, SourceSettings.sample, SourceSettings.behind_eq_skip]
  exact SourceSettings.startsInSpot_draw h _

/--
Read over the reals, a beam of any direction that is accepted starts in a disk. Two directions span it, which
are orthonormal together with that of the beam, and no point is further from its centre than the radius. The
source draws all particles of a beam as points of this form, each from the next two outputs of its generator.
-/
theorem beam_starts_in_spot :
    (∀ b d : Vec3 ℝ, b.normalize? = some d →
      ∃ u, SpannedBy d u (d.cross u) ∧
        ∀ centre radius share cosine sine, 0 ≤ radius → 0 ≤ share → share < 1 →
          cosine * cosine + sine * sine = 1 →
            LiesInSpot centre d radius (radius * √share)
              (spotPoint centre d radius share cosine sine)) ∧
    (∀ entry s, SourceSettings.ofEntry entry = .ok s →
      (∃ b, entry.vectorOr "beam_direction" .dimensionless "0 0 1" = .ok b ∧
        b.normalize? = some s.direction) ∧ 0 ≤ s.beamSize) ∧
    ∀ (σ : Type) (s : ParticleSource) (context : Context) event (bus : RunBus) (world : σ),
      s.settings.shape = .beam → context.event = some event →
        ∃ vertices, (s.step context : Call (StateM σ) ParticleSource).outcome bus world =
            ((.ok ⟨s.settings, s.generator.skip (2 * s.settings.particlesPerEvent)⟩,
              bus.put .primaries ⟨event, vertices⟩), world) ∧
          vertices.length = s.settings.particlesPerEvent ∧
          ∀ k vertex, vertices[k]? = some vertex →
            s.settings.StartsInSpot (s.generator.skip (2 * k)) vertex := by
  refine ⟨?_, ?_, ?_⟩
  · intro b d h
    obtain ⟨u, hspanned⟩ := exists_spannedBy (Vec3.dot_self_of_normalize? h)
    refine ⟨u, hspanned, fun centre radius share cosine sine hradius _ hshare hangle => ?_⟩
    exact hspanned.liesInSpot centre hradius hshare.le hangle
  · intro entry s h
    exact ⟨(SourceSettings.reads_of_ofEntry h).direction, SourceSettings.beamSize_nonneg h⟩
  · intro σ s context event bus world hshape hevent
    refine ⟨(s.emission event).vertices, ?_, ?_, s.startsInSpot_emission hshape event⟩
    · rw [s.outcome_step hevent, s.next_eq, SourceSettings.behind_eq_skip]
      rfl
    · exact s.settings.length_drawMany _ _

def wideBeam : Entry :=
  Entry.ofPairs ParticleSource.name [
    ("particle_type", .text "e-"), ("source_energy", .text "5GeV"), ("source_position", .text "0 0 0"),
    ("beam_size", .text "2mm"), ("beam_direction", .text "0 0 2")]

theorem beam_starts_in_spot_wide :
    (∃ u, SpannedBy ⟨0, 0, 1⟩ u (Vec3.cross ⟨0, 0, 1⟩ u) ∧
      LiesInSpot ⟨1, 0, 0⟩ ⟨0, 0, 1⟩ 2 (2 * √(1 / 4))
        (spotPoint ⟨1, 0, 0⟩ ⟨0, 0, 1⟩ 2 (1 / 4) (3 / 5) (4 / 5))) ∧
    ∃ s, SourceSettings.ofEntry wideBeam = .ok s ∧ 0 ≤ s.beamSize ∧
      ∃ vertices,
        ((⟨s, .ofSeed 42⟩ : ParticleSource).step ⟨beamlineGlobal, ⟨[]⟩, ⟨"id"⟩, some 1⟩ :
          Call (StateM Unit) ParticleSource).outcome Bus.empty () =
            ((.ok ⟨s, (Generator.ofSeed 42).skip (2 * s.particlesPerEvent)⟩,
              Bus.empty.put .primaries ⟨1, vertices⟩), ()) ∧
        vertices.length = s.particlesPerEvent ∧
        ∀ k vertex, vertices[k]? = some vertex →
          s.StartsInSpot ((Generator.ofSeed 42).skip (2 * k)) vertex := by
  obtain ⟨hspot, hsettings, hdraws⟩ := beam_starts_in_spot
  constructor
  · have hlength : (⟨0, 0, 2⟩ : Vec3 ℝ).length = 2 :=
      Vec3.length_of_dot_self zero_le_two (by norm_num [Vec3.dot])
    have hunit : (⟨0, 0, 2⟩ : Vec3 ℝ).normalize? = some ⟨0, 0, 1⟩ := by
      rw [Vec3.normalize?_eq_some_iff, hlength]
      norm_num [Scalar.tolerance, Vec3.scale_eq]
    obtain ⟨u, hspanned, hpoint⟩ := hspot ⟨0, 0, 2⟩ ⟨0, 0, 1⟩ hunit
    refine ⟨u, hspanned, hpoint ⟨1, 0, 0⟩ 2 (1 / 4) (3 / 5) (4 / 5) ?_ ?_ ?_ ?_⟩ <;> norm_num
  · have hshape : (SourceSettings.ofEntry wideBeam).toOption.map SourceSettings.shape = some .beam := by
      decide +kernel
    cases hs : SourceSettings.ofEntry wideBeam with
    | error cause =>
      rw [hs] at hshape
      cases hshape
    | ok s =>
      rw [hs] at hshape
      exact ⟨s, rfl, (hsettings wideBeam s hs).2,
        hdraws Unit ⟨s, .ofSeed 42⟩ _ 1 Bus.empty () (Option.some.inj hshape) rfl⟩

end Stage

end TestBeam
