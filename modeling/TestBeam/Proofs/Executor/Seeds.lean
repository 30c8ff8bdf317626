import TestBeam.Proofs.Executor.Blueprints
import TestBeam.Proofs.Random

/-!
# Seeds

The instance at each position of a plan gets the output of the run's generator at that position, whatever
the instances in front of it are.
-/

namespace TestBeam

theorem RunSettings.seed_of_read {global : Entry} {settings : RunSettings}
    (h : read global = .ok settings) :
    ∃ seed, global.countOr "random_seed" 42 = .ok seed ∧ seed.toUInt64 = settings.seed := by
  unfold read at h
  obtain ⟨events, -, h⟩ := exists_of_bind_ok h
  obtain ⟨seed, hseed, h⟩ := exists_of_bind_ok h
  obtain rfl := Except.ok.inj h
  exact ⟨seed, hseed, rfl⟩

namespace Environment

variable {m : Type → Type} [Monad m] {ι : Type} (env : Environment m ι) {c : Configuration}
  {planned : List PlannedInstance}

/-- Constructing from a plan is constructing from setups whose seeds are the outputs in their order. -/
theorem construct_eq_seeded (c : Configuration) (global : Entry) (table : DetectorTable)
    (hregistered : ∀ p ∈ planned, ∃ registration,
      env.registry.resolve p.id.name = .ok registration) (generator : Generator) :
    ∃ blueprints : List (Blueprint (Setup → m (Except StageError ι))),
      blueprints.length = planned.length ∧
      (∀ k p, planned[k]? = some p → ∃ b, blueprints[k]? = some b ∧ b.planned = p ∧
        b.setup = setupOf c global table p (generator.outputAt k)) ∧
      env.construct c global table planned generator = Blueprint.constructAll blueprints := by
  induction planned generalizing generator with
  | nil => exact ⟨[], rfl, by simp, rfl⟩
  | cons p rest ih =>
    obtain ⟨registration, hresolve⟩ := hregistered p (by simp)
    obtain ⟨blueprints, hlength, hsetups, hconstruct⟩ :=
      ih (fun q hq => hregistered q (by simp [hq])) generator.next.2
    refine ⟨⟨p, registration, setupOf c global table p generator.next.1⟩ :: blueprints, ?_, ?_, ?_⟩
    · rw [List.length_cons, List.length_cons, hlength]
    · intro k q hq
      cases k with
      | zero =>
        obtain rfl := Option.some.inj hq
        exact ⟨_, rfl, rfl, rfl⟩
      | succ k =>
        -- The rest is constructed behind one output of the generator.
        have hseed : generator.outputAt (k + 1) = generator.next.2.outputAt k := by
          rw [Generator.outputAt_eq, Generator.outputAt_eq]
          change _ = generator.key.output (generator.position + 1 + k)
          rw [Nat.add_assoc, Nat.add_comm 1]
        rw [hseed]
        exact hsetups k q hq
    · rw [construct, hresolve]
      simp only [hconstruct]
      rfl

/-- The seeds of a run: each instance of the plan is constructed with the output at its position of the
generator that starts from `random_seed`. -/
def SeedsInOrder (c : Configuration) (planned : List PlannedInstance) : Prop :=
  ∃ prepared seed, ∃ blueprints : List (Blueprint (Setup → m (Except StageError ι))),
    env.prepare c = .ok prepared ∧ prepared.planned = planned ∧
    prepared.global.countOr "random_seed" 42 = .ok seed ∧
    blueprints.length = planned.length ∧
    (∀ k p, planned[k]? = some p → ∃ b, blueprints[k]? = some b ∧ b.planned = p ∧
      b.setup.seed = (Generator.ofSeed seed.toUInt64).outputAt k) ∧
    env.construct c prepared.global prepared.detectors planned
      (Generator.ofSeed prepared.settings.seed) = Blueprint.constructAll blueprints

theorem seedsInOrder {σ : Type} (env : Environment (StateM σ) ι)
    (hplan : c.plan env.registry = .ok planned) : env.SeedsInOrder c planned := by
  obtain ⟨prepared, hprepare, rfl, -, -⟩ := env.prepare_of_plan hplan
  obtain ⟨-, hsettings, -⟩ := env.reads_of_prepare hprepare
  obtain ⟨seed, hseed, hread⟩ := RunSettings.seed_of_read hsettings
  have hregistered : ∀ p ∈ prepared.planned, ∃ registration,
      env.registry.resolve p.id.name = .ok registration := by
    intro p hp
    obtain ⟨factory, hresolve⟩ :=
      Configuration.resolve_of_kind (Configuration.registered_of_plan hplan hp)
    exact ⟨_, hresolve⟩
  obtain ⟨blueprints, hlength, hsetups, hconstruct⟩ := env.construct_eq_seeded c prepared.global
    prepared.detectors hregistered (Generator.ofSeed prepared.settings.seed)
  refine ⟨prepared, seed, blueprints, hprepare, rfl, hseed, hlength, ?_, hconstruct⟩
  intro k p hp
  obtain ⟨b, hb, hbplanned, hsetup⟩ := hsetups k p hp
  refine ⟨b, hb, hbplanned, ?_⟩
  rw [hsetup, hread]
  rfl

end Environment

end TestBeam
