import TestBeam.Proofs.Executor.Run

/-!
# Runs that nobody aborts

Where an abort is never asked for, no run ends with one. A run with a plan then fails exactly if one of its
constructions or calls does.
-/

namespace TestBeam

variable {σ ι α β : Type}

/-- The result is not that of an abort. -/
def NotAborted (result : Except RunError α) : Prop :=
  ∀ index id phase, result ≠ .error (.aborted index id phase)

theorem NotAborted.ok (a : α) : NotAborted (.ok a : Except RunError α) := by
  rintro index id phase h
  cases h

theorem NotAborted.error {error : RunError} (h : ∀ index id phase, error ≠ .aborted index id phase) :
    NotAborted (.error error : Except RunError α) :=
  fun index id phase heq => h index id phase (Except.error.inj heq)

theorem NotAborted.of_error {error : RunError} (h : NotAborted (.error error : Except RunError α)) :
    NotAborted (.error error : Except RunError β) := by
  rintro index id phase heq
  exact h index id phase (congrArg Except.error (Except.error.inj heq))

/-- A construction or a call that did not go well. -/
def Record.Fails : Record → Prop
  | .constructed _ failure => failure ≠ none
  | .checked _ => False
  | .called _ _ _ failure => failure ≠ none

namespace Environment

variable {env : Environment (StateM σ) ι}

theorem runPhase_notAborted (haborted : env.aborted = pure false) (context : Context)
    (phase : Phase) (instances : List (Instance ι)) (bus : RunBus) (world : σ) :
    NotAborted (((env.runPhase context phase instances).run bus).run world).1.1.1 := by
  induction instances generalizing bus world with
  | nil => exact .ok ()
  | cons i rest ih =>
    have hnext : env.aborted.run world = (false, world) := by
      rw [haborted]
      rfl
    rw [runPhase_cons_run, hnext]
    simp only [Bool.false_eq_true, if_false]
    rcases ((env.callInstance context phase i).run bus).run world with ⟨⟨result, after⟩, next⟩
    cases result with
    | error cause => exact .error (by simp)
    | ok called => exact ih after next

theorem runEvents_notAborted (haborted : env.aborted = pure false) (context : Context)
    (remaining event : Nat) (instances : List (Instance ι)) (bus : RunBus) (world : σ) :
    NotAborted (((env.runEvents context remaining event instances).run bus).run world).1.1.1 := by
  induction remaining generalizing event instances bus world with
  | zero => exact .ok ()
  | succ remaining ih =>
    have hphase := runPhase_notAborted haborted context (.event event) instances bus world
    rcases hrun : ((env.runPhase context (.event event) instances).run bus).run world with
      ⟨⟨⟨result, after⟩, bus₁⟩, world₁⟩
    rw [hrun] at hphase
    rw [runEvents, run_bind, hrun]
    cases result with
    | error e => exact hphase
    | ok done => exact ih (event + 1) after bus₁ world₁

theorem runPhases_notAborted (haborted : env.aborted = pure false) (context : Context)
    (events : Nat) (instances : List (Instance ι)) (bus : RunBus) (world : σ) :
    NotAborted (((env.runPhases context events instances).run bus).run world).1.1.1 := by
  have hinit := runPhase_notAborted haborted context .init instances bus world
  rcases hrun : ((env.runPhase context .init instances).run bus).run world with
    ⟨⟨⟨result, after⟩, bus₁⟩, world₁⟩
  rw [hrun] at hinit
  rw [runPhases, run_bind, hrun]
  cases result with
  | error e => exact hinit
  | ok done =>
    have hevents := runEvents_notAborted haborted context events 1 after bus₁ world₁
    rcases hrun₂ : ((env.runEvents context events 1 after).run bus₁).run world₁ with
      ⟨⟨⟨result, after₂⟩, bus₂⟩, world₂⟩
    rw [hrun₂] at hevents
    simp only [run_bind, hrun₂]
    cases result with
    | error e => exact hevents
    | ok done => exact runPhase_notAborted haborted context .finalize after₂ bus₂ world₂

theorem construct_notAborted (c : Configuration) (global : Entry) (detectors : DetectorTable)
    (planned : List PlannedInstance) (generator : Generator) (world : σ) :
    NotAborted ((env.construct c global detectors planned generator).run world).1 := by
  induction planned generalizing generator world with
  | nil => exact .ok []
  | cons p rest ih =>
    cases hresolve : env.registry.resolve p.id.name with
    | error cause =>
      rw [construct, hresolve]
      exact .error (by simp)
    | ok registration =>
      rw [env.construct_cons_run c global detectors hresolve]
      rcases (registration.factory (setupOf c global detectors p generator.next.1)).run world with
        ⟨result, next⟩
      cases result with
      | error cause => exact .error (by simp)
      | ok module =>
        have hrest := ih generator.next.2 next
        rcases hrun : (env.construct c global detectors rest generator.next.2).run next with
          ⟨result, last⟩
        rw [hrun] at hrest
        simp only [hrun]
        cases result with
        | error e => exact hrest.of_error
        | ok instances => exact .ok _

theorem execute_notAborted (haborted : env.aborted = pure false) (runId : RunId)
    (c : Configuration) (world : σ) : NotAborted ((env.execute runId c).run world).1 := by
  cases hprepare : env.prepare c with
  | error cause =>
    rw [execute, hprepare]
    exact .error (by simp)
  | ok prepared =>
    have hconstruct := env.construct_notAborted c prepared.global prepared.detectors
      prepared.planned (Generator.ofSeed prepared.settings.seed) world
    rw [env.execute_run hprepare]
    rcases hrun : (env.construct c prepared.global prepared.detectors prepared.planned
      (Generator.ofSeed prepared.settings.seed)).run world with ⟨result, next⟩
    rw [hrun] at hconstruct
    cases result with
    | error e => exact hconstruct.of_error
    | ok instances =>
      have hphases := runPhases_notAborted haborted
        ⟨prepared.global, prepared.detectors, runId, none⟩ prepared.settings.events instances
        Bus.empty next
      rcases hrun₂ : ((env.runPhases ⟨prepared.global, prepared.detectors, runId, none⟩
        prepared.settings.events instances).run Bus.empty).run next with
        ⟨⟨⟨result, after⟩, bus⟩, last⟩
      rw [hrun₂] at hphases
      simp only [hrun₂]
      cases result with
      | error e => exact hphases.of_error
      | ok done => exact .ok _

theorem run_notAborted (haborted : env.aborted = pure false) (runId : RunId) (c : Configuration)
    (world : σ) : NotAborted ((env.run runId c).run world).1 := by
  rw [run_run]
  rcases env.clock.run world with ⟨start, next⟩
  have hexecute := execute_notAborted haborted runId c next
  rcases hrun : (env.execute runId c).run next with ⟨result, last⟩
  rw [hrun] at hexecute
  simp only [hrun]
  cases result with
  | error e => exact hexecute.of_error
  | ok done => exact .ok _

end Environment

/-! ## What fails -/

theorem Record.GoesOn.not_fails {record : Record} (h : record.GoesOn) : ¬record.Fails := by
  cases record with
  | constructed id failure => exact fun hfails => hfails h
  | checked aborted => exact id
  | called id hook event failure => exact fun hfails => hfails h

/-- Without an abort a run fails exactly with something that it constructs or calls. -/
theorem Follows.fails_iff {steps : List Step} {log : List Record}
    {result : Except RunError α} (h : Follows steps log (failure? result))
    (haborted : NotAborted result) :
    (∃ record ∈ log, record.Fails) ↔ ∃ error, result = .error error := by
  cases result with
  | ok a =>
    have hgoes := (h.none_iff.mp rfl).2
    constructor
    · rintro ⟨record, hmem, hfails⟩
      exact absurd hfails (hgoes record hmem).not_fails
    · rintro ⟨error, h⟩
      cases h
  | error error =>
    refine ⟨fun _ => ⟨error, rfl⟩, fun _ => ?_⟩
    cases h with
    | stop hsplit hends =>
      cases hends with
      | construct slot cause =>
        exact ⟨.constructed slot.id (some cause), by simp, by simp [Record.Fails]⟩
      | call slot phase cause =>
        exact ⟨.called slot.id phase.hook phase.event? (some cause), by simp, by simp [Record.Fails]⟩
      | abort slot phase => exact absurd rfl (haborted _ _ _)

end TestBeam
