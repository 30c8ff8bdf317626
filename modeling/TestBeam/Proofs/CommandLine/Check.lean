import TestBeam.CommandLine.Response
import TestBeam.Files.Tree
import TestBeam.Proofs.Stage.Environment

/-!
# What a check vouches for

A configuration that passes a check has a plan, so a run gets past everything that the plan depends on. The
log settings are not part of the plan: a check does not look at them, and a run refuses a word that it does
not know.
-/

namespace TestBeam

/-! ## Log settings -/

namespace LogSettings

/-- The text of a setting, in capital or small letters, is one of some words. -/
def IsWord {α : Type} (global : Entry) (key default : String) (words : List (String × α)) : Prop :=
  String.ofList ((global.textOr key default).toList.map Char.toUpper) ∈ words.map Prod.fst

structure Readable (global : Entry) : Prop where
  level : IsWord global "log_level" "WARNING" levels
  format : IsWord global "log_format" "DEFAULT" formats

theorem choose_ok_iff {α : Type} (global : Entry) (key default : String)
    (words : List (String × α)) :
    (∃ meaning, choose global key default words = .ok meaning) ↔ IsWord global key default words := by
  unfold choose IsWord
  dsimp only
  generalize String.ofList ((global.textOr key default).toList.map Char.toUpper) = word
  cases hlookup : words.lookup word with
  | none =>
    have habsent : word ∉ words.map Prod.fst := by
      rw [List.lookup_eq_none_iff] at hlookup
      rintro hword
      obtain ⟨pair, hpair, rfl⟩ := List.mem_map.mp hword
      simpa using hlookup pair hpair
    simp [habsent]
  | some meaning =>
    obtain ⟨before, after, rfl, -⟩ := List.lookup_eq_some_iff.mp hlookup
    simp

theorem read_ok_iff (global : Entry) :
    (∃ settings, read global = .ok settings) ↔ Readable global := by
  have hlevel := choose_ok_iff global "log_level" "WARNING" levels
  have hformat := choose_ok_iff global "log_format" "DEFAULT" formats
  have hreadable : Readable global ↔ IsWord global "log_level" "WARNING" levels ∧
      IsWord global "log_format" "DEFAULT" formats :=
    ⟨fun h => ⟨h.level, h.format⟩, fun h => ⟨h.1, h.2⟩⟩
  rw [hreadable, ← hlevel, ← hformat]
  exact exists_both_ok_iff _

end LogSettings

namespace CommandLine

variable {σ : Type} {c : Configuration} {selection : Selection} {world next : σ}

theorem checkLogSettings_ok_iff {global : Entry} (hglobal : c.global = some global) :
    checkLogSettings c = .ok () ↔ LogSettings.Readable global := by
  rw [← LogSettings.read_ok_iff]
  unfold checkLogSettings
  rw [hglobal, Option.getD_some]
  cases LogSettings.read global <;> simp [Except.map, Except.mapError]

theorem checkLogSettings_error {cause : ConfigurationError} (h : checkLogSettings c = .error cause) :
    ∃ setting, cause = .malformedSetting setting := by
  unfold checkLogSettings at h
  cases hread : LogSettings.read (c.global.getD (Entry.empty "Allpix")) with
  | error setting =>
    rw [hread] at h
    exact ⟨setting, (Except.error.inj h).symm⟩
  | ok settings =>
    rw [hread] at h
    cases h

/-! ## Commands in a world -/

def responseIn (world : σ) (command : StateM σ Response) : Response :=
  (command.run world).1

variable [FileStore (StateM σ)]

theorem configurationStatus_ne_zero (cause : ConfigurationError) :
    Failure.configurationStatus cause ≠ 0 := by
  unfold Failure.configurationStatus
  split <;> decide

/-- A check succeeds exactly if the configuration can be loaded and has a plan. -/
theorem check_succeeds_iff :
    (responseIn world (check selection)).status = 0 ↔
      ∃ c planned next, (load selection : StateM σ _).run world = (.ok c, next) ∧
        c.plan Stage.registry = .ok planned := by
  rcases hload : (load selection : StateM σ _).run world with ⟨loaded, after⟩
  unfold responseIn check
  rw [Environment.run_bind_world, hload]
  cases loaded with
  | error cause =>
    refine ⟨fun h => absurd h (configurationStatus_ne_zero cause), ?_⟩
    rintro ⟨c, planned, next, h, -⟩
    cases h
  | ok c =>
    cases hplan : c.plan Stage.registry with
    | error cause =>
      simp only [hplan]
      refine ⟨fun h => absurd h (configurationStatus_ne_zero cause), ?_⟩
      rintro ⟨c', planned, next, h, hplan'⟩
      cases h
      cases hplan.symm.trans hplan'
    | ok planned =>
      simp only [hplan]
      exact ⟨fun _ => ⟨c, planned, after, rfl, hplan⟩, fun _ => rfl⟩

/-- How a run ends whose configuration is not refused. -/
inductive Ends : Response → Prop where
  | completed (summary : RunSummary) : Ends (.success [finishedLine summary])
  | failed {error : RunError} (h : ∀ cause, error ≠ .configuration cause) :
      Ends (.failure [] (.run error))
  | unsaved (summary : RunSummary) (cause : SummaryError) :
      Ends (.failure [finishedLine summary] (.summary cause))

theorem Ends.status {response : Response} (h : Ends response) :
    response.status = 0 ∨ response.status = 2 ∨ response.status = 3 := by
  cases h with
  | completed summary => exact .inl rfl
  | @failed error h =>
    cases error with
    | configuration cause => exact absurd rfl (h cause)
    | construction index id cause => exact .inr (.inl rfl)
    | call index id phase cause => exact .inr (.inl rfl)
    | aborted index id phase => exact .inr (.inl rfl)
  | unsaved summary cause => exact .inr (.inr rfl)

section Loaded

variable {planned : List PlannedInstance} (runId : RunId) (clock : StateM σ Float)
  (summaryPath : Option String)

theorem run_ends (hload : (load selection : StateM σ _).run world = (.ok c, next))
    (hplan : c.plan Stage.registry = .ok planned) (hlog : checkLogSettings c = .ok ()) :
    Ends (responseIn world (run runId clock selection summaryPath)) := by
  have hrefused (cause : ConfigurationError) :
      (((Stage.environment clock).run runId c).run next).1 ≠ .error (.configuration cause) := by
    rw [Ne, run_configuration_iff, Stage.plan_environment, hplan]
    simp
  unfold responseIn run
  rw [Environment.run_bind_world, hload]
  simp only [hlog]
  rw [Environment.run_bind_world]
  rcases hrun : ((Stage.environment clock).run runId c).run next with ⟨result, after⟩
  rw [hrun] at hrefused
  cases result with
  | error error => exact .failed fun cause h => hrefused cause (congrArg Except.error h)
  | ok summary =>
    cases summaryPath with
    | none => exact .completed summary
    | some path =>
      simp only [Environment.run_bind_world]
      rcases (summary.write path : StateM σ _).run after with ⟨written, last⟩
      cases written with
      | error cause => exact .unsaved summary cause
      | ok done => exact .completed summary

theorem run_refuses_log_settings
    (hload : (load selection : StateM σ _).run world = (.ok c, next)) {cause : ConfigurationError}
    (hlog : checkLogSettings c = .error cause) :
    responseIn world (run runId clock selection summaryPath) =
      .failure [] (.configuration cause) := by
  unfold responseIn run
  rw [Environment.run_bind_world, hload]
  simp only [hlog]
  rfl

/--
After a check that succeeds, a run on the same file and overrides ends with a configuration failure
exactly if a log setting has no meaning. Otherwise it completes or fails in a module or in the summary file.
-/
theorem run_after_check (hcheck : (responseIn world (check selection)).status = 0) :
    ∃ c planned global next, (load selection : StateM σ _).run world = (.ok c, next) ∧
      c.plan Stage.registry = .ok planned ∧ c.global = some global ∧
      ((responseIn world (run runId clock selection summaryPath)).status = 1 ↔
        ¬LogSettings.Readable global) ∧
      (LogSettings.Readable global →
        Ends (responseIn world (run runId clock selection summaryPath))) := by
  obtain ⟨c, planned, next, hload, hplan⟩ := check_succeeds_iff.mp hcheck
  obtain ⟨global, hglobal, -⟩ := (Configuration.prepared_of_plan hplan).global
  refine ⟨c, planned, global, next, hload, hplan, hglobal, ?_⟩
  have hreadable := checkLogSettings_ok_iff hglobal
  cases hlog : checkLogSettings c with
  | error cause =>
    obtain ⟨setting, rfl⟩ := checkLogSettings_error hlog
    have hnot : ¬LogSettings.Readable global := by simp [← hreadable, hlog]
    rw [run_refuses_log_settings runId clock summaryPath hload hlog]
    exact ⟨⟨fun _ => hnot, fun _ => rfl⟩, fun h => absurd h hnot⟩
  | ok done =>
    have hends := run_ends runId clock summaryPath hload hplan hlog
    have hstatus := hends.status
    have h := hreadable.mp hlog
    exact ⟨⟨fun hone => by omega, fun hnot => absurd h hnot⟩, fun _ => hends⟩

end Loaded

/-! ## Log levels -/

def sampleText : String :=
  "[global]\nname = \"run\"\n\n" ++
    "[[modules]]\nname = \"DefaultDigitizer\"\n\n" ++
    "[[detectors]]\nname = \"dut\"\n[detectors.settings]\ntype = \"strip\"\n"

def sampleTree : FileTree where
  workingDirectory := []
  nodes := [(["run.toml"], .text sampleText)]

def leveled (level : String) : Selection :=
  ⟨"run.toml", ["log_level=" ++ level], []⟩

theorem run_after_check_debug :
    (responseIn sampleTree (check (leveled "debug"))).status = 0 ∧
      ∃ c planned global next,
        (load (leveled "debug") : StateM FileTree _).run sampleTree = (.ok c, next) ∧
        c.plan Stage.registry = .ok planned ∧ c.global = some global ∧
        ((responseIn sampleTree (run ⟨"id"⟩ (pure 0) (leveled "debug") none)).status = 1 ↔
          ¬LogSettings.Readable global) ∧
        (LogSettings.Readable global →
          Ends (responseIn sampleTree (run ⟨"id"⟩ (pure 0) (leveled "debug") none))) := by
  have hcheck : (responseIn sampleTree (check (leveled "debug"))).status = 0 := by decide +kernel
  exact ⟨hcheck, run_after_check ⟨"id"⟩ (pure 0) none hcheck⟩

/-- A check accepts a log level that a run on the same file and overrides refuses. -/
theorem check_overlooks_log_level :
    (responseIn sampleTree (check (leveled "loud"))).status = 0 ∧
      (responseIn sampleTree (run ⟨"id"⟩ (pure 0) (leveled "loud") none)).status = 1 := by
  constructor
  · decide +kernel
  · decide +kernel

end CommandLine

end TestBeam
