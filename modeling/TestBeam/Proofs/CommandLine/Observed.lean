import TestBeam.CommandLine.Response
import TestBeam.Proofs.Executor.Blueprints
import TestBeam.Proofs.Summary

/-!
# The command in a world

What a run of the command does, part by part, from what the world answers. In a world that also keeps records
of all constructions and calls it does the same, and adds none of its own.
-/

namespace TestBeam

namespace CommandLine

/-! ## Parts of the command -/

def decode (selection : Selection) (text : String) : Except ConfigurationError Configuration :=
  Configuration.parse text >>= fun c =>
    c.applyOptions selection.moduleOptions selection.detectorOptions

section Commands

variable {m : Type → Type} [Monad m] [FileStore m] {ι : Type}

/-- What is left to do behind a run that completed. -/
def finish (summaryPath : Option String) (summary : RunSummary) : m Response := do
  let output := [finishedLine summary]
  match summaryPath with
  | none => return .success output
  | some path =>
    match ← summary.write path with
    | .error e => return .failure output (.summary e)
    | .ok () => return .success output

/-- The command with modules and surroundings of any kind. -/
def runWith (env : Environment m ι) (runId : RunId) (selection : Selection)
    (summaryPath : Option String) : m Response := do
  match ← load selection with
  | .error e => return .failure [] (.configuration e)
  | .ok c =>
    match checkLogSettings c with
    | .error e => return .failure [] (.configuration e)
    | .ok () =>
      match ← env.run runId c with
      | .error e => return .failure [] (.run e)
      | .ok summary => finish summaryPath summary

theorem run_eq_runWith (runId : RunId) (clock : m Float) (selection : Selection)
    (summaryPath : Option String) :
    run runId clock selection summaryPath =
      runWith (Stage.environment clock) runId selection summaryPath :=
  rfl

end Commands

variable {σ τ ι : Type} {selection : Selection} {c : Configuration}

section Runs

variable [FileStore (StateM τ)] {env : Environment (StateM τ) ι} {runId : RunId}
  {summaryPath : Option String} {summary : RunSummary} {world next : τ}

theorem load_run :
    (load (m := StateM τ) selection).run world =
      match (FileStore.readText (m := StateM τ) selection.configuration).run world with
      | (.error cause, next) => (.error (.read selection.configuration cause), next)
      | (.ok text, next) => (decode selection text, next) := by
  rw [load, Environment.run_bind_world, Configuration.loadFrom, Environment.run_bind_world]
  rcases (FileStore.readText (m := StateM τ) selection.configuration).run world with ⟨result, next⟩
  cases result with
  | error cause => rfl
  | ok text =>
    unfold decode
    cases hparse : Configuration.parse text with
    | error cause => simp [hparse]; rfl
    | ok c => simp [hparse]; rfl

theorem finish_run_some (path : String) :
    (finish (m := StateM τ) (some path) summary).run world =
      match (FileStore.writePieces (m := StateM τ) path summary.toJson.pieces).run world with
      | (.error cause, next) =>
        (.failure [finishedLine summary] (.summary (.create path cause)), next)
      | (.ok ⟨.error cause, _⟩, next) =>
        (.failure [finishedLine summary] (.summary (.serialize path cause)), next)
      | (.ok ⟨.ok (), _⟩, next) => (.success [finishedLine summary], next) := by
  rw [finish, Environment.run_bind_world, RunSummary.run_write]
  rcases (FileStore.writePieces (m := StateM τ) path summary.toJson.pieces).run world with
    ⟨result, next⟩
  cases result with
  | error cause => rfl
  | ok storing =>
    obtain ⟨passing, closing⟩ := storing
    cases passing <;> rfl

theorem runWith_of_load_error {cause : ConfigurationError}
    (h : (load (m := StateM τ) selection).run world = (.error cause, next)) :
    (runWith env runId selection summaryPath).run world =
      (.failure [] (.configuration cause), next) := by
  rw [runWith, Environment.run_bind_world, h]
  rfl

theorem runWith_of_log_error {cause : ConfigurationError}
    (h : (load (m := StateM τ) selection).run world = (.ok c, next))
    (hlog : checkLogSettings c = .error cause) :
    (runWith env runId selection summaryPath).run world =
      (.failure [] (.configuration cause), next) := by
  rw [runWith, Environment.run_bind_world, h]
  simp only [hlog]
  rfl

theorem runWith_run (h : (load (m := StateM τ) selection).run world = (.ok c, next))
    (hlog : checkLogSettings c = .ok ()) :
    (runWith env runId selection summaryPath).run world =
      match (env.run runId c).run next with
      | (.error e, last) => (.failure [] (.run e), last)
      | (.ok summary, last) => (finish (m := StateM τ) summaryPath summary).run last := by
  rw [runWith, Environment.run_bind_world, h]
  simp only [hlog]
  rw [Environment.run_bind_world]
  rcases (env.run runId c).run next with ⟨result, last⟩
  cases result <;> rfl

end Runs

/-! ## Records of the command -/

/-- In a world that keeps records the command itself uses files as before. -/
instance [FileStore (StateM σ)] : FileStore (StateM (σ × List Record)) where
  Handle := FileStore.Handle (StateM σ)
  readText path := recording (FileStore.readText path) (fun _ => []) id
  makeDirectories path := recording (FileStore.makeDirectories path) (fun _ => []) id
  create path := recording (FileStore.create path) (fun _ => []) id
  append handle text := recording (FileStore.append (m := StateM σ) handle text) (fun _ => []) id

/-- The second action does in a world with records what the first one does, and records nothing. -/
def Unrecorded {α : Type} (action : StateM σ α) (beside : StateM (σ × List Record) α) : Prop :=
  ∀ world log, beside.run (world, log) = ((action.run world).1, ((action.run world).2, log))

namespace Unrecorded

variable {α β : Type} {action : StateM σ α} {beside : StateM (σ × List Record) α}

theorem pure (a : α) : Unrecorded (σ := σ) (Pure.pure a) (Pure.pure a) :=
  fun _ _ => rfl

theorem of_recording (action : StateM σ α) : Unrecorded action (recording action (fun _ => []) id) := by
  intro world log
  have hrun := recording_run (rfl : action.run world = (_, _)) (fun _ => []) id log
  rwa [List.append_nil] at hrun

theorem bind {next : α → StateM σ β} {nextBeside : α → StateM (σ × List Record) β}
    (h : Unrecorded action beside) (hnext : ∀ a, Unrecorded (next a) (nextBeside a)) :
    Unrecorded (action >>= next) (beside >>= nextBeside) := by
  intro world log
  rw [Environment.run_bind_world, h world log, Environment.run_bind_world]
  exact hnext _ _ log

variable [FileStore (StateM σ)]

theorem put (handle : FileStore.Handle (StateM σ)) (text : String) :
    Unrecorded (σ := σ) (FileStore.put handle text) (FileStore.put handle text) := by
  unfold FileStore.put
  split
  · exact .pure _
  · exact .of_recording _

theorem hold (handle : FileStore.Handle (StateM σ)) (held piece : String) :
    Unrecorded (σ := σ) (FileStore.hold handle held piece) (FileStore.hold handle held piece) := by
  unfold FileStore.hold
  split
  · exact .pure _
  · exact .bind (.of_recording _) fun _ => .pure _

theorem pass (handle : FileStore.Handle (StateM σ)) (held piece : String) :
    Unrecorded (σ := σ) (FileStore.pass handle held piece) (FileStore.pass handle held piece) := by
  unfold FileStore.pass
  split
  · exact .hold handle held piece
  · refine .bind (.put handle held) fun result => ?_
    cases result with
    | error cause => exact .pure _
    | ok done => exact .hold handle "" piece

theorem passAll (handle : FileStore.Handle (StateM σ)) (held : String) (pieces : List String) :
    Unrecorded (σ := σ) (FileStore.passAll handle held pieces)
      (FileStore.passAll handle held pieces) := by
  induction pieces generalizing held with
  | nil => exact .pure _
  | cons piece pieces ih =>
    refine .bind (.pass handle held piece) fun (result, behind) => ?_
    cases result with
    | error cause => exact .pure _
    | ok done => exact ih behind

theorem writePieces (path : String) (pieces : List String) :
    Unrecorded (σ := σ) (FileStore.writePieces path pieces) (FileStore.writePieces path pieces) := by
  refine .bind (.of_recording _) fun result => ?_
  cases result with
  | error cause => exact .pure _
  | ok handle =>
    refine .bind (.passAll handle "" pieces) fun (_, held) => ?_
    exact .bind (.put handle held) fun _ => .pure _

theorem load (selection : Selection) :
    Unrecorded (σ := σ) (CommandLine.load selection) (CommandLine.load selection) := by
  refine .bind (.bind (.of_recording _) fun result => ?_) fun result => ?_
  · cases result <;> exact .pure _
  · cases result <;> exact .pure _

theorem finish (summaryPath : Option String) (summary : RunSummary) :
    Unrecorded (σ := σ) (CommandLine.finish summaryPath summary)
      (CommandLine.finish summaryPath summary) := by
  cases summaryPath with
  | none => exact .pure _
  | some path =>
    refine .bind (.bind (.writePieces path _) fun result => ?_) fun result => ?_
    · cases result <;> exact .pure _
    · cases result <;> exact .pure _

end Unrecorded

section Observed

variable [FileStore (StateM σ)] {world next : σ} {log : List Record}

def observedRun (runId : RunId) (clock : StateM σ Float) (selection : Selection)
    (summaryPath : Option String) : StateM (σ × List Record) Response :=
  runWith (Stage.environment clock).observed runId selection summaryPath

theorem load_observed {result : Except ConfigurationError Configuration}
    (h : (load (m := StateM σ) selection).run world = (result, next)) (log : List Record) :
    (load (m := StateM (σ × List Record)) selection).run (world, log) = (result, (next, log)) := by
  rw [Unrecorded.load selection world log, h]

theorem finish_observed {summaryPath : Option String} {summary : RunSummary} {response : Response}
    (h : (finish (m := StateM σ) summaryPath summary).run world = (response, next))
    (log : List Record) :
    (finish (m := StateM (σ × List Record)) summaryPath summary).run (world, log) =
      (response, (next, log)) := by
  rw [Unrecorded.finish summaryPath summary world log, h]

end Observed

end CommandLine

end TestBeam
