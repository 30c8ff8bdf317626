import TestBeam.Proofs.CommandLine.Check
import TestBeam.Proofs.CommandLine.Observed
import TestBeam.Proofs.CommandLine.Refusal
import TestBeam.Proofs.Executor.Unaborted

/-!
# What the status of a run tells

A run of the command ends in one of a few ways, and its status tells which: the configuration file cannot be
read, something refuses the configuration, a module fails, the summary cannot be stored, or all goes well.
Only a summary whose last part is lost when its file is closed passes for one that is stored.
-/

namespace TestBeam

namespace CommandLine

/-! ## Before the run -/

/-- Parsing, an override, the log settings or the plan refuses the text of a configuration. -/
inductive Rejects (selection : Selection) (text : String) : Prop where
  | parsing {cause : ConfigurationError} (h : Configuration.parse text = .error cause)
  | override {c : Configuration} {cause : ConfigurationError}
      (hparse : Configuration.parse text = .ok c)
      (h : c.applyOptions selection.moduleOptions selection.detectorOptions = .error cause)
  | logSettings {c : Configuration} {cause : ConfigurationError}
      (hdecode : decode selection text = .ok c) (h : checkLogSettings c = .error cause)
  | plan {c : Configuration} {cause : ConfigurationError}
      (hdecode : decode selection text = .ok c) (h : c.plan Stage.registry = .error cause)

variable {selection : Selection} {text : String} {c : Configuration}

theorem Rejects.of_decode {cause : ConfigurationError} (h : decode selection text = .error cause) :
    Rejects selection text := by
  rcases error_of_bind h with hparse | ⟨c, hparse, hoptions⟩
  · exact .parsing hparse
  · exact .override hparse hoptions

theorem decode_refuses (selection : Selection) (text : String) : Refuses (decode selection text) :=
  (parse_refuses text).bind fun c => applyOptions_refuses c _ _

theorem not_rejects_iff (hdecode : decode selection text = .ok c) :
    ¬Rejects selection text ↔
      checkLogSettings c = .ok () ∧ ∃ planned, c.plan Stage.registry = .ok planned := by
  constructor
  · intro h
    constructor
    · cases hlog : checkLogSettings c with
      | error cause => exact absurd (.logSettings hdecode hlog) h
      | ok done => rfl
    · cases hplan : c.plan Stage.registry with
      | error cause => exact absurd (.plan hdecode hplan) h
      | ok planned => exact ⟨planned, rfl⟩
  · rintro ⟨hlog, planned, hplan⟩ h
    obtain ⟨first, hfirst, hoptions⟩ := exists_of_bind_ok hdecode
    cases h with
    | parsing h => cases hfirst.symm.trans h
    | override hparse h =>
      obtain rfl := Except.ok.inj (hfirst.symm.trans hparse)
      cases hoptions.symm.trans h
    | logSettings hother h =>
      obtain rfl := Except.ok.inj (hdecode.symm.trans hother)
      cases hlog.symm.trans h
    | plan hother h =>
      obtain rfl := Except.ok.inj (hdecode.symm.trans hother)
      cases hplan.symm.trans h

/-! ## Ways to end -/

theorem status_run {error : RunError} (h : ∀ cause, error ≠ .configuration cause) :
    (Failure.run error).status = 2 := by
  cases error with
  | configuration cause => exact absurd rfl (h cause)
  | construction index id cause => rfl
  | call index id phase cause => rfl
  | aborted index id phase => rfl

variable {σ : Type}

section Observed

variable [FileStore (StateM σ)] {world next : σ} {log : List Record}

def Unreadable (selection : Selection) (world : σ) : Prop :=
  ∃ cause next, (FileStore.readText (m := StateM σ) selection.configuration).run world =
    (.error cause, next)

/-- The file is read, and its text is refused. -/
def Rejected (selection : Selection) (world : σ) : Prop :=
  ∃ text next, (FileStore.readText (m := StateM σ) selection.configuration).run world =
    (.ok text, next) ∧ Rejects selection text

/-- The file is read, and nothing refuses the configuration in it. -/
def Accepts (selection : Selection) (world : σ) (c : Configuration) (next : σ) : Prop :=
  ∃ text, (FileStore.readText (m := StateM σ) selection.configuration).run world =
    (.ok text, next) ∧ decode selection text = .ok c ∧ ¬Rejects selection text

def Accepted (selection : Selection) (world : σ) : Prop :=
  ∃ c next, Accepts selection world c next

def Completes (clock : StateM σ Float) (runId : RunId) (selection : Selection) (world : σ)
    (summary : RunSummary) (next : σ) : Prop :=
  ∃ c after, Accepts selection world c after ∧
    ((Stage.environment clock).run runId c).run after = (.ok summary, next)

/-- The run completes, and this comes of storing its summary. -/
def Stores (clock : StateM σ Float) (runId : RunId) (selection : Selection)
    (summaryPath : Option String) (world : σ) (result : Except FileError FileStore.Storing) : Prop :=
  ∃ summary next path last, Completes clock runId selection world summary next ∧
    summaryPath = some path ∧
    (FileStore.writePieces (m := StateM σ) path summary.toJson.pieces).run next = (result, last)

/-- The run completes, and its summary cannot be stored, as a whole or in part. -/
def Unsaved (clock : StateM σ Float) (runId : RunId) (selection : Selection)
    (summaryPath : Option String) (world : σ) : Prop :=
  ∃ result, Stores clock runId selection summaryPath world result ∧ result ≠ .ok ⟨.ok (), .ok ()⟩

/-- The run completes, and of its summary only that part cannot be stored which the buffer still holds when
the file is closed. -/
def Lost (clock : StateM σ Float) (runId : RunId) (selection : Selection)
    (summaryPath : Option String) (world : σ) : Prop :=
  ∃ cause, Stores clock runId selection summaryPath world (.ok ⟨.ok (), .error cause⟩)

/-- The world behind the reading of the configuration file and looks at the clock. -/
inductive Untouched (clock : StateM σ Float) (selection : Selection) (world : σ) : σ → Prop where
  | read : Untouched clock selection world
      ((FileStore.readText (m := StateM σ) selection.configuration).run world).2
  | clock {next : σ} (h : Untouched clock selection world next) :
      Untouched clock selection world (clock.run next).2

/-- How the command ends, with the world and the records that it leaves. -/
inductive Outcome (clock : StateM σ Float) (runId : RunId) (selection : Selection)
    (summaryPath : Option String) (world : σ) : Response → σ → List Record → Prop where
  | unreadable {response : Response} {next : σ} (h : Unreadable selection world)
      (huntouched : Untouched clock selection world next) (hstatus : response.status = 3) :
      Outcome clock runId selection summaryPath world response next []
  | rejected {response : Response} {next : σ} (h : Rejected selection world)
      (huntouched : Untouched clock selection world next) (hstatus : response.status = 1) :
      Outcome clock runId selection summaryPath world response next []
  | failed {response : Response} {next : σ} {log : List Record} (h : Accepted selection world)
      (hincomplete : ∀ summary stored, ¬Completes clock runId selection world summary stored)
      (hfails : ∃ record ∈ log, record.Fails) (hstatus : response.status = 2) :
      Outcome clock runId selection summaryPath world response next log
  | unsaved {response : Response} {next : σ} {log : List Record}
      (h : Unsaved clock runId selection summaryPath world)
      (hreported : ¬Lost clock runId selection summaryPath world)
      (hgoes : ¬∃ record ∈ log, record.Fails) (hstatus : response.status = 3) :
      Outcome clock runId selection summaryPath world response next log
  | finished {response : Response} {next : σ} {log : List Record}
      (h : Accepted selection world)
      (hsaved : Unsaved clock runId selection summaryPath world →
        Lost clock runId selection summaryPath world)
      (hgoes : ¬∃ record ∈ log, record.Fails) (hstatus : response.status = 0) :
      Outcome clock runId selection summaryPath world response next log

theorem Accepts.unique {c c' : Configuration} {next next' : σ}
    (h : Accepts selection world c next) (h' : Accepts selection world c' next') :
    c' = c ∧ next' = next := by
  obtain ⟨text, hread, hdecode, -⟩ := h
  obtain ⟨text', hread', hdecode', -⟩ := h'
  cases hread.symm.trans hread'
  cases hdecode.symm.trans hdecode'
  exact ⟨rfl, rfl⟩

theorem Accepted.not_unreadable (h : Accepted selection world) : ¬Unreadable selection world := by
  obtain ⟨c, after, text, hread, -⟩ := h
  rintro ⟨cause, next, hread'⟩
  cases hread.symm.trans hread'

theorem Accepted.not_rejected (h : Accepted selection world) : ¬Rejected selection world := by
  obtain ⟨c, after, text, hread, -, hnot⟩ := h
  rintro ⟨text', next, hread', hrejects⟩
  cases hread.symm.trans hread'
  exact hnot hrejects

theorem Rejected.not_unreadable (h : Rejected selection world) : ¬Unreadable selection world := by
  obtain ⟨text, after, hread, -⟩ := h
  rintro ⟨cause, next, hread'⟩
  cases hread.symm.trans hread'

theorem Stores.accepted {clock : StateM σ Float} {runId : RunId} {summaryPath : Option String}
    {result : Except FileError FileStore.Storing}
    (h : Stores clock runId selection summaryPath world result) : Accepted selection world := by
  obtain ⟨summary, next, path, last, ⟨c, after, haccepts, -⟩, -, -⟩ := h
  exact ⟨c, after, haccepts⟩

theorem Unsaved.accepted {clock : StateM σ Float} {runId : RunId} {summaryPath : Option String}
    (h : Unsaved clock runId selection summaryPath world) : Accepted selection world := by
  obtain ⟨result, hstores, -⟩ := h
  exact hstores.accepted

theorem Lost.unsaved {clock : StateM σ Float} {runId : RunId} {summaryPath : Option String}
    (h : Lost clock runId selection summaryPath world) :
    Unsaved clock runId selection summaryPath world := by
  obtain ⟨cause, hstores⟩ := h
  exact ⟨_, hstores, by simp⟩

theorem completes_iff {clock : StateM σ Float} {runId : RunId} {c : Configuration}
    {after stored : σ} {summary : RunSummary} (h : Accepts selection world c after) :
    Completes clock runId selection world summary stored ↔
      ((Stage.environment clock).run runId c).run after = (.ok summary, stored) := by
  constructor
  · rintro ⟨c', after', haccepts, hrun⟩
    obtain ⟨rfl, rfl⟩ := h.unique haccepts
    exact hrun
  · exact fun hrun => ⟨c, after, h, hrun⟩

theorem Completes.unique {clock : StateM σ Float} {runId : RunId} {summary found : RunSummary}
    {stored last : σ} (h : Completes clock runId selection world summary stored)
    (hfound : Completes clock runId selection world found last) : found = summary ∧ last = stored := by
  obtain ⟨c, after, haccepts, hrun⟩ := h
  rw [completes_iff haccepts, hrun] at hfound
  cases hfound
  exact ⟨rfl, rfl⟩

theorem stores_iff {clock : StateM σ Float} {runId : RunId} {summary : RunSummary} {stored : σ}
    (h : Completes clock runId selection world summary stored) (path : String)
    (result : Except FileError FileStore.Storing) :
    Stores clock runId selection (some path) world result ↔
      ((FileStore.writePieces (m := StateM σ) path summary.toJson.pieces).run stored).1 = result := by
  constructor
  · rintro ⟨found, next, path', last, hfound, hpath, hwrite⟩
    obtain ⟨rfl, rfl⟩ := h.unique hfound
    cases hpath
    rw [hwrite]
  · rintro rfl
    exact ⟨summary, stored, path, _, h, rfl, rfl⟩

section Ends

variable (runId : RunId) (clock : StateM σ Float) (selection : Selection)
  (summaryPath : Option String) (world : σ)

/-- Behind a run that completed only the summary can fail. -/
theorem outcome_of_completes {summary : RunSummary} {stored next : σ} {response : Response}
    {log : List Record} (h : Completes clock runId selection world summary stored)
    (hgoes : ¬∃ record ∈ log, record.Fails)
    (hfinish : (finish (m := StateM σ) summaryPath summary).run stored = (response, next)) :
    Outcome clock runId selection summaryPath world response next log := by
  have haccepted : Accepted selection world := by
    obtain ⟨c, after, haccepts, -⟩ := h
    exact ⟨c, after, haccepts⟩
  cases summaryPath with
  | none =>
    cases hfinish
    refine .finished haccepted ?_ hgoes rfl
    rintro ⟨_, ⟨_, _, _, _, -, hpath, -⟩, -⟩
    cases hpath
  | some path =>
    have hstores := stores_iff h path
    rcases hwrite : (FileStore.writePieces (m := StateM σ) path summary.toJson.pieces).run stored with
      ⟨result, last⟩
    rw [finish_run_some, hwrite] at hfinish
    rw [hwrite] at hstores
    -- Failures are reported up to the closing of the file.
    match result with
    | .error cause =>
      cases hfinish
      refine .unsaved ⟨_, (hstores _).mpr rfl, nofun⟩ ?_ hgoes rfl
      rintro ⟨_, hlost⟩
      cases (hstores _).mp hlost
    | .ok ⟨.error cause, closing⟩ =>
      cases hfinish
      refine .unsaved ⟨_, (hstores _).mpr rfl, by simp⟩ ?_ hgoes rfl
      rintro ⟨_, hlost⟩
      cases (hstores _).mp hlost
    | .ok ⟨.ok (), .error cause⟩ =>
      cases hfinish
      exact .finished haccepted (fun _ => ⟨cause, (hstores _).mpr rfl⟩) hgoes rfl
    | .ok ⟨.ok (), .ok ()⟩ =>
      cases hfinish
      refine .finished haccepted ?_ hgoes rfl
      rintro ⟨result, hunsaved, hne⟩
      exact absurd ((hstores _).mp hunsaved).symm hne

theorem outcome_of_plan {text : String} {c : Configuration} {after : σ}
    {planned : List PlannedInstance}
    (hread : (FileStore.readText (m := StateM σ) selection.configuration).run world =
      (.ok text, after))
    (hdecode : decode selection text = .ok c) (hlog : checkLogSettings c = .ok ())
    (hplan : c.plan Stage.registry = .ok planned) :
    ∃ response next log,
      (run runId clock selection summaryPath).run world = (response, next) ∧
      (observedRun runId clock selection summaryPath).run (world, []) = (response, (next, log)) ∧
      Outcome clock runId selection summaryPath world response next log := by
  have haccepts : Accepts selection world c after :=
    ⟨text, hread, hdecode, (not_rejects_iff hdecode).mpr ⟨hlog, planned, hplan⟩⟩
  have hload : (load (m := StateM σ) selection).run world = (.ok c, after) := by
    rw [load_run, hread]
    simp only [hdecode]
  have hregistry : c.plan (Stage.environment clock).registry = .ok planned := by
    rw [Stage.plan_environment, hplan]
  obtain ⟨global, events, result, stored, log, -, -, hplain, hobserved, hfollows⟩ :=
    (Stage.environment clock).run_observed hregistry runId after []
  -- Nobody asks for an abort, so only a record that fails ends the run early.
  have hfails : (∃ record ∈ log, record.Fails) ↔ ∃ error, result = .error error := by
    apply hfollows.fails_iff
    have hnot : NotAborted (((Stage.environment clock).run runId c).run after).1 :=
      Environment.run_notAborted rfl runId c after
    rwa [hplain] at hnot
  rw [run_eq_runWith, observedRun, runWith_run hload hlog, hplain,
    runWith_run (load_observed hload []) hlog, hobserved]
  cases result with
  | error error =>
    refine ⟨_, stored, log, rfl, rfl, .failed ⟨c, after, haccepts⟩ ?_ (hfails.mpr ⟨error, rfl⟩) ?_⟩
    · intro summary last h
      rw [completes_iff haccepts, hplain] at h
      cases h
    · apply status_run
      rintro cause rfl
      have hrefused := (run_configuration_iff (Stage.environment clock) runId after cause).mp
        (congrArg Prod.fst hplain)
      cases hregistry.symm.trans hrefused
  | ok summary =>
    have hgoes : ¬∃ record ∈ log, record.Fails := by simp [hfails]
    rcases hfinish : (finish (m := StateM σ) summaryPath summary).run stored with ⟨response, next⟩
    refine ⟨response, next, log, hfinish, finish_observed hfinish log, ?_⟩
    exact outcome_of_completes runId clock selection summaryPath world
      ((completes_iff haccepts).mpr hplain) hgoes hfinish

theorem exists_outcome :
    ∃ response next log,
      (run runId clock selection summaryPath).run world = (response, next) ∧
      (observedRun runId clock selection summaryPath).run (world, []) = (response, (next, log)) ∧
      Outcome clock runId selection summaryPath world response next log := by
  rcases hread : (FileStore.readText (m := StateM σ) selection.configuration).run world with
    ⟨result, after⟩
  have huntouched : Untouched clock selection world after := by
    have hbehind : Untouched clock selection world
        ((FileStore.readText (m := StateM σ) selection.configuration).run world).2 := .read
    rwa [hread] at hbehind
  rw [run_eq_runWith, observedRun]
  -- So far only the file was read. A run without a plan also looks at the clock.
  cases result with
  | error cause =>
    have hload : (load (m := StateM σ) selection).run world =
        (.error (.read selection.configuration cause), after) := by
      rw [load_run, hread]
    exact ⟨_, after, [], runWith_of_load_error hload,
      runWith_of_load_error (load_observed hload []), .unreadable ⟨cause, after, hread⟩ huntouched rfl⟩
  | ok text =>
    have hload : (load (m := StateM σ) selection).run world = (decode selection text, after) := by
      rw [load_run, hread]
    cases hdecode : decode selection text with
    | error cause =>
      rw [hdecode] at hload
      exact ⟨_, after, [], runWith_of_load_error hload,
        runWith_of_load_error (load_observed hload []),
        .rejected ⟨text, after, hread, .of_decode hdecode⟩ huntouched
          (decode_refuses selection text cause hdecode)⟩
    | ok c =>
      rw [hdecode] at hload
      cases hlog : checkLogSettings c with
      | error cause =>
        exact ⟨_, after, [], runWith_of_log_error hload hlog,
          runWith_of_log_error (load_observed hload []) hlog,
          .rejected ⟨text, after, hread, .logSettings hdecode hlog⟩ huntouched
            (checkLogSettings_refuses c cause hlog)⟩
      | ok done =>
        cases hplan : c.plan Stage.registry with
        | ok planned =>
          exact outcome_of_plan runId clock selection summaryPath world hread hdecode hlog hplan
        | error cause =>
          have hregistry : c.plan (Stage.environment clock).registry = .error cause := by
            rw [Stage.plan_environment, hplan]
          rw [runWith_run hload hlog, Environment.run_of_plan_error _ hregistry,
            runWith_run (load_observed hload []) hlog,
            Environment.observed_run_of_plan_error _ hregistry]
          exact ⟨_, _, [], rfl, rfl, .rejected ⟨text, after, hread, .plan hdecode hplan⟩
            huntouched.clock.clock (plan_refuses c _ cause hplan)⟩

/--
The status of a run tells how it ended, unless the last part of the summary is lost when its file is closed:
then, and only then, the summary cannot be stored and the status is not 3. Before anything is constructed the
file is read and the configuration is accepted or refused, and up to there the run has done nothing but read
the file and look at the clock.
-/
theorem run_status :
    ∃ response next log,
      (run runId clock selection summaryPath).run world = (response, next) ∧
      (observedRun runId clock selection summaryPath).run (world, []) = (response, (next, log)) ∧
      (response.status = 3 ↔ Unreadable selection world ∨
        Unsaved clock runId selection summaryPath world ∧
          ¬Lost clock runId selection summaryPath world) ∧
      ((response.status = 3 ↔
          Unreadable selection world ∨ Unsaved clock runId selection summaryPath world) ↔
        ¬Lost clock runId selection summaryPath world) ∧
      (response.status = 1 ↔ Rejected selection world) ∧
      (response.status = 2 ↔ Accepted selection world ∧ ∃ record ∈ log, record.Fails) ∧
      (response.status = 0 ↔
        (¬(Unreadable selection world ∨ Unsaved clock runId selection summaryPath world) ∧
          ¬Rejected selection world ∧ ¬(Accepted selection world ∧ ∃ record ∈ log, record.Fails)) ∨
        Lost clock runId selection summaryPath world) ∧
      (response.status = 1 ∨ Unreadable selection world →
        log = [] ∧ Untouched clock selection world next) := by
  obtain ⟨response, next, log, hplain, hobserved, houtcome⟩ :=
    exists_outcome runId clock selection summaryPath world
  refine ⟨response, next, log, hplain, hobserved, ?_⟩
  have hlost : Lost clock runId selection summaryPath world →
      Unsaved clock runId selection summaryPath world := Lost.unsaved
  have hsummary : Unsaved clock runId selection summaryPath world → Accepted selection world :=
    Unsaved.accepted
  cases houtcome with
  | unreadable h huntouched hstatus =>
    have hrejected : ¬Rejected selection world := fun hr => hr.not_unreadable h
    have haccepted : ¬Accepted selection world := fun ha => ha.not_unreadable h
    have hunsaved := mt hsummary haccepted
    have hkept := mt hlost hunsaved
    simp [hstatus, h, hrejected, haccepted, hkept, huntouched]
  | rejected h huntouched hstatus =>
    have haccepted : ¬Accepted selection world := fun ha => ha.not_rejected h
    have hunsaved := mt hsummary haccepted
    have hkept := mt hlost hunsaved
    simp [hstatus, h, h.not_unreadable, haccepted, hunsaved, hkept, huntouched]
  | failed h hincomplete hfails hstatus =>
    have hunsaved : ¬Unsaved clock runId selection summaryPath world := by
      rintro ⟨_, ⟨summary, stored, _, _, hcompletes, -⟩, -⟩
      exact hincomplete summary stored hcompletes
    have hkept := mt hlost hunsaved
    simp [hstatus, h, h.not_unreadable, h.not_rejected, hunsaved, hkept, hfails]
  | unsaved h hreported hgoes hstatus =>
    simp [hstatus, h, hreported, h.accepted.not_unreadable, h.accepted.not_rejected, hgoes]
  | finished h hsaved hgoes hstatus =>
    -- The status is 0 both with the whole summary in its file and with a part of it lost.
    by_cases hkept : Lost clock runId selection summaryPath world
    · simp [hstatus, h.not_unreadable, h.not_rejected, hlost hkept, hkept, hgoes]
    · simp [hstatus, h.not_unreadable, h.not_rejected, mt hsaved hkept, hkept, hgoes]

end Ends

end Observed

/-! ## A lost summary -/

def plainSelection : Selection :=
  ⟨"run.toml", [], []⟩

/-- The sample runs, and storing its summary under a path fails only when the file is closed. -/
def losesSummary (path : String) (c : Configuration) : Bool :=
  (checkLogSettings c).isOk && (c.plan Stage.registry).isOk &&
    match ((Stage.environment (pure 0 : StateM FileTree Float)).run ⟨"id"⟩ c).run sampleTree with
    | (.error _, _) => false
    | (.ok summary, stored) =>
      match (FileStore.writePieces (m := StateM FileTree) path summary.toJson.pieces).run stored with
      | (.ok ⟨.ok (), .error _⟩, _) => true
      | _ => false

theorem lost_of_losesSummary {path text : String} {c : Configuration}
    (hread : sampleTree.readText plainSelection.configuration = .ok text)
    (hdecode : decode plainSelection text = .ok c) (h : losesSummary path c = true) :
    Lost (pure 0 : StateM FileTree Float) ⟨"id"⟩ plainSelection (some path) sampleTree := by
  unfold losesSummary at h
  simp only [Bool.and_eq_true] at h
  obtain ⟨⟨hlog, hplan⟩, hwrite⟩ := h
  have hreads : checkLogSettings c = .ok () ∧ ∃ planned, c.plan Stage.registry = .ok planned := by
    constructor
    · cases hresult : checkLogSettings c with
      | error cause => simp [hresult, Except.isOk, Except.toBool] at hlog
      | ok done => rfl
    · cases hresult : c.plan Stage.registry with
      | error cause => simp [hresult, Except.isOk, Except.toBool] at hplan
      | ok planned => exact ⟨planned, rfl⟩
  have haccepts : Accepts plainSelection sampleTree c sampleTree :=
    ⟨text, congrArg (·, sampleTree) hread, hdecode, (not_rejects_iff hdecode).mpr hreads⟩
  split at hwrite
  · cases hwrite
  · rename_i summary stored hrun
    split at hwrite
    · rename_i cause last hstored
      refine ⟨cause, (stores_iff ((completes_iff haccepts).mpr hrun) path _).mpr ?_⟩
      rw [hstored]
    · cases hwrite

def fullRun : StateM FileTree Response :=
  run ⟨"id"⟩ (pure 0) plainSelection (some "/dev/full")

/-- A full device takes the file and refuses its text, and the status says that all went well. -/
theorem full_device_loses_summary :
    ∃ response next, fullRun.run sampleTree = (response, next) ∧ response.status = 0 ∧
      next.textsBelow [] = sampleTree.textsBelow [] ∧
      Unsaved (pure 0 : StateM FileTree Float) ⟨"id"⟩ plainSelection (some "/dev/full") sampleTree := by
  have hloses : (decode plainSelection sampleText).toOption.any (losesSummary "/dev/full") = true := by
    decide +kernel
  have hends : ((fullRun.run sampleTree).1.status, (fullRun.run sampleTree).2.textsBelow []) =
      (0, sampleTree.textsBelow []) := by
    decide +kernel
  have hread : sampleTree.readText plainSelection.configuration = .ok sampleText := by
    decide +kernel
  obtain ⟨hstatus, htexts⟩ := Prod.mk.inj hends
  refine ⟨_, _, rfl, hstatus, htexts, ?_⟩
  cases hdecode : decode plainSelection sampleText with
  | error cause => simp [hdecode, Except.toOption] at hloses
  | ok c =>
    rw [hdecode] at hloses
    exact (lost_of_losesSummary hread hdecode hloses).unsaved

end CommandLine

end TestBeam
