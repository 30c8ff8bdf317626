import TestBeam.Executor

/-!
# Schedules

A run follows a schedule of steps. It does all of them, or it ends with the first one that fails or that
an abort prevents.
-/

namespace TestBeam

structure Slot where
  index : Nat
  id : ModuleId
  deriving DecidableEq, Repr

def PlannedInstance.slot (p : PlannedInstance) : Slot :=
  ⟨p.index, p.id⟩

def Instance.slot {ι : Type} (i : Instance ι) : Slot :=
  ⟨i.index, i.id⟩

/-- One thing that a run does with an instance. -/
inductive Step where
  | construct (slot : Slot)
  | call (slot : Slot) (phase : Phase)
  deriving DecidableEq, Repr

/-- A step as its instance sees it, with the event of the context. -/
inductive Act where
  | construct (id : ModuleId)
  | call (id : ModuleId) (hook : Hook) (event : Option Nat)
  deriving DecidableEq, Repr

/-- What can be seen of a run from outside. -/
inductive Record where
  | constructed (id : ModuleId) (failure : Option StageError)
  | checked (aborted : Bool)
  | called (id : ModuleId) (hook : Hook) (event : Option Nat) (failure : Option StageError)
  deriving DecidableEq, Repr

def Step.act : Step → Act
  | .construct slot => .construct slot.id
  | .call slot phase => .call slot.id phase.hook phase.event?

/-- Looking at the abort flag is no act. -/
def Record.act? : Record → Option Act
  | .constructed id _ => some (.construct id)
  | .checked _ => none
  | .called id hook event _ => some (.call id hook event)

/-- Whether a run goes on behind a record. -/
def Record.GoesOn : Record → Prop
  | .constructed _ failure => failure = none
  | .checked aborted => aborted = false
  | .called _ _ _ failure => failure = none

/-- All instances are constructed, initialized, stepped once for each event and finalized. -/
def schedule (slots : List Slot) (events : Nat) : List Step :=
  slots.map .construct ++ (slots.map (.call · .init) ++
    ((List.range' 1 events).flatMap (fun event => slots.map (.call · (.event event))) ++
      slots.map (.call · .finalize)))

namespace Step

def records : Step → List Record
  | .construct slot => [.constructed slot.id none]
  | .call slot phase => [.checked false, .called slot.id phase.hook phase.event? none]

/-- The records of a step that ends the run, and the error that it ends with. -/
inductive Ends : Step → List Record → RunError → Prop where
  | construct (slot : Slot) (cause : StageError) :
      Ends (.construct slot) [.constructed slot.id (some cause)]
        (.construction slot.index slot.id cause)
  | call (slot : Slot) (phase : Phase) (cause : StageError) :
      Ends (.call slot phase)
        [.checked false, .called slot.id phase.hook phase.event? (some cause)]
        (.call slot.index slot.id phase cause)
  | abort (slot : Slot) (phase : Phase) :
      Ends (.call slot phase) [.checked true] (.aborted slot.index slot.id phase)

end Step

def failure? {ε α : Type} : Except ε α → Option ε
  | .ok _ => none
  | .error e => some e

/-- All steps are done, or those in front of one that ends the run. -/
inductive Follows (steps : List Step) : List Record → Option RunError → Prop where
  | complete : Follows steps (steps.flatMap Step.records) none
  | stop {before after : List Step} {step : Step} {last : List Record} {error : RunError}
      (hsplit : steps = before ++ step :: after) (hends : step.Ends last error) :
      Follows steps (before.flatMap Step.records ++ last) (some error)

namespace Follows

variable {steps more : List Step} {step : Step} {log tail last : List Record}
  {failure : Option RunError} {error : RunError}

theorem nil : Follows [] [] none :=
  .complete

theorem append (h : Follows steps log none) (hmore : Follows more tail failure) :
    Follows (steps ++ more) (log ++ tail) failure := by
  cases h
  cases hmore with
  | complete =>
    rw [← List.flatMap_append]
    exact .complete
  | stop hsplit hends =>
    rw [← List.append_assoc, ← List.flatMap_append]
    exact .stop (by rw [hsplit, List.append_assoc]) hends

theorem append_of_error (h : Follows steps log (some error)) (more : List Step) :
    Follows (steps ++ more) log (some error) := by
  cases h with
  | stop hsplit hends => exact .stop (by rw [hsplit, List.append_assoc, List.cons_append]) hends

theorem cons (step : Step) (hmore : Follows more tail failure) :
    Follows (step :: more) (step.records ++ tail) failure := by
  have hstep : Follows [step] ([step].flatMap Step.records) none := .complete
  rw [List.flatMap_singleton] at hstep
  exact hstep.append hmore

theorem stop_first (hends : step.Ends last error) (more : List Step) :
    Follows (step :: more) last (some error) := by
  have hsplit : step :: more = [] ++ step :: more := rfl
  exact .stop hsplit hends

/-! ## What can be seen -/

theorem acts_records (step : Step) : step.records.filterMap Record.act? = [step.act] := by
  cases step <;> rfl

theorem acts_flatMap (steps : List Step) :
    (steps.flatMap Step.records).filterMap Record.act? = steps.map Step.act := by
  induction steps with
  | nil => rfl
  | cons step steps ih =>
    rw [List.flatMap_cons, List.filterMap_append, acts_records, ih]
    rfl

theorem goesOn_flatMap {record : Record} (h : record ∈ steps.flatMap Step.records) :
    record.GoesOn := by
  obtain ⟨step, -, hmem⟩ := List.mem_flatMap.mp h
  cases step with
  | construct slot =>
    obtain rfl : record = _ := by simpa [Step.records] using hmem
    rfl
  | call slot phase =>
    obtain rfl | rfl : record = _ ∨ record = _ := by simpa [Step.records] using hmem
    · rfl
    · rfl

theorem acts (h : Follows steps log failure) :
    log.filterMap Record.act? <+: steps.map Step.act := by
  cases h with
  | complete => exact ⟨[], by rw [acts_flatMap, List.append_nil]⟩
  | stop hsplit hends =>
    rw [List.filterMap_append, acts_flatMap, hsplit, List.map_append, List.map_cons]
    cases hends with
    | construct slot cause => exact ⟨_, by simp [Record.act?, Step.act]; rfl⟩
    | call slot phase cause => exact ⟨_, by simp [Step.act]; rfl⟩
    | abort slot phase => exact ⟨_, by simp; rfl⟩

theorem none_iff (h : Follows steps log failure) :
    failure = none ↔
      log.filterMap Record.act? = steps.map Step.act ∧ ∀ record ∈ log, record.GoesOn := by
  cases h with
  | complete => simpa [acts_flatMap] using fun record step hstep hmem =>
      goesOn_flatMap (List.mem_flatMap.mpr ⟨step, hstep, hmem⟩)
  | stop hsplit hends =>
    constructor
    · intro h
      cases h
    · rintro ⟨-, hall⟩
      cases hends with
      | construct slot cause =>
        have := hall (.constructed slot.id (some cause)) (by simp)
        simp [Record.GoesOn] at this
      | call slot phase cause =>
        have := hall (.called slot.id phase.hook phase.event? (some cause)) (by simp)
        simp [Record.GoesOn] at this
      | abort slot phase =>
        have := hall (.checked true) (by simp)
        simp [Record.GoesOn] at this

theorem ends_of_mem (h : Follows steps log failure) {record : Record} (hmem : record ∈ log)
    (hstop : ¬record.GoesOn) :
    ∃ before step after last error, steps = before ++ step :: after ∧ step.Ends last error ∧
      log = before.flatMap Step.records ++ last ∧ failure = some error ∧
      last.getLast? = some record := by
  cases h with
  | complete => exact absurd (goesOn_flatMap hmem) hstop
  | @stop before after step last error hsplit hends =>
    refine ⟨before, step, after, last, error, hsplit, hends, rfl, rfl, ?_⟩
    rcases List.mem_append.mp hmem with hmem | hmem
    · exact absurd (goesOn_flatMap hmem) hstop
    · cases hends with
      | construct slot cause =>
        obtain rfl : record = _ := by simpa using hmem
        rfl
      | call slot phase cause =>
        obtain rfl | rfl : record = _ ∨ record = _ := by simpa using hmem
        · exact absurd rfl hstop
        · rfl
      | abort slot phase =>
        obtain rfl : record = _ := by simpa using hmem
        rfl

end Follows

end TestBeam
