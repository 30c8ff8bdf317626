import TestBeam.CommandLine.Response
import TestBeam.Proofs.Result

/-!
# What refuses a configuration

Before a run starts, its text is read as a configuration, the overrides are applied, the log settings are
looked at and the plan is made. Each of these can refuse the configuration, and none of them does so
because of a file.
-/

namespace TestBeam.CommandLine

open Failure (configurationStatus)

/-! ## Errors that are about no file -/

/-- Every error is one that has the status of a refused configuration. -/
def Refuses {α : Type} (result : Except ConfigurationError α) : Prop :=
  ∀ cause, result = .error cause → configurationStatus cause = 1

namespace Refuses

variable {ε α β : Type} {result : Except ConfigurationError α}

theorem ok (a : α) : Refuses (.ok a) := nofun

theorem error {cause : ConfigurationError} (h : configurationStatus cause = 1) :
    Refuses (.error cause : Except ConfigurationError α) := by
  rintro found heq
  rwa [← Except.error.inj heq]

theorem bind {next : α → Except ConfigurationError β} (h : Refuses result)
    (hnext : ∀ a, Refuses (next a)) : Refuses (result >>= next) := by
  intro cause heq
  rcases error_of_bind heq with hfirst | ⟨a, -, hsecond⟩
  · exact h cause hfirst
  · exact hnext a cause hsecond

theorem map (h : Refuses result) (f : α → β) : Refuses (result.map f) := by
  cases result with
  | ok a => exact .ok (f a)
  | error cause => exact .error (h cause rfl)

theorem mapError (result : Except ε α) {f : ε → ConfigurationError}
    (h : ∀ e, configurationStatus (f e) = 1) : Refuses (result.mapError f) := by
  cases result with
  | ok a => exact .ok a
  | error e => exact .error (h e)

theorem mapM {f : α → Except ConfigurationError β} (h : ∀ a, Refuses (f a)) (items : List α) :
    Refuses (items.mapM f) := by
  induction items with
  | nil => exact .ok []
  | cons a items ih =>
    rw [List.mapM_cons]
    exact (h a).bind fun _ => ih.bind fun _ => .ok _

theorem mapM_option {f : α → Except ConfigurationError β} (h : ∀ a, Refuses (f a))
    (item : Option α) : Refuses (item.mapM f) := by
  cases item with
  | none => exact .ok none
  | some a => exact (h a).map some

theorem foldlM {f : β → α → Except ConfigurationError β} (h : ∀ b a, Refuses (f b a))
    (items : List α) (start : β) : Refuses (items.foldlM f start) := by
  induction items generalizing start with
  | nil => exact .ok start
  | cons a items ih =>
    rw [List.foldlM_cons]
    exact (h start a).bind ih

end Refuses

/-! ## Stages before a run -/

theorem toEntry_refuses (d : EntryDocument) : Refuses d.toEntry := by
  apply Refuses.map
  apply Refuses.mapM
  intro field
  unfold EntryDocument.setting
  split
  · exact .ok _
  · exact .error rfl

theorem parse_refuses (text : String) : Refuses (Configuration.parse text) := by
  unfold Configuration.parse
  split
  · exact (Refuses.mapM_option toEntry_refuses _).bind fun _ =>
      (Refuses.mapM toEntry_refuses _).bind fun _ =>
        (Refuses.mapM toEntry_refuses _).bind fun _ => .ok _
  · exact .error rfl

theorem override_refuses (option : String) : Refuses (Override.parse option) := by
  unfold Override.parse
  split
  · exact .error rfl
  · dsimp only
    split
    · exact .error rfl
    · exact .ok _

theorem applyModuleOption_refuses (c : Configuration) (option : String) :
    Refuses (c.applyModuleOption option) := by
  refine (override_refuses option).bind fun change => ?_
  split
  · split
    · exact .error rfl
    · exact .ok _
  · split
    · exact .ok _
    · exact .error rfl

theorem applyDetectorOption_refuses (c : Configuration) (option : String) :
    Refuses (c.applyDetectorOption option) := by
  refine (override_refuses option).bind fun change => ?_
  split
  · exact .error rfl
  · split
    · exact .ok _
    · exact .error rfl

theorem applyOptions_refuses (c : Configuration) (moduleOptions detectorOptions : List String) :
    Refuses (c.applyOptions moduleOptions detectorOptions) :=
  (Refuses.foldlM applyModuleOption_refuses moduleOptions c).bind
    (Refuses.foldlM applyDetectorOption_refuses detectorOptions)

theorem checkLogSettings_refuses (c : Configuration) : Refuses (checkLogSettings c) :=
  (Refuses.mapError _ fun _ => rfl).map _

theorem addTo_refuses (candidates : List Candidate) (candidate : Candidate) :
    Refuses (candidate.addTo candidates) := by
  unfold Candidate.addTo
  split
  · exact .ok _
  · split
    · exact .error rfl
    · split
      · exact .ok _
      · exact .ok _

theorem target_refuses (c : Configuration) (m : Configuration.ActiveModule) :
    Refuses (c.target m) := by
  unfold Configuration.target
  dsimp only
  split
  · exact .error rfl
  · split
    · exact .error rfl
    · exact .ok _

variable {φ : Type}

theorem addEntry_refuses (c : Configuration) (registry : Registry φ) (candidates : List Candidate)
    (m : Configuration.ActiveModule) : Refuses (c.addEntry registry candidates m) :=
  (Refuses.mapError _ fun _ => rfl).bind fun _ =>
    (target_refuses c m).bind fun _ => Refuses.foldlM addTo_refuses _ _

theorem checkDetectors_refuses (seen : List String) (detectors : List Entry) :
    Refuses (Configuration.checkDetectors seen detectors) := by
  induction detectors generalizing seen with
  | nil => exact .ok ()
  | cons detector rest ih =>
    rw [Configuration.checkDetectors]
    split
    · exact .error rfl
    · exact (Refuses.mapError _ fun _ => rfl).bind fun _ => ih _

theorem plan_refuses (c : Configuration) (registry : Registry φ) : Refuses (c.plan registry) := by
  have hglobal : Refuses c.requireGlobal := by
    unfold Configuration.requireGlobal
    split
    · exact .ok _
    · exact .error rfl
  refine hglobal.bind fun global => (Refuses.mapError _ fun _ => rfl).bind fun _ =>
    (checkDetectors_refuses [] _).bind fun _ => ?_
  split
  · exact .error rfl
  · exact (Refuses.foldlM (addEntry_refuses c registry) _ _).bind fun _ => .ok _

end TestBeam.CommandLine
