import TestBeam.Proofs.Stage.Stream

/-!
# What a run publishes

Each event that a run begins publishes the next part of the stream of its source, once. A run that fails
or is aborted has published the first events, and one that completes has published all of them.
-/

namespace TestBeam.Stage

open Environment (PhaseTrace EventsTrace RunTrace ExecutionTrace)

/-! ## Sources -/

def source? : Stage → Option ParticleSource
  | .particleSource s => some s
  | _ => none

def sources (stages : List Stage) : List ParticleSource :=
  stages.filterMap source?

theorem source?_eq_some_iff {stage : Stage} {s : ParticleSource} :
    stage.source? = some s ↔ stage = .particleSource s := by
  cases stage <;> simp [source?]

theorem sources_cons (stage : Stage) (stages : List Stage) :
    sources (stage :: stages) = stage.source?.toList ++ sources stages := by
  unfold sources
  cases h : stage.source? <;> simp [h]

theorem sources_eq {stages : List Stage} {s : ParticleSource} (hdistinct : (stages.map id).Nodup)
    (hs : .particleSource s ∈ stages) : sources stages = [s] := by
  obtain ⟨front, back, rfl⟩ := List.append_of_mem hs
  rw [List.map_append, List.map_cons, List.nodup_append, List.nodup_cons] at hdistinct
  obtain ⟨-, ⟨hback, -⟩, hfront⟩ := hdistinct
  have hnone {others : List Stage} (h : (Stage.particleSource s).id ∉ others.map id) :
      others.filterMap source? = [] := by
    apply List.filterMap_eq_nil_iff.mpr
    intro stage hstage
    apply Option.eq_none_iff_forall_ne_some.mpr
    intro t ht
    obtain rfl := source?_eq_some_iff.mp ht
    exact h (List.mem_map.mpr ⟨_, hstage, rfl⟩)
  unfold sources
  rw [List.filterMap_append, List.filterMap_cons, hnone hback,
    hnone fun hmem => hfront _ hmem _ (by simp) rfl]
  rfl

/-! ## Calls -/

section Calls

variable {σ : Type} {event : Nat} {stage changed : Stage} {bus busAfter : RunBus}

theorem InitEffect.source? {detectors : List Detector}
    (h : InitEffect detectors bus stage changed busAfter) : changed.source? = stage.source? := by
  cases h <;> rfl

theorem StepEffect.source? (h : StepEffect event bus stage changed busAfter) :
    changed.source? = stage.source?.map ParticleSource.next ∧
      published? ⟨.step, some event, stage, bus, .ok changed, busAfter⟩ =
        stage.source?.map (·.emission event) := by
  cases h with
  | idle hidle =>
    cases stage <;> first | exact ⟨rfl, rfl⟩ | exact hidle.elim
  | particleSource s => exact ⟨rfl, Bus.get?_put_self bus _ _⟩
  | planeHistogram s hplacement hprimaries hevent => exact ⟨rfl, rfl⟩

theorem source?_of_step_error (context : Context) (hevent : context.event = some event) {world next : σ}
    {cause : StageError}
    (h : (stage.step context : Call (StateM σ) Stage).outcome bus world =
      ((.error cause, busAfter), next)) : stage.source? = none := by
  cases stage with
  | particleSource s =>
    change (s.step context >>= fun s => pure (Stage.particleSource s)).outcome bus world = _ at h
    rw [Call.outcome_bind, s.outcome_step hevent] at h
    cases h
  | _ => rfl

end Calls

theorem published_cons (s : Sighting Stage) (log : List (Sighting Stage)) :
    published (s :: log) = (published? s).toList ++ published log := by
  unfold published
  cases h : published? s <;> simp [h]

theorem published?_of_no_source {s : Sighting Stage} (h : s.module.source? = none) :
    published? s = none := by
  obtain ⟨hook, event, module, before, result, after⟩ := s
  cases module with
  | particleSource s => cases h
  | _ => cases hook <;> rfl

/-! ## Traces -/

section Traces

variable {σ : Type} [FileStore (StateM σ)] {clock : StateM σ Float} {aborted : StateM σ Bool}
  {context : Context} {instances after : List (Instance Stage)} {bus busAfter : RunBus}
  {log : List (Sighting Stage)} {result : Except RunError Unit}

theorem init_sources
    (htrace : PhaseTrace (abortable clock aborted) context .init instances bus log (.ok ()) after
      busAfter) :
    sources (after.map Instance.module) = sources (instances.map Instance.module) := by
  generalize hok : Except.ok () = result at htrace
  induction htrace with
  | nil bus => rfl
  | aborted i rest bus => cases hok
  | failed hcall => cases hok
  | called hcall elapsed hrest ih =>
    have heffect := init_ok { context with event := none } hcall
    rw [List.map_cons, List.map_cons, sources_cons, sources_cons, ih hok, heffect.source?]

/-- An event publishes what its source emits, at most once. -/
theorem event_publishes {event : Nat}
    (htrace : PhaseTrace (abortable clock aborted) context (.event event) instances bus log result
      after busAfter) :
    published log <+: (sources (instances.map Instance.module)).map (·.emission event) ∧
      (result = .ok () →
        published log = (sources (instances.map Instance.module)).map (·.emission event) ∧
        sources (after.map Instance.module) =
          (sources (instances.map Instance.module)).map ParticleSource.next) := by
  induction htrace with
  | nil bus => exact ⟨List.prefix_rfl, fun _ => ⟨rfl, rfl⟩⟩
  | aborted i rest bus => exact ⟨List.nil_prefix, fun h => by cases h⟩
  | @failed i rest bus busAfter world next cause hcall =>
    have hnone : i.module.source? = none :=
      source?_of_step_error { context with event := some event } rfl hcall
    refine ⟨?_, fun h => by cases h⟩
    rw [published_cons, published?_of_no_source hnone]
    exact List.nil_prefix
  | @called i rest after bus busNext busLast world next changed log result hcall elapsed hrest ih =>
    have heffect : StepEffect event bus i.module changed busNext :=
      step_ok { context with event := some event } rfl hcall
    obtain ⟨hchanged, hpublished⟩ := heffect.source?
    have hemitted : (i.module.source?.map fun s => s.emission event).toList =
        i.module.source?.toList.map fun s => s.emission event := by
      cases i.module.source? <;> rfl
    have hnext : (i.module.source?.map ParticleSource.next).toList =
        i.module.source?.toList.map ParticleSource.next := by
      cases i.module.source? <;> rfl
    rw [published_cons, List.map_cons, List.map_cons, sources_cons, sources_cons, hchanged, hnext]
    change published? ⟨(Phase.event event).hook, (Phase.event event).event?, i.module, bus, .ok changed,
      busNext⟩ = _ at hpublished
    rw [List.map_append, List.map_append, hpublished, hemitted, List.prefix_append_right_inj]
    refine ⟨ih.1, fun h => ?_⟩
    obtain ⟨hlog, hafter⟩ := ih.2 h
    rw [hlog, hafter]
    exact ⟨rfl, rfl⟩

variable {s : ParticleSource}

/-- The events that a run begins publish what the source emits, one after another. -/
theorem events_publish {remaining event : Nat}
    (htrace : EventsTrace (abortable clock aborted) context remaining event instances bus log result
      after busAfter) (hs : sources (instances.map Instance.module) = [s]) :
    published log <+: s.emissions event remaining ∧
      (result = .ok () → published log = s.emissions event remaining) := by
  induction htrace generalizing s with
  | done event instances bus => exact ⟨List.prefix_rfl, fun _ => rfl⟩
  | failed hphase =>
    obtain ⟨hbegins, -⟩ := event_publishes hphase
    rw [hs] at hbegins
    refine ⟨hbegins.trans ?_, fun h => by cases h⟩
    exact (List.prefix_cons_inj _).mpr List.nil_prefix
  | next hphase hrest ih =>
    obtain ⟨hlog, hafter⟩ := (event_publishes hphase).2 rfl
    rw [hs] at hlog hafter
    obtain ⟨hmore, hall⟩ := ih hafter
    rw [published_append, hlog]
    refine ⟨(List.prefix_cons_inj _).mpr hmore, fun h => ?_⟩
    rw [hall h]
    rfl

theorem run_publishes {events : Nat}
    (htrace : RunTrace (abortable clock aborted) context events instances log result after bus)
    (hs : sources (instances.map Instance.module) = [s]) :
    published log <+: s.emissions 1 events ∧
      (result = .ok () → published log = s.emissions 1 events) := by
  have hquiet {phase : Phase} {first ended : List (Instance Stage)} {before behind : RunBus}
      {seen : List (Sighting Stage)} {outcome : Except RunError Unit} (hphase : phase.hook ≠ .step)
      (h : PhaseTrace (abortable clock aborted) context phase first before seen outcome ended behind) :
      published seen = [] :=
    published_of_hook fun sighting hsighting => (h.shows sighting hsighting).1 ▸ hphase
  cases htrace with
  | initFailed hinit =>
    rw [hquiet (by decide) hinit]
    exact ⟨List.nil_prefix, fun h => by cases h⟩
  | eventFailed hinit hevents =>
    rw [published_append, hquiet (by decide) hinit, List.nil_append]
    exact events_publish hevents ((init_sources hinit).trans hs)
  | finalized hinit hevents hfinalize =>
    have hall := (events_publish hevents ((init_sources hinit).trans hs)).2 rfl
    rw [published_append, published_append, hquiet (by decide) hinit, hquiet (by decide) hfinalize,
      List.nil_append, List.append_nil, hall]
    exact ⟨List.prefix_rfl, fun _ => rfl⟩

end Traces

end TestBeam.Stage
