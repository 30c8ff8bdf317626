import TestBeam.Proofs.Stage.Phases

/-!
# Completed runs of the built-in stages

A run that completes places its histograms, and then feeds them what its source publishes from event to
event. Everything else on the bus stays as the initialisation left it.
-/

namespace TestBeam.Stage

open Environment (PhaseTrace EventsTrace RunTrace ExecutionTrace Shows)

variable {σ : Type} [FileStore (StateM σ)] {clock : StateM σ Float} {aborted : StateM σ Bool}
  {context : Context}

/-! ## Sightings -/

/-- A step changes nothing on the bus but the particles, and the end of a run changes nothing. -/
structure Framed (s : Sighting Stage) : Prop where
  step : s.hook = .step → ∀ topic, topic ≠ .primaries → s.after.get? topic = s.before.get? topic
  finalize : s.hook = .finalize → s.after = s.before

theorem framed_of_shows {s : Sighting Stage} (h : Shows (abortable clock aborted) context s) :
    Framed s := by
  obtain ⟨world, hshown⟩ := h
  constructor
  · intro hhook topic htopic
    rw [hhook] at hshown
    have hframe := step_frame s.module { context with event := s.event } s.before world htopic
    exact (congrArg (fun shown => shown.2.get? topic) hshown).symm.trans hframe
  · intro hhook
    rw [hhook] at hshown
    have hframe := finalize_frame s.module { context with event := s.event } s.before world
    exact (congrArg Prod.snd hshown).symm.trans hframe

/-- What is on a bus is still on the other one, but for the particles. -/
def Keeps (settled bus : RunBus) : Prop :=
  ∀ topic, topic ≠ .primaries → bus.get? topic = settled.get? topic

theorem Keeps.refl (bus : RunBus) : Keeps bus bus :=
  fun _ _ => rfl

theorem Keeps.step {settled : RunBus} {s : Sighting Stage} (h : Keeps settled s.before)
    (hframed : Framed s) (hhook : s.hook = .step) : Keeps settled s.after :=
  fun topic htopic => (hframed.step hhook topic htopic).trans (h topic htopic)

theorem Keeps.finalize {settled : RunBus} {s : Sighting Stage} (h : Keeps settled s.before)
    (hframed : Framed s) (hhook : s.hook = .finalize) : Keeps settled s.after :=
  hframed.finalize hhook ▸ h

section Traces

variable {remaining event : Nat} {instances after : List (Instance Stage)}
  {bus busAfter settled : RunBus} {log : List (Sighting Stage)} {result : Except RunError Unit}

theorem keeps_of_events
    (h : EventsTrace (abortable clock aborted) context remaining event instances bus log result after
      busAfter) (hbus : Keeps settled bus) :
    (∀ s ∈ log, Keeps settled s.after) ∧ Keeps settled busAfter :=
  h.invariant (Keeps settled)
    (fun _ hhook hshows hbefore => hbefore.step (framed_of_shows hshows) hhook) hbus

theorem keeps_of_finalize
    (h : PhaseTrace (abortable clock aborted) context .finalize instances bus log result after busAfter)
    (hbus : Keeps settled bus) : (∀ s ∈ log, Keeps settled s.after) ∧ Keeps settled busAfter :=
  h.invariant (Keeps settled)
    (fun _ hhook hshows hbefore => hbefore.finalize (framed_of_shows hshows) hhook) hbus

end Traces

/-! ## From the first call to the last -/

/-- What a run that goes through makes of the stages that it starts with. -/
structure Completed (detectors : List Detector) (events : Nat) (stages ended : List Stage)
    (published : List Primaries) (bus : RunBus) : Prop where
  /-- After the initialisation only the particles on the bus change. -/
  contents : ∃ settled, Contents detectors stages settled ∧ Keeps settled bus
  fed : ended = stages.map fun stage => (stage.settle (bus.get? .geometry)).feed published events
  allPlaced : ∀ stage ∈ ended, Placed stage
  emitted : ∀ s, .particleSource s ∈ stages → published = s.emissions 1 events
  /-- There is nothing to count without a source, so there is no histogram in front of any event. -/
  silent : (∀ s, .particleSource s ∉ stages) →
    published = [] ∧ (events ≠ 0 → ∀ s, .planeHistogram s ∉ stages)

theorem placed_feed {stage : Stage} (h : stage.Placed) (published : List Primaries) (events : Nat) :
    (stage.feed published events).Placed := by
  cases stage <;> exact h

theorem particleSource_mem_settle {stages : List Stage} {layout? : Option (DetectorLayout Float)}
    {s : ParticleSource} :
    .particleSource s ∈ stages.map (settle layout?) ↔ .particleSource s ∈ stages := by
  rw [List.mem_map]
  constructor
  · rintro ⟨stage, hstage, hsettled⟩
    cases stage with
    | particleSource t => exact hsettled ▸ hstage
    | _ => cases hsettled
  · exact fun hs => ⟨_, hs, rfl⟩

section Traces

variable {events : Nat} {instances last : List (Instance Stage)} {log : List (Sighting Stage)}
  {names : List String} {bus busAfter : RunBus}

theorem completed_of_trace
    (htrace : RunTrace (abortable clock aborted) context events instances log (.ok ()) last bus)
    (hserves : ∀ i ∈ instances, Serves names i.module.id i.module)
    (hdistinct : (instances.map fun i => i.module.id).Nodup) :
    last.map Instance.slot = instances.map Instance.slot ∧
      Completed context.detectors.detectors events (instances.map Instance.module)
        (last.map Instance.module) (published log) bus := by
  generalize hok : Except.ok () = result at htrace
  cases htrace with
  | initFailed hinit => cases hok
  | eventFailed hinit hevents => cases hok
  | @finalized log more final result after stepped last busInit busStepped bus hinit hevents hfinalize =>
    subst hok
    obtain ⟨hcontents, hslots, hsettled, hplaced⟩ :=
      init_phase hinit (.empty context.detectors.detectors) (by simp) hserves hdistinct
    have hstages : after.map Instance.module =
        (instances.map Instance.module).map (settle (busInit.get? .geometry)) := by
      rw [hsettled, List.map_map]
      rfl
    have hids : (after.map fun i => i.module.id) = instances.map fun i => i.module.id := by
      have h := congrArg (List.map id) hsettled
      simpa [Function.comp_def, id_settle] using h
    obtain ⟨hslots', hmodules, hemitted, hsilent⟩ := events_trace hevents (by rwa [hids])
      (by simp [hcontents.primaries])
    obtain ⟨hslots'', hlast, rfl⟩ := finalize_phase hfinalize
    -- Only the calls of the events put particles on the bus.
    have hfirst : published log = [] :=
      published_of_hook fun s hs => by simp [(hinit.shows s hs).1, Phase.hook]
    have hfinal : published final = [] :=
      published_of_hook fun s hs => by simp [(hfinalize.shows s hs).1, Phase.hook]
    have hpublished : published (log ++ more ++ final) = published more := by
      rw [published_append, published_append, hfirst, hfinal, List.nil_append, List.append_nil]
    rw [hpublished]
    rw [hmodules] at hlast
    have hkept := (keeps_of_events hevents (.refl busInit)).2
    refine ⟨(hslots''.trans hslots').trans hslots, ⟨busInit, hcontents, hkept⟩, ?_, ?_,
      fun s hs => ?_, fun hnone => ?_⟩
    · rw [hlast, hkept .geometry (by decide)]
      have h := congrArg (List.map (feed (published more) events)) hsettled
      simpa [Function.comp_def] using h
    · rw [hlast]
      rintro stage hstage
      obtain ⟨i, hi, rfl⟩ := List.mem_map.mp hstage
      exact placed_feed (hplaced i hi) _ _
    · exact hemitted s (by rwa [hstages, particleSource_mem_settle])
    · obtain ⟨hnothing, hhistograms⟩ :=
        hsilent fun s => by rw [hstages, particleSource_mem_settle]; exact hnone s
      refine ⟨hnothing, fun hevents s hs => ?_⟩
      exact hhistograms hevents _ (hstages ▸ List.mem_map_of_mem (f := settle _) hs)

end Traces

/-! ## Whole runs -/

section Runs

variable {c : Configuration} {runId : RunId} {world worldAfter : σ}
  {done : Environment.Completion Stage}

/-- A run that completes, seen from its bus. -/
structure CompletedRun (clock : StateM σ Float) (aborted : StateM σ Bool) (c : Configuration)
    (prepared : Environment.Preparation) (instances : List (Instance Stage))
    (log : List (Sighting Stage)) (done : Environment.Completion Stage) : Prop where
  prepare : (abortable clock aborted).prepare c = .ok prepared
  plan : c.plan registry = .ok prepared.planned
  events : done.events = prepared.settings.events
  assembly : Assembly c prepared.global prepared.detectors prepared.planned
    (Generator.ofSeed prepared.settings.seed) instances
  slots : done.instances.map Instance.slot = prepared.planned.map PlannedInstance.slot
  completed : Completed prepared.detectors.detectors done.events (instances.map Instance.module)
    (done.instances.map Instance.module) (published log) done.bus

theorem completedRun_of_execute
    (h : ((abortable clock aborted).execute runId c).run world = (.ok done, worldAfter)) :
    ∃ prepared instances log,
      ((abortable clock aborted).watched.execute runId c).run (world, []) =
        (.ok done, (worldAfter, log)) ∧
      CompletedRun clock aborted c prepared instances log done := by
  cases hplan : c.plan (abortable clock aborted).registry with
  | error cause =>
    unfold Environment.execute at h
    rw [Environment.prepare_error _ hplan] at h
    cases h
  | ok planned =>
    obtain ⟨prepared, result, worldLast, log, hprepare, rfl, hrun, hwatched, htrace⟩ :=
      (abortable clock aborted).execute_watched hplan runId world
    have hplan' : c.plan registry = .ok prepared.planned := by
      rw [← plan_environment c clock]
      exact hplan
    obtain ⟨hresult, rfl⟩ := Prod.mk.inj (h.symm.trans hrun)
    cases htrace with
    | unconstructed hconstruct => cases hresult
    | @constructed instances after log result bus hconstruct htrace =>
      cases result with
      | error e => cases hresult
      | ok u =>
        obtain rfl := Except.ok.inj hresult
        have hassembly := assembly_of_construct hprepare hplan' hconstruct
        obtain ⟨hslots, hcompleted⟩ := completed_of_trace htrace hassembly.serves
          (hassembly.ids ▸ Configuration.distinct_of_plan hplan')
        exact ⟨prepared, instances, log, hwatched, hprepare, hplan', rfl, hassembly,
          hslots.trans hassembly.slots, hcompleted⟩

variable {prepared : Environment.Preparation} {instances : List (Instance Stage)}
  {log : List (Sighting Stage)}

theorem CompletedRun.distinct (h : CompletedRun clock aborted c prepared instances log done) :
    (instances.map Instance.id).Nodup ∧
      done.instances.map Instance.id = instances.map Instance.id := by
  have hids : instances.map Instance.id = prepared.planned.map PlannedInstance.id := by
    have hslots := congrArg (List.map Slot.id) h.assembly.slots
    rwa [List.map_map, List.map_map] at hslots
  have hslots := congrArg (List.map Slot.id) h.slots
  rw [List.map_map, List.map_map] at hslots
  exact ⟨hids ▸ Configuration.distinct_of_plan h.plan, hslots.trans hids.symm⟩

theorem CompletedRun.origin (h : CompletedRun clock aborted c prepared instances log done)
    {i : Instance Stage} (hi : i ∈ done.instances) :
    ∃ k p start, prepared.planned[k]? = some p ∧ start ∈ instances ∧ i.slot = p.slot ∧
      Assembled c prepared.global prepared.detectors p
        ((Generator.ofSeed prepared.settings.seed).key.output k) start ∧
      i.module = (start.module.settle (done.bus.get? .geometry)).feed (published log) done.events := by
  obtain ⟨k, hk, rfl⟩ := List.getElem_of_mem hi
  have hslot := congrArg (fun slots => slots[k]?) h.slots
  have hmodule := congrArg (fun stages => stages[k]?) h.completed.fed
  simp only [List.getElem?_map, List.getElem?_eq_getElem hk, Option.map_some] at hslot hmodule
  obtain ⟨p, hp, hpslot⟩ := Option.map_eq_some_iff.mp hslot.symm
  obtain ⟨start, hstart, hassembled⟩ := h.assembly.assembled k p hp
  rw [hstart] at hmodule
  refine ⟨k, p, start, hp, List.mem_of_getElem? hstart, hpslot.symm, ?_, Option.some.inj hmodule⟩
  have hposition : (Generator.ofSeed prepared.settings.seed).position + k = k := Nat.zero_add k
  rwa [hposition] at hassembled

end Runs

end TestBeam.Stage
