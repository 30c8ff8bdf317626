import TestBeam.Proofs.Stage.Contents
import TestBeam.Proofs.Stage.Counting
import TestBeam.Proofs.Stage.Order

/-!
# Phases of the built-in stages

What the trace of a phase tells of the stages behind it: where histograms are placed, which particles are
published, and which ones are counted.
-/

namespace TestBeam.Stage

open Environment (PhaseTrace EventsTrace RunTrace)

variable {σ : Type} [FileStore (StateM σ)] {clock : StateM σ Float} {aborted : StateM σ Bool}
  {context : Context} {instances after : List (Instance Stage)} {bus busAfter : RunBus}
  {log : List (Sighting Stage)} {names : List String}

/-! ## Initialisation -/

/-- A stage as its initialisation leaves it, given the layout of the run. -/
def settle (layout? : Option (DetectorLayout Float)) : Stage → Stage
  | .planeHistogram s =>
    .planeHistogram { s with placement := layout?.bind fun layout => layout.get? s.detector }
  | other => other

theorem InitEffect.settled {stage changed : Stage}
    {detectors : List Detector}
    (h : InitEffect detectors bus stage changed busAfter) (layout? : Option (DetectorLayout Float))
    (hlayout : ∀ layout, bus.get? .geometry = some layout → layout? = some layout) :
    changed = stage.settle layout? ∧ changed.Placed := by
  cases h with
  | planeHistogram s hgeometry hplacement =>
    refine ⟨?_, rfl⟩
    unfold settle
    rw [hlayout _ hgeometry]
    simp [hplacement]
  | _ => exact ⟨rfl, trivial⟩

theorem init_phase
    (htrace : PhaseTrace (abortable clock aborted) context .init instances bus log (.ok ()) after
      busAfter)
    {done : List Stage} (h : Contents context.detectors.detectors done bus)
    (hdone : ∀ s ∈ done, Serves names s.id s)
    (hserves : ∀ i ∈ instances, Serves names i.module.id i.module)
    (hdistinct : (done.map id ++ instances.map fun i => i.module.id).Nodup) :
    Contents context.detectors.detectors (done ++ instances.map Instance.module) busAfter ∧
      after.map Instance.slot = instances.map Instance.slot ∧
      after.map Instance.module =
        instances.map (fun i => i.module.settle (busAfter.get? .geometry)) ∧
      ∀ i ∈ after, i.module.Placed := by
  generalize hok : Except.ok () = result at htrace
  induction htrace generalizing done with
  | nil bus => exact ⟨by simpa using h, rfl, rfl, by simp⟩
  | aborted i rest bus => cases hok
  | failed hcall => cases hok
  | @called i rest after bus busNext busLast world next changed log result hcall elapsed hrest ih =>
    obtain ⟨hfirst, hothers⟩ := List.forall_mem_cons.mp hserves
    rw [List.map_cons, List.nodup_append] at hdistinct
    obtain ⟨hnodup, hcons, hapart⟩ := hdistinct
    rw [List.nodup_cons] at hcons
    have hnew : i.module.id ∉ done.map id :=
      fun hmem => hapart _ hmem _ (by simp) rfl
    have heffect := init_ok { context with event := none } hcall
    have hstep := h.init heffect hdone hfirst hnew
    have hgrown : ∀ s ∈ done ++ [i.module], Serves names s.id s := by
      intro s hs
      rcases List.mem_append.mp hs with hs | hs
      · exact hdone s hs
      · rw [List.mem_singleton.mp hs]
        exact hfirst
    have hlater : ((done ++ [i.module]).map id ++ rest.map fun i => i.module.id).Nodup := by
      rw [List.map_append, List.append_assoc, List.nodup_append]
      refine ⟨hnodup, List.nodup_cons.mpr hcons, fun a ha b hb => hapart a ha b ?_⟩
      simpa using hb
    obtain ⟨hcontents, hslots, hmodules, hplaced⟩ := ih hstep hgrown hothers hlater hok
    rw [List.append_assoc] at hcontents
    -- The layout of the run is the one that the stage found, which was there before.
    obtain ⟨hsettled, hfound⟩ := heffect.settled (busLast.get? .geometry) (by
      intro layout hlayout
      obtain ⟨s, hs, placements, hplacements, rfl⟩ := (h.geometry layout).mp hlayout
      exact (hcontents.geometry _).mpr ⟨s, by simp [hs], placements, hplacements, rfl⟩)
    refine ⟨hcontents, ?_, ?_, List.forall_mem_cons.mpr ⟨hfound, hplaced⟩⟩
    · rw [List.map_cons, List.map_cons, hslots]
      rfl
    · rw [List.map_cons, List.map_cons, hmodules, hsettled]

theorem id_settle (layout? : Option (DetectorLayout Float)) (stage : Stage) :
    (stage.settle layout?).id = stage.id := by
  cases stage <;> rfl

/-! ## Sources -/

def ParticleSource.emission (s : ParticleSource) (event : Nat) : Primaries :=
  ⟨event, (s.settings.drawMany s.settings.particlesPerEvent s.generator).1⟩

/-- A source behind its draws for one event. -/
def ParticleSource.next (s : ParticleSource) : ParticleSource :=
  { s with generator := (s.settings.drawMany s.settings.particlesPerEvent s.generator).2 }

def ParticleSource.emissions (s : ParticleSource) (event : Nat) : Nat → List Primaries
  | 0 => []
  | count + 1 => s.emission event :: s.next.emissions (event + 1) count

def ParticleSource.advance (s : ParticleSource) : Nat → ParticleSource
  | 0 => s
  | count + 1 => s.next.advance count

def published? (s : Sighting Stage) : Option Primaries :=
  match s.hook, s.module with
  | .step, .particleSource _ => s.after.get? .primaries
  | _, _ => none

def published (log : List (Sighting Stage)) : List Primaries :=
  log.filterMap published?

theorem published_append (log more : List (Sighting Stage)) :
    published (log ++ more) = published log ++ published more :=
  List.filterMap_append

theorem published_of_hook {log : List (Sighting Stage)} (h : ∀ s ∈ log, s.hook ≠ .step) :
    published log = [] := by
  refine List.filterMap_eq_nil_iff.mpr fun s hs => ?_
  unfold published?
  split
  · rename_i hhook hmodule
    exact absurd hhook (h s hs)
  · rfl

/-! ## Events -/

/-- A stage behind a number of events in which these particles were published. -/
def feed (published : List Primaries) (events : Nat) : Stage → Stage
  | .particleSource s => .particleSource (s.advance events)
  | .planeHistogram s => .planeHistogram { s with
      events := s.events + events
      histogram := match s.placement with
        | some placement =>
          PlaneHistogram.countAll placement s.histogram (published.flatMap Primaries.vertices)
        | none => s.histogram }
  | other => other

theorem id_feed (published : List Primaries) (events : Nat) (stage : Stage) :
    (stage.feed published events).id = stage.id := by
  cases stage <;> rfl

theorem feed_feed (first more : List Primaries) (events : Nat) (stage : Stage) :
    (stage.feed first 1).feed more events = stage.feed (first ++ more) (events + 1) := by
  cases stage with
  | planeHistogram s =>
    obtain ⟨id, detector, placement?, histogram, counted⟩ := s
    unfold feed
    simp only [Stage.planeHistogram.injEq, PlaneHistogram.mk.injEq, true_and]
    constructor
    · cases placement? with
      | none => rfl
      | some placement =>
        simp only
        rw [List.flatMap_append, PlaneHistogram.countAll_append]
    · omega
  | _ => rfl

theorem feed_nothing (stage : Stage) : stage.feed [] 0 = stage := by
  cases stage with
  | planeHistogram s =>
    obtain ⟨id, detector, placement?, histogram, counted⟩ := s
    cases placement? <;> rfl
  | _ => rfl

/-- Which particles the stages of an event count, and which of them are still to be published. -/
inductive Feeds (event : Nat) (stages : List Stage) (bus : RunBus) :
    List Primaries → List Primaries → Prop where
  | current {primaries : Primaries} (hbus : bus.get? .primaries = some primaries)
      (hevent : primaries.event = event) (hnone : ∀ s, .particleSource s ∉ stages) :
      Feeds event stages bus [primaries] []
  | coming (hstale : ∀ primaries, bus.get? .primaries = some primaries → primaries.event < event)
      {s : ParticleSource} (hs : .particleSource s ∈ stages) :
      Feeds event stages bus [s.emission event] [s.emission event]
  | never (hstale : ∀ primaries, bus.get? .primaries = some primaries → primaries.event < event)
      (hnone : ∀ s, .particleSource s ∉ stages) : Feeds event stages bus [] []

section Events

variable {event : Nat} {stages : List Stage} {stage changed : Stage} {fed pending : List Primaries}

theorem Feeds.event_le (h : Feeds event [] bus fed pending) :
    ∀ primaries, bus.get? .primaries = some primaries → primaries.event ≤ event := by
  intro primaries hprimaries
  cases h with
  | current hbus hevent hnone =>
    rw [hbus] at hprimaries
    obtain rfl := Option.some.inj hprimaries
    exact hevent.le
  | coming hstale hs => cases hs
  | never hstale hnone => exact (hstale primaries hprimaries).le

/-- One step: what the stage makes of the particles, and what is left for the stages behind it. -/
theorem Feeds.step (h : Feeds event (stage :: stages) bus fed pending)
    (heffect : StepEffect event bus stage changed busAfter)
    (hnew : stage.id ∉ stages.map id) :
    changed = stage.feed fed 1 ∧ (fed = [] → ∀ s, stage ≠ .planeHistogram s) ∧
      ∃ rest, Feeds event stages busAfter fed rest ∧
        pending = (published? ⟨.step, some event, stage, bus, .ok changed, busAfter⟩).toList ++ rest := by
  -- Only the source changes what is fed, and a histogram needs it to have had its turn.
  cases heffect with
  | idle hidle =>
    have hfeed : stage = stage.feed fed 1 := by
      cases stage <;> first | rfl | exact hidle.elim
    have hsource (s : ParticleSource) : Stage.particleSource s ≠ stage := by
      rintro rfl
      exact hidle
    have hhistogram (s : PlaneHistogram) : stage ≠ .planeHistogram s := by
      rintro rfl
      exact hidle
    have hpublished : published? ⟨.step, some event, stage, bus, .ok stage, bus⟩ = none := by
      cases stage <;> first | rfl | exact hidle.elim
    refine ⟨hfeed, fun _ => hhistogram, pending, ?_, by rw [hpublished]; rfl⟩
    cases h with
    | current hbus hevent hnone => exact .current hbus hevent fun s hs => hnone s (by simp [hs])
    | coming hstale hs =>
      exact .coming hstale ((List.mem_cons.mp hs).resolve_left (hsource _))
    | never hstale hnone => exact .never hstale fun s hs => hnone s (by simp [hs])
  | particleSource s =>
    cases h with
    | current hbus hevent hnone => exact absurd (by simp) (hnone s)
    | never hstale hnone => exact absurd (by simp) (hnone s)
    | @coming hstale t ht =>
      have hothers (u : ParticleSource) : Stage.particleSource u ∉ stages :=
        fun hu => hnew (List.mem_map.mpr ⟨_, hu, rfl⟩)
      obtain rfl : t = s :=
        Stage.particleSource.inj ((List.mem_cons.mp ht).resolve_right (hothers t))
      refine ⟨rfl, by simp, [], .current (Bus.get?_put_self bus _ _) rfl hothers, ?_⟩
      simp [published?, ParticleSource.emission]
  | @planeHistogram s placement primaries hplacement hprimaries hevent =>
    cases h with
    | coming hstale hs => exact absurd hevent (hstale primaries hprimaries).ne
    | never hstale hnone => exact absurd hevent (hstale primaries hprimaries).ne
    | @current found hbus hcurrent hnone =>
      obtain rfl : found = primaries := Option.some.inj (hbus.symm.trans hprimaries)
      refine ⟨?_, by simp, [], .current hbus hcurrent fun t ht => hnone t (by simp [ht]), rfl⟩
      unfold feed
      simp [hplacement]

/-- An event that went through: every stage is fed what the source of the event publishes. -/
theorem event_phase
    (htrace : PhaseTrace (abortable clock aborted) context (.event event) instances bus log
      (.ok ()) after busAfter)
    (hdistinct : (instances.map fun i => i.module.id).Nodup)
    (hfeeds : Feeds event (instances.map Instance.module) bus fed pending) :
    after.map Instance.slot = instances.map Instance.slot ∧
      after.map Instance.module = instances.map (fun i => i.module.feed fed 1) ∧
      published log = pending ∧
      (fed = [] → ∀ s, .planeHistogram s ∉ instances.map Instance.module) ∧
      ∀ primaries, busAfter.get? .primaries = some primaries → primaries.event ≤ event := by
  generalize hok : Except.ok () = result at htrace
  induction htrace generalizing pending with
  | nil bus =>
    refine ⟨rfl, rfl, ?_, by simp, hfeeds.event_le⟩
    cases hfeeds with
    | coming hstale hs => cases hs
    | _ => rfl
  | aborted i rest bus => cases hok
  | failed hcall => cases hok
  | @called i rest after bus busNext busLast world next changed log result hcall elapsed hrest ih =>
    rw [List.map_cons, List.nodup_cons] at hdistinct
    have heffect : StepEffect event bus i.module changed busNext :=
      step_ok { context with event := some event } rfl hcall
    rw [List.map_cons] at hfeeds
    obtain ⟨hchanged, hhistogram, more, hmore, hpending⟩ :=
      hfeeds.step heffect (by simpa [Function.comp_def] using hdistinct.1)
    obtain ⟨hslots, hmodules, hpublished, hhistograms, hevent⟩ := ih hdistinct.2 hmore hok
    refine ⟨?_, ?_, ?_, ?_, hevent⟩
    · rw [List.map_cons, List.map_cons, hslots]
      rfl
    · rw [List.map_cons, List.map_cons, hmodules, hchanged]
    · rw [hpending, ← hpublished]
      exact published_append [⟨.step, some event, i.module, bus, .ok changed, busNext⟩] log
    · intro hnone s hs
      rw [List.map_cons] at hs
      rcases List.mem_cons.mp hs with hs | hs
      · exact hhistogram hnone s hs.symm
      · exact hhistograms hnone s hs

theorem source_unique {s t : ParticleSource} (hdistinct : (stages.map id).Nodup)
    (hs : .particleSource s ∈ stages) (ht : .particleSource t ∈ stages) : s = t :=
  Stage.particleSource.inj (List.inj_on_of_nodup_map hdistinct hs ht rfl)

/-- Events that went through: every histogram counts what the source publishes from event to event. -/
theorem events_trace {remaining : Nat}
    (htrace : EventsTrace (abortable clock aborted) context remaining event instances bus log
      (.ok ()) after busAfter)
    (hdistinct : (instances.map fun i => i.module.id).Nodup)
    (hstale : ∀ primaries, bus.get? .primaries = some primaries → primaries.event < event) :
    after.map Instance.slot = instances.map Instance.slot ∧
      after.map Instance.module =
        instances.map (fun i => i.module.feed (published log) remaining) ∧
      (∀ s, .particleSource s ∈ instances.map Instance.module →
        published log = s.emissions event remaining) ∧
      ((∀ s, .particleSource s ∉ instances.map Instance.module) →
        published log = [] ∧
          (remaining ≠ 0 → ∀ s, .planeHistogram s ∉ instances.map Instance.module)) := by
  generalize hok : Except.ok () = result at htrace
  induction htrace with
  | done event instances bus =>
    refine ⟨rfl, List.map_congr_left fun i _ => (feed_nothing _).symm, fun s _ => rfl,
      fun _ => ⟨rfl, fun h => absurd rfl h⟩⟩
  | failed hphase => cases hok
  | @next remaining event instances after last bus busAfter busLast log more result hphase hrest ih =>
    have hids : ((instances.map Instance.module).map id).Nodup := by
      rwa [List.map_map]
    -- What is still to be published is exactly what all stages of the event are fed.
    have hfeeds : ∃ fed, Feeds event (instances.map Instance.module) bus fed fed ∧
        (∀ s, .particleSource s ∈ instances.map Instance.module → fed = [s.emission event]) ∧
        ((∀ s, .particleSource s ∉ instances.map Instance.module) → fed = []) := by
      by_cases hsource : ∃ s, .particleSource s ∈ instances.map Instance.module
      · obtain ⟨s, hs⟩ := hsource
        refine ⟨_, .coming hstale hs, fun t ht => ?_, fun hnone => absurd hs (hnone s)⟩
        rw [source_unique hids hs ht]
      · have hnone (s : ParticleSource) : .particleSource s ∉ instances.map Instance.module :=
          fun hs => hsource ⟨s, hs⟩
        exact ⟨[], .never hstale hnone, fun s hs => absurd hs (hnone s), fun _ => rfl⟩
    obtain ⟨fed, hfeeds, hsource, hnone⟩ := hfeeds
    obtain ⟨hslots, hmodules, hpublished, hhistograms, hevent⟩ := event_phase hphase hdistinct hfeeds
    have hmodules' : after.map Instance.module =
        (instances.map Instance.module).map (feed fed 1) := by
      rw [hmodules, List.map_map]
      rfl
    have hids' : after.map (fun i => i.module.id) = instances.map fun i => i.module.id := by
      have h := congrArg (List.map id) hmodules
      simpa [Function.comp_def, id_feed] using h
    obtain ⟨hslots', hlast, hsources, hnothing⟩ := ih (by rwa [hids'])
      (fun primaries hprimaries => Nat.lt_succ_of_le (hevent primaries hprimaries)) hok
    rw [published_append, hpublished]
    refine ⟨hslots'.trans hslots, ?_, fun s hs => ?_, fun hsilent => ?_⟩
    · calc last.map Instance.module
          = (after.map Instance.module).map (feed (published more) remaining) := by
            rw [hlast, List.map_map]
            rfl
        _ = instances.map fun i => i.module.feed (fed ++ published more) (remaining + 1) := by
            rw [hmodules, List.map_map]
            exact List.map_congr_left fun i _ => feed_feed fed (published more) remaining i.module
    · rw [hsource s hs, hsources s.next (by rw [hmodules']; exact List.mem_map_of_mem hs)]
      rfl
    · have hlater (s : ParticleSource) : .particleSource s ∉ after.map Instance.module := by
        rw [hmodules', List.mem_map]
        rintro ⟨stage, hstage, hfed⟩
        cases stage with
        | particleSource t => exact hsilent t hstage
        | _ => cases hfed
      rw [hnone hsilent, (hnothing hlater).1]
      exact ⟨rfl, fun _ => hhistograms (hnone hsilent)⟩

end Events

/-! ## The end of a run -/

theorem finalize_phase
    (htrace : PhaseTrace (abortable clock aborted) context .finalize instances bus log (.ok ()) after
      busAfter) :
    after.map Instance.slot = instances.map Instance.slot ∧
      after.map Instance.module = instances.map Instance.module ∧ busAfter = bus := by
  generalize hok : Except.ok () = result at htrace
  induction htrace with
  | nil bus => exact ⟨rfl, rfl, rfl⟩
  | aborted i rest bus => cases hok
  | failed hcall => cases hok
  | @called i rest after bus busNext busLast world next changed log result hcall elapsed hrest ih =>
    obtain ⟨hslots, hmodules, hbus⟩ := ih hok
    have hchanged : changed = i.module := finalize_ok { context with event := none } hcall
    have hnext : busNext = bus := by
      have hframe := finalize_frame i.module { context with event := none } bus world
      exact (congrArg (fun outcome => outcome.1.2) hcall).symm.trans hframe
    refine ⟨?_, ?_, hbus.trans hnext⟩
    · rw [List.map_cons, List.map_cons, hslots]
      rfl
    · rw [List.map_cons, List.map_cons, hmodules, hchanged]

end TestBeam.Stage
