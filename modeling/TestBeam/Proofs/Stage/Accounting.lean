import TestBeam.Proofs.Stage.Completed

/-!
# Accounting for particles

At the end of a run every histogram accounts for each particle that the source published: it is in a cell,
or it is overflow, or it flew parallel to the plane.
-/

namespace TestBeam

def Configuration.entryOf (c : Configuration) (p : PlannedInstance) : Entry :=
  c.modules[p.index]?.getD (Entry.empty p.id.name)

theorem RunSettings.events_of_read {global : Entry} {settings : RunSettings}
    (h : read global = .ok settings) :
    global.countOr "number_of_events" 1 = .ok settings.events := by
  unfold read at h
  obtain ⟨events, hevents, h⟩ := exists_of_bind_ok h
  obtain ⟨seed, -, h⟩ := exists_of_bind_ok h
  obtain rfl := Except.ok.inj h
  exact hevents

namespace Stage

/-! ## Published particles -/

namespace SourceSettings

theorem length_drawMany (s : SourceSettings) (count : Nat) (g : Generator) :
    (s.drawMany count g).1.length = count := by
  induction count generalizing g with
  | zero => rfl
  | succ count ih => exact congrArg (· + 1) (ih _)

end SourceSettings

namespace ParticleSource

theorem events_emissions (s : ParticleSource) (event count : Nat) :
    (s.emissions event count).map Primaries.event = List.range' event count := by
  induction count generalizing s event with
  | zero => rfl
  | succ count ih => exact congrArg (event :: ·) (ih s.next (event + 1))

theorem length_vertices_emissions (s : ParticleSource) (event count : Nat) :
    ∀ primaries ∈ s.emissions event count,
      primaries.vertices.length = s.settings.particlesPerEvent := by
  induction count generalizing s event with
  | zero => exact fun _ h => nomatch h
  | succ count ih =>
    refine List.forall_mem_cons.mpr ⟨s.settings.length_drawMany _ _, ih s.next (event + 1)⟩

theorem length_flatMap_emissions (s : ParticleSource) (event count : Nat) :
    ((s.emissions event count).flatMap Primaries.vertices).length =
      count * s.settings.particlesPerEvent := by
  rw [List.length_flatMap, List.map_congr_left (s.length_vertices_emissions event count),
    List.map_const', List.sum_replicate_nat, ← List.length_map (f := Primaries.event),
    s.events_emissions, List.length_range']

end ParticleSource

/-! ## What constructors read -/

structure SourceSettings.Reads (entry : Entry) (s : SourceSettings) : Prop where
  shape : ∃ word, entry.choiceOr "source_type" ["beam", "point"] "beam" = .ok word ∧
    s.shape = if word = "point" then .point else .beam
  energy : entry.quantity "source_energy" .energy = .ok s.energy
  beamSize : entry.quantityOr "beam_size" .length "0mm" = .ok s.beamSize
  direction : ∃ vector, entry.vectorOr "beam_direction" .dimensionless "0 0 1" = .ok vector ∧
    vector.normalize? = some s.direction
  particlesPerEvent : entry.countOr "number_of_particles" 1 = .ok s.particlesPerEvent
  maxStepLength : entry.quantityOr "max_step_length" .length "1um" = .ok s.maxStepLength
  particle : entry.text "particle_type" = .ok s.particle
  position : entry.vector "source_position" .length = .ok s.position
  physicsList : s.physicsList = entry.textOr "physics_list" "FTFP_BERT_EMZ"

theorem SourceSettings.reads_of_ofEntry {entry : Entry} {s : SourceSettings}
    (h : ofEntry entry = .ok s) : s.Reads entry := by
  unfold ofEntry at h
  obtain ⟨word, hword, h⟩ := exists_of_bind_ok h
  obtain ⟨energy, henergy, h⟩ := exists_of_bind_ok h
  obtain ⟨-, -, h⟩ := exists_of_bind_ok h
  obtain ⟨beamSize, hbeamSize, h⟩ := exists_of_bind_ok h
  obtain ⟨-, -, h⟩ := exists_of_bind_ok h
  obtain ⟨vector, hvector, h⟩ := exists_of_bind_ok h
  cases hunit : vector.normalize? with
  | none =>
    rw [hunit] at h
    cases h
  | some unit =>
    rw [hunit] at h
    obtain ⟨direction, hdirection, h⟩ := exists_of_bind_ok h
    obtain rfl := Except.ok.inj hdirection
    obtain ⟨particles, hparticles, h⟩ := exists_of_bind_ok h
    obtain ⟨-, -, h⟩ := exists_of_bind_ok h
    obtain ⟨maxStepLength, hmaxStepLength, h⟩ := exists_of_bind_ok h
    obtain ⟨-, -, h⟩ := exists_of_bind_ok h
    obtain ⟨particle, hparticle, h⟩ := exists_of_bind_ok h
    obtain ⟨position, hposition, h⟩ := exists_of_bind_ok h
    obtain rfl := Except.ok.inj h
    constructor
    · exact ⟨word, mapError_ok_iff.mp hword, rfl⟩
    · exact mapError_ok_iff.mp henergy
    · exact mapError_ok_iff.mp hbeamSize
    · exact ⟨vector, mapError_ok_iff.mp hvector, hunit⟩
    · exact mapError_ok_iff.mp hparticles
    · exact mapError_ok_iff.mp hmaxStepLength
    · exact mapError_ok_iff.mp hparticle
    · exact mapError_ok_iff.mp hposition
    · rfl

section Setups

variable {setup : Setup}

theorem ParticleSource.ofSetup_reads {s : ParticleSource} (h : ofSetup setup = .ok s) :
    SourceSettings.ofEntry setup.entry = .ok s.settings ∧
      s.generator = Generator.ofSeed setup.seed := by
  unfold ofSetup at h
  obtain ⟨settings, hsettings, h⟩ := exists_of_bind_ok h
  obtain rfl := Except.ok.inj h
  exact ⟨hsettings, rfl⟩

theorem PlaneHistogram.ofSetup_reads {s : PlaneHistogram} (h : ofSetup setup = .ok s) :
    s.events = 0 ∧ s.histogram.Accounted ∧ s.histogram.entries = 0 ∧
      setup.entry.countOr "bins_x" 100 = .ok s.histogram.binsX ∧
      setup.entry.countOr "bins_y" 100 = .ok s.histogram.binsY := by
  unfold ofSetup at h
  obtain ⟨detector, -, h⟩ := exists_of_bind_ok h
  obtain ⟨binsX, hbinsX, h⟩ := exists_of_bind_ok h
  obtain ⟨binsY, hbinsY, h⟩ := exists_of_bind_ok h
  obtain ⟨range, -, h⟩ := exists_of_bind_ok h
  obtain ⟨histogram, hhistogram, h⟩ := exists_of_bind_ok h
  obtain rfl := Except.ok.inj h
  obtain ⟨haccounted, rfl, rfl, hentries⟩ :=
    Histogram.accounted_make (mapError_ok_iff.mp hhistogram)
  exact ⟨rfl, haccounted, hentries, mapError_ok_iff.mp hbinsX, mapError_ok_iff.mp hbinsY⟩

end Setups

/-! ## Histograms at the end of a run -/

/-- A histogram accounts for the particles of all events. -/
structure PlaneHistogram.Accounts (s : PlaneHistogram) (entry : Entry)
    (layout? : Option (DetectorLayout Float)) (events particles : Nat)
    (published : List Primaries) : Prop where
  counted : s.events = events
  /-- Only particles that fly parallel to the plane of the detector are passed over. -/
  entries : ∃ placement, (layout?.bind fun layout => layout.get? s.detector) = some placement ∧
    s.histogram.entries + (published.flatMap Primaries.vertices).countP (isParallel placement) =
      events * particles
  total : s.histogram.counts.sum + s.histogram.overflow = s.histogram.entries
  cells : ∃ binsX binsY, entry.countOr "bins_x" 100 = .ok binsX ∧
    entry.countOr "bins_y" 100 = .ok binsY ∧ s.histogram.counts.size = binsX * binsY

/-- All histograms of a run account for its particles. -/
structure Accounts (c : Configuration) (planned : List PlannedInstance)
    (done : Environment.Completion Stage) (published : List Primaries) (particles : Nat) : Prop where
  events : ∃ global, c.global = some global ∧
    global.countOr "number_of_events" 1 = .ok done.events
  slots : done.instances.map Instance.slot = planned.map PlannedInstance.slot
  perEvent : ∀ p ∈ planned, p.id.name = ParticleSource.name →
    (c.entryOf p).countOr "number_of_particles" 1 = .ok particles
  /-- The source publishes once in every event. -/
  publishes : ∀ p ∈ planned, p.id.name = ParticleSource.name →
    published.map Primaries.event = List.range' 1 done.events ∧
      ∀ primaries ∈ published, primaries.vertices.length = particles
  /-- Where a histogram goes through events, there is a source. -/
  source : done.events ≠ 0 → ∀ p ∈ planned, p.id.name = PlaneHistogram.name →
    ∃ q ∈ planned, q.id.name = ParticleSource.name
  histograms : ∀ i ∈ done.instances, i.id.name = PlaneHistogram.name →
    ∃ p ∈ planned, p.slot = i.slot ∧ ∃ s, i.module = .planeHistogram s ∧
      s.Accounts (c.entryOf p) (done.bus.get? .geometry) done.events particles published

/-! ## Runs -/

section Runs

variable {σ : Type} [FileStore (StateM σ)] {clock : StateM σ Float} {aborted : StateM σ Bool}
  {c : Configuration} {done : Environment.Completion Stage} {log : List (Sighting Stage)}

theorem PlaneHistogram.accounts_of_fed {start s : PlaneHistogram} {setup : Setup}
    (hstart : ofSetup setup = .ok start) {layout? : Option (DetectorLayout Float)}
    {events particles : Nat} {published : List Primaries}
    (hfed : .planeHistogram s = ((Stage.planeHistogram start).settle layout?).feed published events)
    (hplaced : s.placement.isSome)
    (hlength : (published.flatMap Primaries.vertices).length = events * particles) :
    s.Accounts setup.entry layout? events particles published := by
  obtain ⟨hevents, haccounted, hentries, hbinsX, hbinsY⟩ := ofSetup_reads hstart
  unfold settle feed at hfed
  obtain rfl := Stage.planeHistogram.inj hfed
  simp only at hplaced
  obtain ⟨placement, hplacement⟩ := Option.isSome_iff_exists.mp hplaced
  obtain ⟨hafter, hx, hy, hcount⟩ :=
    countAll_accounted placement haccounted (published.flatMap Primaries.vertices)
  refine ⟨?_, ⟨placement, hplacement, ?_⟩, ?_, ?_⟩
  · simp only [hevents, Nat.zero_add]
  · simp only [hplacement]
    rw [hcount, hentries, hlength, Nat.zero_add]
  · simp only [hplacement]
    exact hafter.total
  · simp only [hplacement]
    exact ⟨_, _, hbinsX, hbinsY, by rw [hafter.size, hx, hy]⟩

variable {prepared : Environment.Preparation} {instances : List (Instance Stage)}

theorem CompletedRun.source_of_planned
    (h : CompletedRun clock aborted c prepared instances log done) {p : PlannedInstance}
    (hp : p ∈ prepared.planned) (hname : p.id.name = ParticleSource.name) :
    ∃ s, .particleSource s ∈ instances.map Instance.module ∧
      (c.entryOf p).countOr "number_of_particles" 1 = .ok s.settings.particlesPerEvent := by
  obtain ⟨seed, i, hi, hassembled⟩ := h.assembly.of_planned hp
  obtain ⟨s, hs⟩ := exists_particleSource (hassembled.name_eq.trans hname)
  have hconstructs := hassembled.constructs
  rw [hs] at hconstructs
  obtain ⟨hsettings, -⟩ := ParticleSource.ofSetup_reads hconstructs
  exact ⟨s, List.mem_map.mpr ⟨i, hi, hs⟩,
    (SourceSettings.reads_of_ofEntry hsettings).particlesPerEvent⟩

theorem CompletedRun.planned_of_source
    (h : CompletedRun clock aborted c prepared instances log done) {s : ParticleSource}
    (hs : .particleSource s ∈ instances.map Instance.module) :
    ∃ p ∈ prepared.planned, p.id.name = ParticleSource.name := by
  obtain ⟨i, hi, hmodule⟩ := List.mem_map.mp hs
  obtain ⟨k, p, hp, -, hassembled⟩ := h.assembly.of_mem hi
  have hname := hassembled.name_eq
  rw [hmodule] at hname
  exact ⟨p, List.mem_of_getElem? hp, hname.symm⟩

theorem CompletedRun.histograms (h : CompletedRun clock aborted c prepared instances log done)
    {particles : Nat}
    (hlength : ((published log).flatMap Primaries.vertices).length = done.events * particles) :
    ∀ i ∈ done.instances, i.id.name = PlaneHistogram.name →
      ∃ p ∈ prepared.planned, p.slot = i.slot ∧ ∃ s, i.module = .planeHistogram s ∧
        s.Accounts (c.entryOf p) (done.bus.get? .geometry) done.events particles
          (published log) := by
  intro i hi hname
  obtain ⟨k, p, start, hp, -, hslot, hassembled, hmodule⟩ := h.origin hi
  obtain ⟨s, hs⟩ := exists_planeHistogram
    (hassembled.name_eq.trans ((congrArg (fun slot => slot.id.name) hslot).symm.trans hname))
  have hconstructs := hassembled.constructs
  rw [hs] at hconstructs hmodule
  have hplaced := h.completed.allPlaced i.module (List.mem_map_of_mem hi)
  rw [hmodule] at hplaced
  exact ⟨p, List.mem_of_getElem? hp, hslot.symm, _, hmodule,
    PlaneHistogram.accounts_of_fed hconstructs rfl hplaced hlength⟩

theorem CompletedRun.accounts (h : CompletedRun clock aborted c prepared instances log done) :
    ∃ particles, Accounts c prepared.planned done (published log) particles := by
  obtain ⟨hglobal, hsettings, -⟩ := (abortable clock aborted).reads_of_prepare h.prepare
  have hevents : ∃ global, c.global = some global ∧
      global.countOr "number_of_events" 1 = .ok done.events := by
    refine ⟨prepared.global, hglobal, ?_⟩
    rw [h.events]
    exact RunSettings.events_of_read hsettings
  have hdistinct : ((instances.map Instance.module).map id).Nodup := by
    rw [List.map_map]
    exact h.assembly.ids ▸ Configuration.distinct_of_plan h.plan
  -- A histogram of a run without a source would have failed in the first event.
  by_cases hsource : ∃ s, .particleSource s ∈ instances.map Instance.module
  · obtain ⟨s, hs⟩ := hsource
    have hemitted := h.completed.emitted s hs
    refine ⟨s.settings.particlesPerEvent, hevents, h.slots, fun p hp hname => ?_,
      fun _ _ _ => ⟨?_, ?_⟩, fun _ _ _ _ => h.planned_of_source hs, h.histograms ?_⟩
    · obtain ⟨t, ht, hread⟩ := h.source_of_planned hp hname
      rw [source_unique hdistinct hs ht, hread]
    · rw [hemitted, s.events_emissions]
    · rw [hemitted]
      exact s.length_vertices_emissions 1 done.events
    · rw [hemitted, s.length_flatMap_emissions]
  · have hnone (s : ParticleSource) : .particleSource s ∉ instances.map Instance.module :=
      fun hs => hsource ⟨s, hs⟩
    have hplanned {p : PlannedInstance} (hp : p ∈ prepared.planned) :
        p.id.name ≠ ParticleSource.name :=
      fun hname => (h.source_of_planned hp hname).elim fun s hs => hnone s hs.1
    obtain ⟨hsilent, hhistograms⟩ := h.completed.silent hnone
    refine ⟨0, hevents, h.slots, fun p hp hname => absurd hname (hplanned hp),
      fun p hp hname => absurd hname (hplanned hp), fun hsome p hp hname => ?_, h.histograms ?_⟩
    · obtain ⟨seed, i, hi, hassembled⟩ := h.assembly.of_planned hp
      obtain ⟨s, hs⟩ := exists_planeHistogram (hassembled.name_eq.trans hname)
      exact absurd (List.mem_map.mpr ⟨i, hi, hs⟩) (hhistograms hsome s)
    · rw [hsilent]
      rfl

/--
Whatever is configured, at the end of a run that completes every histogram has gone through all events, and
each published particle is one of its entries unless it flew parallel to the plane. The entries are in its
cells or are overflow.
-/
theorem histograms_account_for_particles (clock : StateM σ Float) (aborted : StateM σ Bool)
    (c : Configuration) (runId : RunId) (world : σ) {worldAfter : σ}
    (h : ((abortable clock aborted).execute runId c).run world = (.ok done, worldAfter)) :
    ∃ planned log particles, c.plan registry = .ok planned ∧
      ((abortable clock aborted).watched.execute runId c).run (world, []) =
        (.ok done, (worldAfter, log)) ∧
      Accounts c planned done (published log) particles := by
  obtain ⟨prepared, instances, log, hwatched, hcompleted⟩ := completedRun_of_execute h
  obtain ⟨particles, haccounts⟩ := hcompleted.accounts
  exact ⟨prepared.planned, log, particles, hcompleted.plan, hwatched, haccounts⟩

theorem histograms_account_for_particles_beamline :
    ∃ done worldAfter,
      ((abortable (pure 0 : StateM FileTree Float) (pure false)).execute ⟨"id"⟩ beamline).run
        ⟨[], []⟩ = (.ok done, worldAfter) ∧
      ∃ planned log particles, beamline.plan registry = .ok planned ∧
        ((abortable (pure 0 : StateM FileTree Float) (pure false)).watched.execute ⟨"id"⟩
          beamline).run (⟨[], []⟩, []) = (.ok done, (worldAfter, log)) ∧
        Accounts beamline planned done (published log) particles := by
  have hok : (((abortable (pure 0 : StateM FileTree Float) (pure false)).execute ⟨"id"⟩
      beamline).run ⟨[], []⟩).1.isOk := by
    decide +kernel
  rcases hrun : ((abortable (pure 0 : StateM FileTree Float) (pure false)).execute ⟨"id"⟩
    beamline).run ⟨[], []⟩ with ⟨result, worldAfter⟩
  rw [hrun] at hok
  cases result with
  | error e => cases hok
  | ok done =>
    exact ⟨done, worldAfter, rfl,
      histograms_account_for_particles (pure 0 : StateM FileTree Float) (pure false) beamline ⟨"id"⟩
        ⟨[], []⟩ hrun⟩

end Runs

end Stage

end TestBeam
