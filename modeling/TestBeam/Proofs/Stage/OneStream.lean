import TestBeam.Proofs.Configuration.Recounted
import TestBeam.Proofs.Executor.Seeds
import TestBeam.Proofs.Stage.Emission
import TestBeam.Proofs.Stage.Reordered

/-!
# One stream for each source

The particles of a run are the beginning of one stream, and only the entry of the source, its position in
the plan and the seed of the run say which. So runs that share these publish the same particles, however
many events they have and whatever else they do.
-/

namespace TestBeam

namespace Configuration.Recounted

variable {c d : Configuration}

theorem entryOf (h : c.Recounted d) (p : PlannedInstance) :
    (c.entryOf p).AgreeBut "number_of_particles" (d.entryOf p) := by
  unfold Configuration.entryOf
  cases hentry : c.modules[p.index]? with
  | some entry =>
    obtain ⟨other, hother, hagree⟩ := forall₂_getElem? h.modules hentry
    rw [hother]
    exact hagree
  | none =>
    have hother : d.modules[p.index]? = none := by
      apply List.getElem?_eq_none
      rw [← h.modules.length_eq]
      exact List.getElem?_eq_none_iff.mp hentry
    rw [hother]
    exact .refl _ _

end Configuration.Recounted

namespace Stage

/-! ## Other numbers of particles -/

namespace SourceSettings

def withParticles (s : SourceSettings) (count : Nat) : SourceSettings :=
  { s with particlesPerEvent := count }

variable (s : SourceSettings)

theorem behind_withParticles (count : Nat) : (s.withParticles count).behind = s.behind := by
  funext g k
  induction k with
  | zero => rfl
  | succ k ih =>
    rw [behind, behind, ih]
    rfl

theorem sample_withParticles (count : Nat) : (s.withParticles count).sample = s.sample := by
  funext g k
  unfold sample
  rw [behind_withParticles]
  rfl

end SourceSettings

attribute [ext] SourceSettings

theorem SourceSettings.Reads.eq_withParticles {s t : SourceSettings} {entry other : Entry}
    (h : s.Reads entry) (h' : t.Reads other)
    (hagree : entry.AgreeBut "number_of_particles" other) :
    t = s.withParticles t.particlesPerEvent := by
  have hsame {α : Type} {x y : Except SettingError α} {a b : α} (hy : y = .ok b) (hxy : y = x)
      (hx : x = .ok a) : b = a :=
    Except.ok.inj (hy.symm.trans (hxy.trans hx))
  obtain ⟨word, hword, hshape⟩ := h.shape
  obtain ⟨word', hword', hshape'⟩ := h'.shape
  obtain ⟨vector, hvector, hunit⟩ := h.direction
  obtain ⟨vector', hvector', hunit'⟩ := h'.direction
  apply SourceSettings.ext
  case physicsList =>
    rw [h'.physicsList, (hagree.at (by decide)).textOr]
    exact h.physicsList.symm
  case particle => exact hsame h'.particle (hagree.at (by decide)).text h.particle
  case energy => exact hsame h'.energy ((hagree.at (by decide)).quantity _) h.energy
  case position => exact hsame h'.position ((hagree.at (by decide)).vector _) h.position
  case shape =>
    obtain rfl := hsame hword' ((hagree.at (by decide)).choiceOr _ _) hword
    exact hshape'.trans hshape.symm
  case beamSize => exact hsame h'.beamSize ((hagree.at (by decide)).quantityOr _ _) h.beamSize
  case direction =>
    obtain rfl := hsame hvector' ((hagree.at (by decide)).vectorOr _ _) hvector
    exact Option.some.inj (hunit'.symm.trans hunit)
  case particlesPerEvent => rfl
  case maxStepLength =>
    exact hsame h'.maxStepLength ((hagree.at (by decide)).quantityOr _ _) h.maxStepLength

/-! ## Configured sources -/

/--
The source of a configuration in front of the first event of a number of events. Its settings are those of
its entry, and its seed is the output at its position of the generator that starts from `random_seed`.
-/
def Emits (c : Configuration) (s : ParticleSource) (events : Nat) : Prop :=
  ∃ planned position p global seed,
    c.plan registry = .ok planned ∧ planned[position]? = some p ∧ p.id.name = ParticleSource.name ∧
    SourceSettings.ofEntry (c.entryOf p) = .ok s.settings ∧
    c.global = some global ∧ global.countOr "number_of_events" 1 = .ok events ∧
    global.countOr "random_seed" 42 = .ok seed ∧
    s.generator = Generator.ofSeed ((Generator.ofSeed seed.toUInt64).outputAt position)

section Emits

variable {c d : Configuration} {planned : List PlannedInstance} {position position' : Nat}
  {p q : PlannedInstance} {s t : ParticleSource} {events otherEvents : Nat}

theorem id_of_source (hplan : c.plan registry = .ok planned) (hp : p ∈ planned)
    (hname : p.id.name = ParticleSource.name) : p.id = ⟨ParticleSource.name, none⟩ := by
  obtain ⟨m, -, r, hrequested, rfl⟩ := requested_of_plan hplan hp
  cases hrequested with
  | unique hkind => exact congrArg (ModuleId.mk · none) hname
  | perDetector hkind hmem htargets =>
    have hunique := kind_particleSource
    rw [← hname] at hunique
    cases hkind.symm.trans hunique

theorem position_unique (hplan : c.plan registry = .ok planned) (hp : planned[position]? = some p)
    (hpname : p.id.name = ParticleSource.name) (hq : planned[position']? = some q)
    (hqname : q.id.name = ParticleSource.name) : position' = position := by
  have hpid := id_of_source hplan (List.mem_of_getElem? hp) hpname
  have hqid := id_of_source hplan (List.mem_of_getElem? hq) hqname
  have hids : (planned.map PlannedInstance.id)[position']? =
      (planned.map PlannedInstance.id)[position]? := by
    rw [List.getElem?_map, List.getElem?_map, hp, hq, Option.map_some, Option.map_some, hpid, hqid]
  have hbound : position' < (planned.map PlannedInstance.id).length := by
    rw [List.length_map]
    exact (List.getElem?_eq_some_iff.mp hq).1
  exact (List.getElem?_inj hbound (Configuration.distinct_of_plan hplan)).mp hids

/-- Other numbers of events and particles do not change the stream. -/
theorem Emits.recounted (h : Emits c s events) (h' : Emits d t otherEvents) (hcounts : c.Recounted d) :
    t = ⟨s.settings.withParticles t.settings.particlesPerEvent, s.generator⟩ := by
  obtain ⟨planned, position, p, global, seed, hplan, hp, hname, hsettings, hglobal, -, hseed,
    hgenerator⟩ := h
  obtain ⟨replanned, position', q, otherGlobal, seed', hreplan, hq, hqname, hsettings', hglobal', -,
    hseed', hgenerator'⟩ := h'
  obtain rfl := hcounts.plan_eq hplan hreplan
  obtain rfl := position_unique hplan hp hname hq hqname
  obtain rfl := Option.some.inj (hp.symm.trans hq)
  have hsame := (SourceSettings.reads_of_ofEntry hsettings).eq_withParticles
    (SourceSettings.reads_of_ofEntry hsettings') (hcounts.entryOf p)
  obtain ⟨other, hother, hagree⟩ := hcounts.global global hglobal
  obtain rfl := Option.some.inj (hglobal'.symm.trans hother)
  rw [(hagree.at (by decide)).countOr, hseed] at hseed'
  obtain rfl := Except.ok.inj hseed'
  rw [← hsame, hgenerator, ← hgenerator']

/-- The same plan, the same entry for its source, and anything else. -/
structure SameSource (c d : Configuration) : Prop where
  plan : d.plan registry = c.plan registry
  global : d.global = c.global
  entry : ∀ planned, c.plan registry = .ok planned → ∀ p ∈ planned,
    p.id.name = ParticleSource.name → d.entryOf p = c.entryOf p

theorem Emits.of_same (h : Emits c s events) (hsame : SameSource c d) : Emits d s events := by
  obtain ⟨planned, position, p, global, seed, hplan, hp, hname, hsettings, hglobal, hreads⟩ := h
  refine ⟨planned, position, p, global, seed, hsame.plan.trans hplan, hp, hname, ?_,
    hsame.global.trans hglobal, hreads⟩
  rw [hsame.entry planned hplan p (List.mem_of_getElem? hp) hname]
  exact hsettings

end Emits

theorem Assembly.sources_eq {c : Configuration} {global : Entry} {detectors : DetectorTable}
    {planned : List PlannedInstance} {generator : Generator} {instances : List (Instance Stage)}
    (h : Assembly c global detectors planned generator instances)
    (hplan : c.plan registry = .ok planned) {position : Nat} {p : PlannedInstance}
    (hp : planned[position]? = some p) (hname : p.id.name = ParticleSource.name)
    {settings : SourceSettings} (hsettings : SourceSettings.ofEntry (c.entryOf p) = .ok settings) :
    sources (instances.map Instance.module) =
      [⟨settings, Generator.ofSeed (generator.outputAt position)⟩] := by
  obtain ⟨i, hi, hassembled⟩ := h.assembled position p hp
  obtain ⟨s, hs⟩ := exists_particleSource (hassembled.name_eq.trans hname)
  have hconstructs := hassembled.constructs
  rw [hs] at hconstructs
  obtain ⟨hreads, hgenerator⟩ := ParticleSource.ofSetup_reads hconstructs
  have hsame : settings = s.settings := Except.ok.inj (hsettings.symm.trans hreads)
  have hdistinct : ((instances.map Instance.module).map id).Nodup := by
    rw [List.map_map]
    exact h.ids ▸ Configuration.distinct_of_plan hplan
  rw [Stage.sources_eq hdistinct (List.mem_map.mpr ⟨i, List.mem_of_getElem? hi, hs⟩), hsame,
    Generator.outputAt_eq]
  rw [Environment.setupOf] at hgenerator
  exact congrArg (fun generator => [ParticleSource.mk s.settings generator]) hgenerator

section Trace

variable {σ : Type} [FileStore (StateM σ)] {clock : StateM σ Float} {aborted : StateM σ Bool}
  {c : Configuration} {prepared : Environment.Preparation} {runId : RunId} {world : σ}
  {log : List (Sighting Stage)} {result : Except RunError (Environment.Completion Stage)}
  {s : ParticleSource} {events : Nat}

theorem Emits.exists_plan (h : Emits c s events) : ∃ planned, c.plan registry = .ok planned := by
  obtain ⟨planned, -, -, -, -, hplan, -⟩ := h
  exact ⟨planned, hplan⟩

/-- A run publishes nothing before its instances are constructed, and then what the source emits. -/
theorem Emits.published_of_trace (h : Emits c s events)
    (hprepare : (abortable clock aborted).prepare c = .ok prepared)
    (hplan : c.plan registry = .ok prepared.planned)
    (htrace : Environment.ExecutionTrace (abortable clock aborted) c prepared runId world log result) :
    published log <+: (List.range events).map s.portion ∧
      (result.isOk = true → published log = (List.range events).map s.portion) := by
  obtain ⟨planned, position, p, global, seed, hplanned, hp, hname, hsettings, hglobal, hevents, hseed,
    hgenerator⟩ := h
  obtain rfl := Except.ok.inj (hplan.symm.trans hplanned)
  cases htrace with
  | unconstructed hconstruct => exact ⟨List.nil_prefix, fun h => by cases h⟩
  | @constructed instances after log result bus hconstruct htrace =>
    obtain ⟨hsome, hread, -⟩ := (abortable clock aborted).reads_of_prepare hprepare
    obtain rfl := Option.some.inj (hsome.symm.trans hglobal)
    obtain ⟨seed', hseed', hsettingsSeed⟩ := RunSettings.seed_of_read hread
    obtain rfl := Except.ok.inj (hseed'.symm.trans hseed)
    obtain rfl := Except.ok.inj ((RunSettings.events_of_read hread).symm.trans hevents)
    have hsources :=
      (assembly_of_construct hprepare hplan hconstruct).sources_eq hplan hp hname hsettings
    rw [← hsettingsSeed, ← hgenerator] at hsources
    obtain ⟨hbegins, hall⟩ := run_publishes htrace hsources
    rw [s.emissions_eq] at hbegins hall
    refine ⟨hbegins, fun hok => hall ?_⟩
    cases result with
    | error e => cases hok
    | ok u => rfl

end Trace

/-! ## Runs -/

structure Run where
  configuration : Configuration
  runId : RunId
  World : Type
  [files : FileStore (StateM World)]
  clock : StateM World Float
  aborted : StateM World Bool
  world : World

attribute [instance] Run.files

namespace Run

variable (r other : Run)

def environment : Environment (StateM r.World) Stage :=
  abortable r.clock r.aborted

def result : Except RunError (Environment.Completion Stage) :=
  ((r.environment.execute r.runId r.configuration).run r.world).1

def Completes : Prop :=
  r.result.isOk = true

instance : Decidable r.Completes :=
  inferInstanceAs (Decidable (r.result.isOk = true))

def log : List (Sighting Stage) :=
  ((r.environment.watched.execute r.runId r.configuration).run (r.world, [])).2.2

def particles : List Primaries :=
  published r.log

def vertices : List PrimaryVertex :=
  r.particles.flatMap Primaries.vertices

/-- A run publishes the beginning of the stream of a source, and all its events if it completes. -/
structure Publishes (s : ParticleSource) (events : Nat) : Prop where
  watched : ∃ worldAfter,
    (r.environment.execute r.runId r.configuration).run r.world = (r.result, worldAfter) ∧
    (r.environment.watched.execute r.runId r.configuration).run (r.world, []) =
      (r.result, (worldAfter, r.log))
  stream : ∃ begun ≤ events, (r.Completes → begun = events) ∧
    r.particles = (List.range begun).map s.portion ∧
    r.vertices = (List.range (begun * s.settings.particlesPerEvent)).map
      (s.settings.sample s.generator)

/-- Two runs publish the same particles in each event in which both publish some. -/
def SameEvents : Prop :=
  ∀ a ∈ r.particles, ∀ b ∈ other.particles, a.event = b.event → a = b

variable {r other} {s t : ParticleSource} {events otherEvents : Nat}

theorem publishes (h : Emits r.configuration s events) : r.Publishes s events := by
  obtain ⟨planned, hplan⟩ := h.exists_plan
  obtain ⟨prepared, result, worldAfter, log, hprepare, rfl, hrun, hwatched, htrace⟩ :=
    r.environment.execute_watched ((plan_environment r.configuration r.clock).trans hplan) r.runId
      r.world
  have hresult : r.result = result := congrArg Prod.fst hrun
  have hlog : r.log = log := congrArg (fun run => run.2.2) hwatched
  obtain ⟨hbegins, hall⟩ := h.published_of_trace hprepare hplan htrace
  rw [← hlog] at hbegins hall
  refine ⟨⟨worldAfter, hresult ▸ hrun, by rw [hresult, hlog]; exact hwatched⟩, ?_⟩
  obtain ⟨begun, hbegun, hcompleted, hparticles⟩ : ∃ begun ≤ events,
      (r.Completes → begun = events) ∧ r.particles = (List.range begun).map s.portion := by
    by_cases hcompletes : r.Completes
    · unfold Completes at hcompletes
      rw [hresult] at hcompletes
      exact ⟨events, le_rfl, fun _ => rfl, hall hcompletes⟩
    · have hbegun := List.prefix_iff_eq_take.mp hbegins
      rw [← List.map_take, List.take_range] at hbegun
      exact ⟨_, Nat.min_le_right _ _, fun h => absurd h hcompletes, hbegun⟩
  refine ⟨begun, hbegun, hcompleted, hparticles, ?_⟩
  unfold vertices
  rw [hparticles, s.flatMap_portions]

theorem Publishes.of_completes (h : r.Publishes s events) (hcompletes : r.Completes) :
    r.particles = (List.range events).map s.portion ∧
      r.vertices = (List.range (events * s.settings.particlesPerEvent)).map
        (s.settings.sample s.generator) := by
  obtain ⟨begun, -, hall, hparticles, hvertices⟩ := h.stream
  rw [hall hcompletes] at hparticles hvertices
  exact ⟨hparticles, hvertices⟩

theorem Publishes.sameEvents (h : r.Publishes s events) (h' : other.Publishes s otherEvents) :
    r.SameEvents other := by
  obtain ⟨begun, -, -, hparticles, -⟩ := h.stream
  obtain ⟨otherBegun, -, -, hparticles', -⟩ := h'.stream
  intro a ha b hb hevent
  rw [hparticles] at ha
  rw [hparticles'] at hb
  obtain ⟨k, -, rfl⟩ := List.mem_map.mp ha
  obtain ⟨l, -, rfl⟩ := List.mem_map.mp hb
  obtain rfl : k = l := Nat.succ.inj hevent
  rfl

theorem Publishes.take (h : r.Publishes s events) (h' : other.Publishes s otherEvents)
    (hcompletes : r.Completes) (hcompletes' : other.Completes) (hle : otherEvents ≤ events) :
    other.particles = r.particles.take otherEvents := by
  rw [(h.of_completes hcompletes).1, (h'.of_completes hcompletes').1, ← List.map_take,
    List.take_range, Nat.min_eq_left hle]

end Run

/-! ## One stream -/

/-- Step after step, a source publishes its stream, in portions of the same size. -/
structure ParticleSource.Streams (s : ParticleSource) : Prop where
  /-- A step replaces the particles on the bus and changes nothing else there, whatever that is. -/
  step : ∀ {σ : Type} (context : Context) (k : Nat) (bus : RunBus) (world : σ),
    context.event = some (k + 1) →
      ((s.advance k).step context : Call (StateM σ) ParticleSource).outcome bus world =
        ((.ok (s.advance (k + 1)), bus.put .primaries (s.portion k)), world)
  event : ∀ k, (s.portion k).event = k + 1
  length : ∀ k, (s.portion k).vertices.length = s.settings.particlesPerEvent
  vertices : ∀ count, ((List.range count).map s.portion).flatMap Primaries.vertices =
    (List.range (count * s.settings.particlesPerEvent)).map (s.settings.sample s.generator)

theorem ParticleSource.streams (s : ParticleSource) : s.Streams where
  step _ _ bus world h := s.outcome_step_advance h bus world
  event _ := rfl
  length k := by
    unfold portion
    rw [List.length_map, List.length_range]
  vertices := s.flatMap_portions

/--
The particles of a run are the beginning of one stream of samples, whose seed is that of the source. No
draw of a sample is repeated, so each sample takes the next two outputs of the generator. Runs of other
lengths cut the same stream, in events of another size if the number of particles is another one, and no
other module has a part in it.
-/
theorem source_publishes_one_stream (r : Run) {s : ParticleSource} {events : Nat}
    (h : Emits r.configuration s events) :
    (∀ settings seed, (ParticleSource.mk settings (Generator.ofSeed seed)).Streams) ∧
    (∀ (g : Generator) (drawn : Float × Generator),
      (g.DrawsBelow 1 1 drawn ↔ drawn = g.unit) ∧
      (g.DrawsBelow (2 * pi) (2 * pi) drawn ↔ drawn = g.below (2 * pi))) ∧
    (∀ (settings : SourceSettings) (g : Generator),
      (∀ drawn, settings.Samples g drawn ↔ drawn = settings.draw g) ∧
      ∀ k, settings.Samples (g.skip (2 * k)) (settings.sample g k, g.skip (2 * (k + 1)))) ∧
    (∀ {σ ι : Type} (env : Environment (StateM σ) ι) (c : Configuration)
      (planned : List PlannedInstance), c.plan env.registry = .ok planned →
        env.SeedsInOrder c planned) ∧
    r.Publishes s events ∧
    (∀ (other : Run) (t : ParticleSource) (otherEvents : Nat),
      Emits other.configuration t otherEvents →
      r.configuration.Recounted other.configuration →
        (t.settings.particlesPerEvent = s.settings.particlesPerEvent →
          r.SameEvents other ∧
          (r.Completes → other.Completes → otherEvents ≤ events →
            other.particles = r.particles.take otherEvents)) ∧
        (r.Completes → other.Completes →
          otherEvents * t.settings.particlesPerEvent = events * s.settings.particlesPerEvent →
            other.vertices = r.vertices)) ∧
    (∀ other : Run, SameSource r.configuration other.configuration →
      r.SameEvents other ∧
      (r.Completes → other.Completes → other.particles = r.particles)) := by
  have hpublishes := Run.publishes h
  refine ⟨?_, ?_, ?_, ?_, hpublishes, ?_, ?_⟩
  · intro settings seed
    exact ParticleSource.streams _
  · intro g drawn
    exact g.draws_once drawn
  · intro settings g
    exact ⟨settings.samples_iff g, settings.samples_sample g⟩
  · intro σ ι env c planned hplan
    exact env.seedsInOrder hplan
  · intro other t otherEvents h' hcounts
    have hother := h.recounted h' hcounts
    constructor
    · intro hparticles
      have hsource : t = s := by
        rw [hother, hparticles]
        rfl
      have hpublishes' := Run.publishes (hsource ▸ h')
      exact ⟨hpublishes.sameEvents hpublishes', hpublishes.take hpublishes'⟩
    · intro hcompletes hcompletes' hcount
      have hsample : t.settings.sample t.generator = s.settings.sample s.generator := by
        rw [hother, SourceSettings.sample_withParticles]
      rw [(hpublishes.of_completes hcompletes).2, ((Run.publishes h').of_completes hcompletes').2,
        hcount, hsample]
  · intro other hsame
    have hpublishes' := Run.publishes (h.of_same hsame)
    refine ⟨hpublishes.sameEvents hpublishes', fun hcompletes hcompletes' => ?_⟩
    rw [(hpublishes.of_completes hcompletes).1, (hpublishes'.of_completes hcompletes').1]

/-! ## A sample -/

def beamlineRun (configuration : Configuration) : Run where
  configuration
  runId := ⟨"id"⟩
  World := FileTree
  clock := pure 0
  aborted := pure false
  world := ⟨[], []⟩

/-- The same beam with both particles in one event. -/
def pairedBeamline : Configuration :=
  { beamline with
    global := some (beamlineGlobal.set "number_of_events" (.integer 1))
    modules := [Entry.empty Placing.name, beam.set "number_of_particles" (.integer 2),
      Entry.empty PlaneHistogram.name] }

def rebinnedBeamline : Configuration :=
  { beamline with
    modules := [Entry.empty Placing.name, beam,
      (Entry.empty PlaneHistogram.name).set "bins_x" (.integer 7)] }

theorem exists_emits {c : Configuration} {p : PlannedInstance} {global : Entry}
    {events particles : Nat} {planned : List PlannedInstance} (position seed : Nat)
    (hplan : c.plan registry = .ok planned)
    (hp : planned[position]? = some p) (hname : p.id.name = ParticleSource.name)
    (hglobal : c.global = some global) (hevents : global.countOr "number_of_events" 1 = .ok events)
    (hseed : global.countOr "random_seed" 42 = .ok seed)
    (hparticles : (c.entryOf p).countOr "number_of_particles" 1 = .ok particles)
    (hok : (SourceSettings.ofEntry (c.entryOf p)).isOk = true) :
    ∃ s, Emits c s events ∧ s.settings.particlesPerEvent = particles := by
  cases hsettings : SourceSettings.ofEntry (c.entryOf p) with
  | error e =>
    rw [hsettings] at hok
    cases hok
  | ok settings =>
    have hread := (SourceSettings.reads_of_ofEntry hsettings).particlesPerEvent
    exact ⟨⟨settings, _⟩, ⟨planned, position, p, global, seed, hplan, hp, hname, hsettings, hglobal,
      hevents, hseed, rfl⟩, Except.ok.inj (hread.symm.trans hparticles)⟩

theorem recounted_pairedBeamline : beamline.Recounted pairedBeamline where
  global global hglobal := by
    obtain rfl := Option.some.inj hglobal
    exact ⟨_, rfl, .set _ _ _⟩
  modules := .cons (.refl _ _) (.cons (.set _ _ _) (.cons (.refl _ _) .nil))
  detectors := rfl
  ignored := rfl

theorem sameSource_rebinnedBeamline : SameSource beamline rebinnedBeamline where
  plan := by decide +kernel
  global := rfl
  entry := by
    have hplan : beamline.plan registry = .ok beamlinePlan := by decide +kernel
    intro planned hplanned p hp hname
    obtain rfl := Except.ok.inj (hplan.symm.trans hplanned)
    simp only [beamlinePlan, List.mem_cons, List.not_mem_nil, or_false] at hp
    rcases hp with rfl | rfl | rfl
    · exact absurd hname (by decide)
    · rfl
    · exact absurd hname (by decide)

theorem source_publishes_one_stream_beamline :
    ∃ s t, Emits beamline s 2 ∧ Emits pairedBeamline t 1 ∧
      (beamlineRun beamline).Completes ∧ (beamlineRun pairedBeamline).Completes ∧
      (beamlineRun rebinnedBeamline).Completes ∧
      (beamlineRun beamline).Publishes s 2 ∧
      (beamlineRun pairedBeamline).vertices = (beamlineRun beamline).vertices ∧
      (beamlineRun rebinnedBeamline).particles = (beamlineRun beamline).particles := by
  have hcompletes : (beamlineRun beamline).Completes := by decide +kernel
  have hpaired : (beamlineRun pairedBeamline).Completes := by decide +kernel
  have hrebinned : (beamlineRun rebinnedBeamline).Completes := by decide +kernel
  obtain ⟨s, hs, hone⟩ : ∃ s, Emits beamline s 2 ∧ s.settings.particlesPerEvent = 1 := by
    have hplan : beamline.plan registry = .ok beamlinePlan := by decide +kernel
    apply exists_emits 1 42 hplan rfl rfl rfl
    all_goals decide +kernel
  obtain ⟨t, ht, htwo⟩ : ∃ t, Emits pairedBeamline t 1 ∧ t.settings.particlesPerEvent = 2 := by
    have hplan : pairedBeamline.plan registry = .ok beamlinePlan := by decide +kernel
    apply exists_emits 1 42 hplan rfl rfl rfl
    all_goals decide +kernel
  obtain ⟨-, -, -, -, hpublishes, hrecounted, hsame⟩ :=
    source_publishes_one_stream (beamlineRun beamline) hs
  refine ⟨s, t, hs, ht, hcompletes, hpaired, hrebinned, hpublishes, ?_, ?_⟩
  · obtain ⟨-, hvertices⟩ :=
      hrecounted (beamlineRun pairedBeamline) t 1 ht recounted_pairedBeamline
    exact hvertices hcompletes hpaired (by rw [hone, htwo])
  · exact (hsame (beamlineRun rebinnedBeamline) sameSource_rebinnedBeamline).2 hcompletes hrebinned

end Stage

end TestBeam
