import TestBeam.Proofs.Configuration.Reordered
import TestBeam.Proofs.Stage.Completed

/-!
# Runs of reordered entries

Behind the particle source the order of the module entries does not matter: a run that completes ends with
the same stages and the same publications, whatever the order is.
-/

namespace TestBeam.Stage

/-! ## The same instances -/

theorem build_unique {name : String} {kind kind' : ModuleKind}
    {build build' : Setup → Except StageError Stage} (h : (name, kind, build) ∈ table)
    (h' : (name, kind', build') ∈ table) : build = build' := by
  have hnames : (table.map Prod.fst).Nodup := by decide
  have heq := List.inj_on_of_nodup_map hnames h h' rfl
  simp only [Prod.mk.injEq] at heq
  exact heq.2.2

theorem build_seed {name : String} {kind : ModuleKind} {build : Setup → Except StageError Stage}
    (h : (name, kind, build) ∈ table) (hname : name ≠ ParticleSource.name) (setup : Setup)
    (seed : UInt64) : build { setup with seed } = build setup := by
  -- Only a source depends on the seed.
  unfold table at h
  simp only [List.mem_cons, Prod.mk.injEq, List.not_mem_nil, or_false] at h
  rcases h with ⟨rfl, -, rfl⟩ | ⟨rfl, -, rfl⟩ | ⟨rfl, -, rfl⟩ | ⟨rfl, -, rfl⟩ | ⟨rfl, -, rfl⟩ |
    ⟨rfl, -, rfl⟩ | ⟨rfl, -, rfl⟩ | ⟨rfl, -, rfl⟩
  case inr.inr.inr.inl => exact absurd rfl hname
  all_goals rfl

section Setups

variable {c d : Configuration} {global : Entry} {detectors : DetectorTable}
  {p q : PlannedInstance}

theorem setupOf_eq (hid : q.id = p.id) (hentry : d.modules[q.index]? = c.modules[p.index]?)
    (seed seed' : UInt64) :
    Environment.setupOf d global detectors q seed' =
      { Environment.setupOf c global detectors p seed with seed := seed' } := by
  unfold Environment.setupOf
  rw [hid, hentry]

theorem Assembled.module_eq {seed seed' : UInt64} {i j : Instance Stage}
    (h : Assembled c global detectors p seed i) (h' : Assembled d global detectors q seed' j)
    (hid : q.id = p.id) (hentry : d.modules[q.index]? = c.modules[p.index]?)
    (hseed : p.id.name = ParticleSource.name → seed' = seed) : j.module = i.module := by
  obtain ⟨kind, build, hmem, hbuild⟩ := h.built
  obtain ⟨kind', build', hmem', hbuild'⟩ := h'.built
  rw [hid] at hmem'
  obtain rfl := build_unique hmem hmem'
  have hsame : build (Environment.setupOf d global detectors q seed') =
      build (Environment.setupOf c global detectors p seed) := by
    rw [setupOf_eq hid hentry seed seed']
    by_cases hname : p.id.name = ParticleSource.name
    · rw [hseed hname]
      rfl
    · exact build_seed hmem hname _ _
  rw [hbuild, hbuild'] at hsame
  exact Except.ok.inj hsame

end Setups

theorem kind_particleSource : registry.kind? ParticleSource.name = some .unique := by
  decide +kernel

section Assemblies

variable {c : Configuration} {front behind behind' : List Entry} {source : Entry} {global : Entry}
  {detectors : DetectorTable} {planned replanned : List PlannedInstance} {generator : Generator}
  {instances others : List (Instance Stage)}

theorem Assembly.exists_same (hsource : source.name = ParticleSource.name)
    (hactive : source.name ∉ c.ignored) (hperm : behind.Perm behind')
    (hplan : (c.setModules (front ++ source :: behind)).plan registry = .ok planned)
    (hreplan : (c.setModules (front ++ source :: behind')).plan registry = .ok replanned)
    (h : Assembly (c.setModules (front ++ source :: behind)) global detectors planned generator
      instances)
    (h' : Assembly (c.setModules (front ++ source :: behind')) global detectors replanned generator
      others) : ∀ i ∈ instances, ∃ j ∈ others, j.id = i.id ∧ j.module = i.module := by
  intro i hi
  obtain ⟨k, p, hp, -, hassembled⟩ := h.of_mem hi
  by_cases hname : p.id.name = ParticleSource.name
  · -- The source keeps its position, and so its seed.
    obtain ⟨position, hposition, hposition'⟩ :=
      Configuration.exists_position (hsource ▸ kind_particleSource) hactive hperm hplan hreplan
    have hid : p.id = ⟨source.name, none⟩ := by
      obtain ⟨s, hs⟩ := exists_particleSource (hassembled.name_eq.trans hname)
      rw [← hassembled.id_eq.2, hs, hsource]
      rfl
    have hids : (planned.map PlannedInstance.id)[k]? = (planned.map PlannedInstance.id)[position]? := by
      rw [List.getElem?_map, List.getElem?_map, hp, hposition]
      exact congrArg some hid
    have hk : k < (planned.map PlannedInstance.id).length := by
      rw [List.length_map]
      exact (List.getElem?_eq_some_iff.mp hp).1
    obtain rfl := (List.getElem?_inj hk (Configuration.distinct_of_plan hplan)).mp hids
    obtain rfl := Option.some.inj (hp.symm.trans hposition)
    obtain ⟨j, hj, hassembled'⟩ := h'.assembled k _ hposition'
    refine ⟨j, List.mem_of_getElem? hj, hassembled'.id_eq.1.trans hassembled.id_eq.1.symm, ?_⟩
    exact hassembled.module_eq hassembled' rfl (by simp [Configuration.setModules]) fun _ => rfl
  · obtain ⟨q, hq, hid, hentry⟩ := Configuration.exists_planned_of_perm
      ((hperm.cons source).append_left front) hplan hreplan (List.mem_of_getElem? hp)
    obtain ⟨seed, j, hj, hassembled'⟩ := h'.of_planned hq
    refine ⟨j, hj, (hassembled'.id_eq.1.trans hid).trans hassembled.id_eq.1.symm, ?_⟩
    exact hassembled.module_eq hassembled' hid hentry fun hsource => absurd hsource hname

end Assemblies

/-! ## The same publications -/

theorem option_map_ext {α : Type} {map other : Option (NameMap α)}
    (hsome : map.isSome ↔ other.isSome)
    (h : ∀ name value, (map.getD NameMap.empty).get? name = some value ↔
      (other.getD NameMap.empty).get? name = some value) : map = other := by
  have hget : map.getD NameMap.empty = other.getD NameMap.empty :=
    NameMap.ext_get? fun name => Option.ext (h name)
  cases map with
  | none =>
    cases other with
    | none => rfl
    | some values => simp at hsome
  | some values =>
    cases other with
    | none => simp at hsome
    | some others => exact congrArg some hget

theorem Contents.get?_eq {detectors : List Detector} {stages others : List Stage}
    {bus otherBus : RunBus} (h : Contents detectors stages bus)
    (hother : Contents detectors others otherBus) (hsame : ∀ stage, stage ∈ stages ↔ stage ∈ others)
    (topic : Topic) : bus.get? topic = otherBus.get? topic := by
  have hgeometry : bus.get? .geometry = otherBus.get? .geometry :=
    Option.ext fun layout => by simp only [h.geometry, hother.geometry, hsame]
  cases topic with
  | geometry => exact hgeometry
  | magneticField =>
    exact Option.ext fun field => by
      simp only [h.magneticField, hother.magneticField, hsame, hgeometry]
  | electricFields =>
    apply option_map_ext
    · simp only [h.hasElectricFields, hother.hasElectricFields, hsame]
    · simp only [h.electricFields, hother.electricFields, hsame, implies_true]
  | parameters =>
    apply option_map_ext
    · simp only [h.hasParameters, hother.hasParameters, hsame]
    · simp only [h.parameters, hother.parameters, hsame, implies_true]
  | primaries => rw [h.primaries, hother.primaries]

/-! ## The same run -/

/-- Two runs publish the same particles, and end with the same instances and the same bus. -/
structure SameOutcome (done other : Environment.Completion Stage)
    (log otherLog : List (Sighting Stage)) : Prop where
  events : done.events = other.events
  /-- Call by call, with the event of each. -/
  published : published log = published otherLog
  ids : (done.instances.map Instance.id).Perm (other.instances.map Instance.id)
  /-- An instance ends as it does in the other run, a histogram with the same counts and events. -/
  modules : ∀ i ∈ done.instances, ∀ j ∈ other.instances, i.id = j.id → i.module = j.module
  bus : ∀ topic, topic ≠ .primaries → done.bus.get? topic = other.bus.get? topic

section Runs

variable {σ τ : Type} [FileStore (StateM σ)] [FileStore (StateM τ)] {clock : StateM σ Float}
  {aborted : StateM σ Bool} {otherClock : StateM τ Float} {otherAborted : StateM τ Bool}
  {c : Configuration} {modules others : List Entry} {prepared otherPrepared : Environment.Preparation}
  {instances otherInstances : List (Instance Stage)} {log otherLog : List (Sighting Stage)}
  {done other : Environment.Completion Stage}

theorem reads_eq (h : (abortable clock aborted).prepare (c.setModules modules) = .ok prepared)
    (hother : (abortable otherClock otherAborted).prepare (c.setModules others) = .ok otherPrepared) :
    otherPrepared.global = prepared.global ∧ otherPrepared.settings = prepared.settings ∧
      otherPrepared.detectors = prepared.detectors := by
  obtain ⟨hglobal, hsettings, htable⟩ := (abortable clock aborted).reads_of_prepare h
  obtain ⟨hglobal', hsettings', htable'⟩ :=
    (abortable otherClock otherAborted).reads_of_prepare hother
  have hsame : otherPrepared.global = prepared.global :=
    Option.some.inj (hglobal'.symm.trans hglobal)
  rw [hsame] at hsettings'
  exact ⟨hsame, Except.ok.inj (hsettings'.symm.trans hsettings),
    Except.ok.inj (htable'.symm.trans htable)⟩

/-- Runs that start with the same instances have the same outcome, in whatever order these are. -/
theorem sameOutcome_of_starts
    (h : CompletedRun clock aborted (c.setModules modules) prepared instances log done)
    (hother : CompletedRun otherClock otherAborted (c.setModules others) otherPrepared
      otherInstances otherLog other)
    (hstarts : ∀ i ∈ instances, ∃ j ∈ otherInstances, j.id = i.id ∧ j.module = i.module)
    (hstarts' : ∀ j ∈ otherInstances, ∃ i ∈ instances, i.id = j.id ∧ i.module = j.module)
    (hsource : ∃ s, .particleSource s ∈ instances.map Instance.module) :
    SameOutcome done other log otherLog := by
  obtain ⟨-, hsettings, hdetectors⟩ := reads_eq h.prepare hother.prepare
  have hevents : done.events = other.events := by
    rw [h.events, hother.events, hsettings]
  have hstages (stage : Stage) :
      stage ∈ instances.map Instance.module ↔ stage ∈ otherInstances.map Instance.module := by
    rw [List.mem_map, List.mem_map]
    constructor
    · rintro ⟨i, hi, rfl⟩
      obtain ⟨j, hj, -, hmodule⟩ := hstarts i hi
      exact ⟨j, hj, hmodule⟩
    · rintro ⟨j, hj, rfl⟩
      obtain ⟨i, hi, -, hmodule⟩ := hstarts' j hj
      exact ⟨i, hi, hmodule⟩
  have hpublished : published log = published otherLog := by
    obtain ⟨s, hs⟩ := hsource
    rw [h.completed.emitted s hs, hother.completed.emitted s ((hstages _).mp hs), hevents]
  have hbus (topic : Topic) (htopic : topic ≠ .primaries) :
      done.bus.get? topic = other.bus.get? topic := by
    obtain ⟨settled, hcontents, hkeeps⟩ := h.completed.contents
    obtain ⟨settled', hcontents', hkeeps'⟩ := hother.completed.contents
    rw [hdetectors] at hcontents'
    rw [hkeeps topic htopic, hkeeps' topic htopic, hcontents.get?_eq hcontents' hstages]
  obtain ⟨hnodup, hids⟩ := h.distinct
  obtain ⟨hnodup', hids'⟩ := hother.distinct
  refine ⟨hevents, hpublished, ?_, fun i hi j hj hid => ?_, hbus⟩
  · rw [hids, hids', List.perm_ext_iff_of_nodup hnodup hnodup']
    intro id
    rw [List.mem_map, List.mem_map]
    constructor
    · rintro ⟨i, hi, rfl⟩
      obtain ⟨j, hj, hid, -⟩ := hstarts i hi
      exact ⟨j, hj, hid⟩
    · rintro ⟨j, hj, rfl⟩
      obtain ⟨i, hi, hid, -⟩ := hstarts' j hj
      exact ⟨i, hi, hid⟩
  · -- Both instances started as the same stage and were fed the same particles.
    obtain ⟨_, p, start, -, hstart, hslot, hassembled, hmodule⟩ := h.origin hi
    obtain ⟨_, q, start', -, hstart', hslot', hassembled', hmodule'⟩ := hother.origin hj
    obtain ⟨found, hfound, hfoundId, hfoundModule⟩ := hstarts start hstart
    have hsame : found.id = start'.id := by
      calc found.id = p.id := hfoundId.trans hassembled.id_eq.1
        _ = i.id := (congrArg Slot.id hslot).symm
        _ = j.id := hid
        _ = q.id := congrArg Slot.id hslot'
        _ = start'.id := hassembled'.id_eq.1.symm
    obtain rfl := List.inj_on_of_nodup_map hnodup' hfound hstart' hsame
    rw [hmodule, hmodule', hfoundModule, hpublished, hevents, hbus .geometry (by decide)]

variable {front behind behind' : List Entry} {source : Entry}

/--
Behind the particle source the order of the module entries does not matter. Two runs that complete publish
the same particles in every event, and end with the same histograms and the same publications.
-/
theorem order_behind_source_is_irrelevant (hsource : source.name = ParticleSource.name)
    (hactive : source.name ∉ c.ignored) (hperm : behind.Perm behind') (runId otherRunId : RunId)
    {world worldAfter : σ} {otherWorld otherWorldAfter : τ}
    (h : ((abortable clock aborted).execute runId
      (c.setModules (front ++ source :: behind))).run world = (.ok done, worldAfter))
    (hother : ((abortable otherClock otherAborted).execute otherRunId
      (c.setModules (front ++ source :: behind'))).run otherWorld = (.ok other, otherWorldAfter)) :
    ∃ log otherLog,
      ((abortable clock aborted).watched.execute runId
        (c.setModules (front ++ source :: behind))).run (world, []) =
          (.ok done, (worldAfter, log)) ∧
      ((abortable otherClock otherAborted).watched.execute otherRunId
        (c.setModules (front ++ source :: behind'))).run (otherWorld, []) =
          (.ok other, (otherWorldAfter, otherLog)) ∧
      SameOutcome done other log otherLog := by
  obtain ⟨prepared, instances, log, hwatched, hcompleted⟩ := completedRun_of_execute h
  obtain ⟨otherPrepared, otherInstances, otherLog, hwatched', hcompleted'⟩ :=
    completedRun_of_execute hother
  obtain ⟨hglobal, hsettings, hdetectors⟩ := reads_eq hcompleted.prepare hcompleted'.prepare
  have hassembly := hcompleted.assembly
  have hassembly' := hcompleted'.assembly
  rw [hglobal, hsettings, hdetectors] at hassembly'
  refine ⟨log, otherLog, hwatched, hwatched', sameOutcome_of_starts hcompleted hcompleted' ?_ ?_ ?_⟩
  · exact hassembly.exists_same hsource hactive hperm hcompleted.plan hcompleted'.plan hassembly'
  · exact hassembly'.exists_same hsource hactive hperm.symm hcompleted'.plan hcompleted.plan hassembly
  · obtain ⟨k, hk, -⟩ := Configuration.exists_position (hsource ▸ kind_particleSource) hactive hperm
      hcompleted.plan hcompleted'.plan
    obtain ⟨i, hi, hassembled⟩ := hassembly.assembled k _ hk
    obtain ⟨s, hs⟩ := exists_particleSource (hassembled.name_eq.trans hsource)
    exact ⟨s, List.mem_map.mpr ⟨i, List.mem_of_getElem? hi, hs⟩⟩

end Runs

/-! ## A sample -/

def beam : Entry :=
  Entry.ofPairs ParticleSource.name [
    ("particle_type", .text "e-"), ("source_energy", .text "5GeV"), ("source_position", .text "0 0 0")]

def behindBeam : List Entry :=
  [Entry.empty PlaneHistogram.name, Entry.empty Digitizer.name]

def forwards : Configuration :=
  beamline.setModules ([Entry.empty Placing.name] ++ beam :: behindBeam)

def backwards : Configuration :=
  beamline.setModules ([Entry.empty Placing.name] ++ beam :: behindBeam.reverse)

theorem order_behind_source_is_irrelevant_beam :
    beam.name = ParticleSource.name ∧ beam.name ∉ beamline.ignored ∧
      behindBeam.Perm behindBeam.reverse ∧
      ∃ done other worldAfter otherWorldAfter,
        ((abortable (pure 0 : StateM FileTree Float) (pure false)).execute ⟨"a"⟩ forwards).run
          ⟨[], []⟩ = (.ok done, worldAfter) ∧
        ((abortable (pure 1 : StateM FileTree Float) (pure false)).execute ⟨"b"⟩ backwards).run
          ⟨[], []⟩ = (.ok other, otherWorldAfter) ∧
        ∃ log otherLog,
          ((abortable (pure 0 : StateM FileTree Float) (pure false)).watched.execute ⟨"a"⟩
            forwards).run (⟨[], []⟩, []) = (.ok done, (worldAfter, log)) ∧
          ((abortable (pure 1 : StateM FileTree Float) (pure false)).watched.execute ⟨"b"⟩
            backwards).run (⟨[], []⟩, []) = (.ok other, (otherWorldAfter, otherLog)) ∧
          SameOutcome done other log otherLog := by
  have hsource : beam.name = ParticleSource.name := by decide +kernel
  have hactive : beam.name ∉ beamline.ignored := by decide +kernel
  have hperm : behindBeam.Perm behindBeam.reverse := (List.reverse_perm behindBeam).symm
  have hok : (((abortable (pure 0 : StateM FileTree Float) (pure false)).execute ⟨"a"⟩
      forwards).run ⟨[], []⟩).1.isOk := by
    decide +kernel
  have hok' : (((abortable (pure 1 : StateM FileTree Float) (pure false)).execute ⟨"b"⟩
      backwards).run ⟨[], []⟩).1.isOk := by
    decide +kernel
  rcases hrun : ((abortable (pure 0 : StateM FileTree Float) (pure false)).execute ⟨"a"⟩
    forwards).run ⟨[], []⟩ with ⟨_ | done, worldAfter⟩
  · rw [hrun] at hok
    cases hok
  rcases hrun' : ((abortable (pure 1 : StateM FileTree Float) (pure false)).execute ⟨"b"⟩
    backwards).run ⟨[], []⟩ with ⟨_ | other, otherWorldAfter⟩
  · rw [hrun'] at hok'
    cases hok'
  exact ⟨hsource, hactive, hperm, done, other, worldAfter, otherWorldAfter, rfl, rfl,
    order_behind_source_is_irrelevant hsource hactive hperm ⟨"a"⟩ ⟨"b"⟩ hrun hrun'⟩

end TestBeam.Stage
