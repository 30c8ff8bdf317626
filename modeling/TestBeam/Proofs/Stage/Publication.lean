import TestBeam.Proofs.Stage.Completed

/-!
# What stays on the bus

When all instances are initialised, the bus holds exactly what they published, each under its own key. Nothing
of it is lost or changed until the end of the run. Only the particles change from event to event.
-/

namespace TestBeam.Stage

open Environment (PhaseTrace EventsTrace RunTrace ExecutionTrace Shows)

/-! ## Points of a run -/

def busBehind (log : List (Sighting Stage)) : RunBus :=
  (log.getLast?.map Sighting.after).getD Bus.empty

def PastInit {α : Type} : Except RunError α → Prop
  | .ok _ => True
  | .error (.call _ _ phase _) => phase ≠ .init
  | .error (.aborted _ _ phase) => phase ≠ .init
  | .error _ => False

theorem pastInit_map {α β : Type} {f : α → β} {result : Except RunError α} :
    PastInit (result.map f) ↔ PastInit result := by
  cases result with
  | ok a => exact .rfl
  | error e => cases e <;> exact .rfl

theorem busBehind_append (log more : List (Sighting Stage)) :
    busBehind (log ++ more) = (more.getLast?.map Sighting.after).getD (busBehind log) := by
  unfold busBehind
  rw [List.getLast?_append]
  cases more.getLast? <;> rfl

theorem holds_behind {holds : RunBus → Prop} {initial rest earlier later : List (Sighting Stage)}
    (hinitial : ∀ s ∈ initial, s.hook = .init) (hstart : holds (busBehind initial))
    (hrest : ∀ s ∈ rest, holds s.after) (hsplit : initial ++ rest = earlier ++ later)
    (hlater : ∀ s ∈ later, s.hook ≠ .init) : holds (busBehind earlier) := by
  rcases List.append_eq_append_iff.mp hsplit with ⟨more, rfl, hmore⟩ | ⟨more, hmore, rfl⟩
  · rw [busBehind_append]
    cases hlast : more.getLast? with
    | none => exact hstart
    | some s => exact hrest s (hmore ▸ List.mem_append_left later (List.mem_of_getLast? hlast))
  · cases more with
    | nil => rwa [← List.append_nil earlier, ← hmore]
    | cons s more => exact absurd (hinitial s (by simp [hmore])) (hlater s (by simp))

section Traces

variable {σ : Type} [FileStore (StateM σ)] {clock : StateM σ Float} {aborted : StateM σ Bool}
  {context : Context} {instances after : List (Instance Stage)} {bus busAfter : RunBus}
  {log : List (Sighting Stage)} {names : List String}

theorem not_pastInit_of_init {α : Type} {e : RunError}
    (h : PhaseTrace (abortable clock aborted) context .init instances bus log (.error e) after
      busAfter) : ¬PastInit (.error e : Except RunError α) := by
  generalize hresult : Except.error e = result at h
  induction h with
  | nil bus => cases hresult
  | aborted i rest bus =>
    cases hresult
    exact fun hpast => hpast rfl
  | failed hcall =>
    cases hresult
    exact fun hpast => hpast rfl
  | called hcall elapsed hrest ih => exact ih hresult

theorem not_pastInit_of_construct {α : Type} {c : Configuration} {prepared : Environment.Preparation}
    (hplan : c.plan registry = .ok prepared.planned)
    (hprepare : (abortable clock aborted).prepare c = .ok prepared) {world : σ} {e : RunError}
    (h : (((abortable clock aborted).construct c prepared.global prepared.detectors
      prepared.planned (Generator.ofSeed prepared.settings.seed)).run world).1 = .error e) :
    ¬PastInit (.error e : Except RunError α) := by
  obtain ⟨-, -, htable⟩ := (abortable clock aborted).reads_of_prepare hprepare
  obtain ⟨blueprints, -, hfits, hconstruct⟩ := (abortable clock aborted).construct_eq_constructAll
    (fun p hp seed => Environment.setupOf_fits ((plan_environment c clock).trans hplan) hp htable
      prepared.global seed) (Generator.ofSeed prepared.settings.seed)
  rw [hconstruct] at h
  have hfits' : ∀ b ∈ blueprints, b.Fits c (environment clock).registry prepared.global := hfits
  rcases constructAll_run blueprints hfits' world with
    ⟨index, id, cause, hrun⟩ | ⟨instances, hrun, -, -⟩
  · rw [hrun] at h
    obtain rfl := Except.error.inj h
    exact fun hpast => hpast
  · rw [hrun] at h
    cases h

/-- What the initialisation leaves on the bus stays there, but for the particles. -/
theorem contents_of_trace {events : Nat} {result : Except RunError Unit}
    (htrace : RunTrace (abortable clock aborted) context events instances log result after bus)
    (hserves : ∀ i ∈ instances, Serves names i.module.id i.module)
    (hdistinct : (instances.map fun i => i.module.id).Nodup) (hpast : PastInit result) :
    ∃ settled, Contents context.detectors.detectors (instances.map Instance.module) settled ∧
      (∀ earlier later, log = earlier ++ later → (∀ s ∈ later, s.hook ≠ .init) →
        Keeps settled (busBehind earlier)) ∧ Keeps settled bus := by
  have hcontents {log : List (Sighting Stage)} {after : List (Instance Stage)} {settled : RunBus}
      (hinit : PhaseTrace (abortable clock aborted) context .init instances Bus.empty log (.ok ())
        after settled) :
      Contents context.detectors.detectors (instances.map Instance.module) settled :=
    (init_phase hinit (.empty context.detectors.detectors) (by simp) hserves hdistinct).1
  have hbehind {initial rest : List (Sighting Stage)} {after : List (Instance Stage)}
      {settled : RunBus}
      (hinit : PhaseTrace (abortable clock aborted) context .init instances Bus.empty initial (.ok ())
        after settled) (hrest : ∀ s ∈ rest, Keeps settled s.after) :
      ∀ earlier later, initial ++ rest = earlier ++ later → (∀ s ∈ later, s.hook ≠ .init) →
        Keeps settled (busBehind earlier) := by
    have hstart : Keeps settled (busBehind initial) := by
      rw [busBehind, hinit.getLast]
      exact .refl settled
    exact fun earlier later hsplit hlater =>
      holds_behind (fun s hs => (hinit.shows s hs).1) hstart hrest hsplit hlater
  -- A run that fails later kept what the initialisation had left.
  cases htrace with
  | initFailed hinit => exact absurd hpast (not_pastInit_of_init hinit)
  | @eventFailed _ _ _ _ _ settled _ hinit hevents =>
    obtain ⟨hall, hlast⟩ := keeps_of_events hevents (.refl settled)
    exact ⟨settled, hcontents hinit, hbehind hinit hall, hlast⟩
  | @finalized _ _ _ _ _ _ _ settled _ _ hinit hevents hfinalize =>
    obtain ⟨hall, hstepped⟩ := keeps_of_events hevents (.refl settled)
    obtain ⟨hfinal, hlast⟩ := keeps_of_finalize hfinalize hstepped
    rw [List.append_assoc]
    exact ⟨settled, hcontents hinit,
      hbehind hinit (List.forall_mem_append.mpr ⟨hall, hfinal⟩), hlast⟩

end Traces

/-! ## What the bus holds -/

/-- The bus holds what the instances of a plan published, and nothing else. -/
structure Settled (c : Configuration) (planned : List PlannedInstance)
    (instances : List (Instance Stage)) (bus : RunBus) : Prop where
  /-- There is something about a topic exactly if an instance publishes it. -/
  present : ∀ topic, topic ≠ .primaries →
    ((bus.get? topic).isSome ↔ ∃ i ∈ instances, i.module.topic? = some topic)
  /-- A field for each detector with an instance of the module, the one that this instance has read. -/
  electricFields : ∀ fields, bus.get? .electricFields = some fields →
    (∀ d, fields.contains d = true ↔
      ⟨ElectricFieldSource.name, some d⟩ ∈ planned.map PlannedInstance.id) ∧
    ∀ d field, fields.get? d = some field ↔
      ∃ i ∈ instances, i.id = ⟨ElectricFieldSource.name, some d⟩ ∧
        i.module = .electricField ⟨d, field⟩
  /-- Numbers for each instance that records some, exactly the ones that it has recorded. -/
  parameters : ∀ parameters, bus.get? .parameters = some parameters →
    (∀ name, NameMap.contains parameters name = true ↔
      ∃ p ∈ planned, p.id.name ∈ recorders ∧ p.id.display = name) ∧
    ∀ i ∈ instances, i.id.name ∈ recorders → ∃ numbers values,
      i.module.recorded? = some numbers ∧
      NameMap.get? parameters i.id.display = some values ∧
      ∀ key number, values.get? key = some number ↔ (key, number) ∈ numbers
  /-- A placement for each detector, in the order of their names. -/
  geometry : ∀ layout, bus.get? .geometry = some layout →
    (layout.placements.map Placement.name).Pairwise (· < ·) ∧
      (layout.placements.map Placement.name).Perm (c.detectors.map Entry.name)
  /-- A local field for each placement. -/
  magneticField : ∀ field, bus.get? .magneticField = some field →
    ∃ layout, bus.get? .geometry = some layout ∧
      field.perDetector.names = layout.placements.map Placement.name

/-- Two instances that record something have different texts. -/
def Apart (planned : List PlannedInstance) : Prop :=
  ∀ p ∈ planned, ∀ q ∈ planned, p.id.name ∈ recorders → q.id.name ∈ recorders →
    p.id.display = q.id.display → p = q

theorem names_ascending_of_table {c : Configuration} {detectors : DetectorTable}
    (htable : DetectorTable.ofEntries c.detectors = .ok detectors)
    (hnames : (c.detectors.map Entry.name).Nodup) :
    detectors.names.Pairwise (· < ·) ∧ detectors.names.Perm (c.detectors.map Entry.name) := by
  obtain ⟨hperm, hname⟩ := DetectorTable.entries_perm htable
  have hsame : detectors.names = (detectors.detectors.map Detector.entry).map Entry.name := by
    unfold DetectorTable.names
    rw [List.map_map]
    exact List.map_congr_left hname
  have hnamesPerm : detectors.names.Perm (c.detectors.map Entry.name) :=
    hsame ▸ hperm.map Entry.name
  unfold DetectorTable.ofEntries at htable
  obtain ⟨read, -, rfl⟩ := exists_of_map_ok htable
  have hsorted : (sortByName Detector.name read).Pairwise fun a b => a.name ≤ b.name :=
    sortByName_ascending Detector.name read
  have hnodup := hnamesPerm.nodup_iff.mpr hnames
  refine ⟨((List.pairwise_map.mpr hsorted).and hnodup).imp ?_, hnamesPerm⟩
  rintro a b ⟨hle, hne⟩
  rw [← String.not_le]
  exact fun hge => hne (String.le_antisymm hle hge)

theorem MagneticFieldSource.names_perDetector (field : Vec3 Float) {layout : DetectorLayout Float}
    (hlayout : (layout.placements.map Placement.name).Pairwise (· < ·)) :
    (perDetector field layout).names = layout.placements.map Placement.name := by
  refine names_eq_of_mem_iff (NameMap.names_ascending _) hlayout fun name => ?_
  unfold perDetector
  rw [NameMap.mem_names_iff, NameMap.contains_foldl_insert]
  simp [NameMap.empty, NameMap.contains, NameMap.get?]

section Instances

variable {c : Configuration} {global : Entry} {detectors : DetectorTable}
  {planned : List PlannedInstance} {generator : Generator} {instances : List (Instance Stage)}
  {settled bus : RunBus}

theorem settled_electricFields
    (hassembly : Assembly c global detectors planned generator instances)
    (h : Contents detectors.detectors (instances.map Instance.module) settled)
    {fields : NameMap ElectricField} (hfields : settled.get? .electricFields = some fields) :
    (∀ d, fields.contains d = true ↔
      ⟨ElectricFieldSource.name, some d⟩ ∈ planned.map PlannedInstance.id) ∧
    ∀ d field, fields.get? d = some field ↔
      ∃ i ∈ instances, i.id = ⟨ElectricFieldSource.name, some d⟩ ∧
        i.module = .electricField ⟨d, field⟩ := by
  have hread (d : String) (field : ElectricField) : fields.get? d = some field ↔
      ∃ i ∈ instances, i.id = ⟨ElectricFieldSource.name, some d⟩ ∧
        i.module = .electricField ⟨d, field⟩ := by
    have hget := h.electricFields d field
    rw [hfields, Option.getD_some, List.mem_map] at hget
    rw [hget]
    refine exists_congr fun i => and_congr_right fun hi => ?_
    refine ⟨fun hmodule => ⟨?_, hmodule⟩, And.right⟩
    obtain ⟨k, p, -, -, hassembled⟩ := hassembly.of_mem hi
    rw [hassembled.id_eq.1, ← hassembled.id_eq.2, hmodule]
    rfl
  refine ⟨fun d => ?_, hread⟩
  unfold NameMap.contains
  rw [Option.isSome_iff_exists]
  constructor
  · rintro ⟨field, hfield⟩
    obtain ⟨i, hi, hid, -⟩ := (hread d field).mp hfield
    obtain ⟨k, p, hp, -, hassembled⟩ := hassembly.of_mem hi
    exact List.mem_map.mpr ⟨p, List.mem_of_getElem? hp, hassembled.id_eq.1.symm.trans hid⟩
  · intro hplanned
    obtain ⟨p, hp, hid⟩ := List.mem_map.mp hplanned
    obtain ⟨seed, i, hi, hassembled⟩ := hassembly.of_planned hp
    obtain ⟨s, hs⟩ := exists_electricField (hassembled.name_eq.trans (congrArg ModuleId.name hid))
    have hdetector : s.detector = d := by
      have hids := hassembled.id_eq.2.trans hid
      rw [hs] at hids
      simpa [id] using hids
    subst hdetector
    exact ⟨s.field, (hread _ _).mpr ⟨i, hi, hassembled.id_eq.1.trans hid, hs⟩⟩

theorem settled_parameters
    (hassembly : Assembly c global detectors planned generator instances)
    (h : Contents detectors.detectors (instances.map Instance.module) settled)
    {parameters : StageParameters} (hparameters : settled.get? .parameters = some parameters) :
    (∀ name, NameMap.contains parameters name = true ↔
      ∃ p ∈ planned, p.id.name ∈ recorders ∧ p.id.display = name) ∧
    ∀ i ∈ instances, i.id.name ∈ recorders → ∃ numbers values,
      i.module.recorded? = some numbers ∧
      NameMap.get? parameters i.id.display = some values ∧
      ∀ key number, values.get? key = some number ↔ (key, number) ∈ numbers := by
  have hget (name : String) (values : NameMap Float) := h.parameters name values
  rw [hparameters, Option.getD_some] at hget
  have hrecorded {i : Instance Stage} (hi : i ∈ instances) (hname : i.id.name ∈ recorders) :
      ∃ numbers, i.module.recorded? = some numbers ∧
        NameMap.get? parameters i.id.display = some (NameMap.ofPairs numbers) := by
    obtain ⟨k, p, -, -, hassembled⟩ := hassembly.of_mem hi
    have hsome := (recorded?_isSome_iff i.module).mpr (hassembled.serves.name_eq ▸ hname)
    obtain ⟨numbers, hnumbers⟩ := Option.isSome_iff_exists.mp hsome
    exact ⟨numbers, hnumbers, (hget _ _).mpr ⟨i.module, List.mem_map_of_mem hi, numbers, hnumbers,
      congrArg ModuleId.display hassembled.serves.id_eq, rfl⟩⟩
  constructor
  · intro name
    unfold NameMap.contains
    rw [Option.isSome_iff_exists]
    constructor
    · rintro ⟨values, hvalues⟩
      obtain ⟨stage, hstage, numbers, hnumbers, hdisplay, -⟩ := (hget _ _).mp hvalues
      obtain ⟨i, hi, rfl⟩ := List.mem_map.mp hstage
      obtain ⟨k, p, hp, -, hassembled⟩ := hassembly.of_mem hi
      refine ⟨p, List.mem_of_getElem? hp, ?_, hassembled.id_eq.2 ▸ hdisplay⟩
      rw [← hassembled.name_eq, ← recorded?_isSome_iff, hnumbers]
      rfl
    · rintro ⟨p, hp, hname, rfl⟩
      obtain ⟨seed, i, hi, hassembled⟩ := hassembly.of_planned hp
      rw [← hassembled.id_eq.1] at hname ⊢
      obtain ⟨numbers, -, hvalues⟩ := hrecorded hi hname
      exact ⟨_, hvalues⟩
  · intro i hi hname
    obtain ⟨numbers, hnumbers, hvalues⟩ := hrecorded hi hname
    exact ⟨numbers, _, hnumbers, hvalues, fun key number => NameMap.get?_ofPairs
      (nodup_recorded hnumbers)⟩

theorem settled_of_contents (htable : DetectorTable.ofEntries c.detectors = .ok detectors)
    (hnames : (c.detectors.map Entry.name).Nodup)
    (hassembly : Assembly c global detectors planned generator instances)
    (h : Contents detectors.detectors (instances.map Instance.module) settled)
    (hkeeps : Keeps settled bus) : Settled c planned instances bus := by
  have hlayout {layout : DetectorLayout Float} (hget : settled.get? .geometry = some layout) :
      layout.placements.map Placement.name = detectors.names := by
    obtain ⟨s, -, placements, hplacements, rfl⟩ := (h.geometry layout).mp hget
    exact Placing.names_placeAll hplacements
  obtain ⟨hascending, hperm⟩ := names_ascending_of_table htable hnames
  constructor
  · intro topic htopic
    rw [hkeeps topic htopic, h.present]
    simp
  · intro fields hfields
    rw [hkeeps .electricFields (by decide)] at hfields
    exact settled_electricFields hassembly h hfields
  · intro parameters hparameters
    rw [hkeeps .parameters (by decide)] at hparameters
    exact settled_parameters hassembly h hparameters
  · intro layout hget
    rw [hkeeps .geometry (by decide)] at hget
    rw [hlayout hget]
    exact ⟨hascending, hperm⟩
  · intro field hget
    rw [hkeeps .magneticField (by decide)] at hget
    obtain ⟨s, -, layout, hgeometry, rfl⟩ := (h.magneticField field).mp hget
    refine ⟨layout, (hkeeps .geometry (by decide)).trans hgeometry, ?_⟩
    exact MagneticFieldSource.names_perDetector s.field (hlayout hgeometry ▸ hascending)

end Instances

section Plans

variable {c : Configuration} {planned : List PlannedInstance}

theorem records_of_planned (hplan : c.plan registry = .ok planned) {p : PlannedInstance}
    (hp : p ∈ planned) (hname : p.id.name ∈ recorders) : Records p.id := by
  have hkinds : ∀ name ∈ recorders, registry.kind? name = some .perDetector := by
    decide +kernel
  obtain ⟨m, -, r, hrequested, rfl⟩ := requested_of_plan hplan hp
  cases hrequested with
  | unique hkind =>
    rw [hkinds _ hname] at hkind
    cases hkind
  | perDetector hkind hmem htargets => exact ⟨hname, rfl⟩

theorem apart_of_plan (hplan : c.plan registry = .ok planned) : Apart planned := by
  intro p hp q hq hpname hqname hdisplay
  have hid := (records_of_planned hplan hp hpname).display_inj
    (records_of_planned hplan hq hqname) hdisplay
  exact List.inj_on_of_nodup_map (Configuration.distinct_of_plan hplan) hp hq hid

end Plans

/-! ## Runs -/

section Runs

variable {σ : Type} [FileStore (StateM σ)] {planned : List PlannedInstance}

/--
No publication is lost or mixed up. From the end of the initialisation to the end of the run, the bus holds
exactly what the planned instances published, each under its own key. Steps only change the particles.
-/
theorem publications_stay (clock : StateM σ Float) (aborted : StateM σ Bool) (c : Configuration)
    (runId : RunId) (world : σ) (hplan : c.plan registry = .ok planned) :
    Apart planned ∧
    (∀ context s, Shows (abortable clock aborted) context s → Framed s) ∧
    ∃ prepared result worldAfter log,
      (abortable clock aborted).prepare c = .ok prepared ∧
      ((abortable clock aborted).execute runId c).run world = (result, worldAfter) ∧
      ((abortable clock aborted).watched.execute runId c).run (world, []) =
        (result, (worldAfter, log)) ∧
      (∀ s ∈ log, Shows (abortable clock aborted)
        ⟨prepared.global, prepared.detectors, runId, none⟩ s) ∧
      (PastInit result → ∃ instances,
        Assembly c prepared.global prepared.detectors planned
          (Generator.ofSeed prepared.settings.seed) instances ∧
        (∀ earlier later, log = earlier ++ later → (∀ s ∈ later, s.hook ≠ .init) →
          Settled c planned instances (busBehind earlier)) ∧
        ∀ done, result = .ok done → Settled c planned instances done.bus) := by
  have hplan' : c.plan (abortable clock aborted).registry = .ok planned :=
    (plan_environment c clock).trans hplan
  obtain ⟨prepared, result, worldAfter, log, hprepare, rfl, hrun, hwatched, htrace⟩ :=
    (abortable clock aborted).execute_watched hplan' runId world
  refine ⟨apart_of_plan hplan, fun _ _ => framed_of_shows, prepared, result, worldAfter, log,
    hprepare, hrun, hwatched, ?_, ?_⟩
  · cases htrace with
    | unconstructed hconstruct => simp
    | constructed hconstruct htrace => exact htrace.shows
  · intro hpast
    obtain ⟨-, -, htable⟩ := (abortable clock aborted).reads_of_prepare hprepare
    have hnames := (Configuration.prepared_of_plan hplan).detectors
    cases htrace with
    | unconstructed hconstruct =>
      exact absurd hpast (not_pastInit_of_construct hplan hprepare hconstruct)
    | @constructed instances after log result bus hconstruct htrace =>
      have hassembly := assembly_of_construct hprepare hplan hconstruct
      have hpast' := pastInit_map.mp hpast
      obtain ⟨settled, hcontents, hbehind, hlast⟩ := contents_of_trace htrace hassembly.serves
        (hassembly.ids ▸ Configuration.distinct_of_plan hplan) hpast'
      refine ⟨instances, hassembly, fun earlier later hsplit hlater => ?_, fun done hdone => ?_⟩
      · exact settled_of_contents htable hnames hassembly hcontents
          (hbehind earlier later hsplit hlater)
      · cases result with
        | error e => cases hdone
        | ok u =>
          obtain rfl := Except.ok.inj hdone
          exact settled_of_contents htable hnames hassembly hcontents hlast

theorem publications_stay_beamline :
    beamline.plan registry = .ok beamlinePlan ∧
    Apart beamlinePlan ∧
    (∀ context s,
      Shows (abortable (pure 0 : StateM FileTree Float) (pure false)) context s → Framed s) ∧
    ∃ prepared done worldAfter log instances,
      (abortable (pure 0 : StateM FileTree Float) (pure false)).prepare beamline = .ok prepared ∧
      ((abortable (pure 0 : StateM FileTree Float) (pure false)).execute ⟨"id"⟩ beamline).run
        ⟨[], []⟩ = (.ok done, worldAfter) ∧
      ((abortable (pure 0 : StateM FileTree Float) (pure false)).watched.execute ⟨"id"⟩
        beamline).run (⟨[], []⟩, []) = (.ok done, (worldAfter, log)) ∧
      (∀ s ∈ log, Shows (abortable (pure 0 : StateM FileTree Float) (pure false))
        ⟨prepared.global, prepared.detectors, ⟨"id"⟩, none⟩ s) ∧
      Assembly beamline prepared.global prepared.detectors beamlinePlan
        (Generator.ofSeed prepared.settings.seed) instances ∧
      (∀ earlier later, log = earlier ++ later → (∀ s ∈ later, s.hook ≠ .init) →
        Settled beamline beamlinePlan instances (busBehind earlier)) ∧
      Settled beamline beamlinePlan instances done.bus := by
  have hplan : beamline.plan registry = .ok beamlinePlan := by decide +kernel
  have hok : (((abortable (pure 0 : StateM FileTree Float) (pure false)).execute ⟨"id"⟩
      beamline).run ⟨[], []⟩).1.isOk := by
    decide +kernel
  obtain ⟨hapart, hframed, prepared, result, worldAfter, log, hprepare, hrun, hwatched, hshows,
    hsettled⟩ := publications_stay (pure 0 : StateM FileTree Float) (pure false) beamline ⟨"id"⟩
      ⟨[], []⟩ hplan
  rw [hrun] at hok
  cases result with
  | error e => cases hok
  | ok done =>
    obtain ⟨instances, hassembly, hbehind, hlast⟩ := hsettled trivial
    exact ⟨hplan, hapart, hframed, prepared, done, worldAfter, log, instances, hprepare, hrun,
      hwatched, hshows, hassembly, hbehind, hlast done rfl⟩

end Runs

end TestBeam.Stage
