import TestBeam.Proofs.Executor.Calls
import TestBeam.Proofs.Executor.Run

/-!
# Runs that depend on an order

In a phase an instance may need that others were called before it. If nobody asks for an abort, such a phase
goes through exactly if every instance comes after those that it needs. Otherwise it ends with the first one
that does not.
-/

namespace TestBeam

/-! ## Orders -/

/-- Whether an instance can be called, given the instances in front of it. -/
abbrev Readiness := List ModuleId → ModuleId → Prop

/-- Every slot is ready when its turn comes. -/
def Ordered (ready : Readiness) (slots : List Slot) : Prop :=
  ∀ before slot after, slots = before ++ slot :: after → ready (before.map Slot.id) slot.id

/-- All slots in front of this one are ready, and it is not. -/
def FirstUnready (ready : Readiness) (slots : List Slot) (slot : Slot) : Prop :=
  ∃ before after, slots = before ++ slot :: after ∧ Ordered ready before ∧
    ¬ready (before.map Slot.id) slot.id

def Readiness.next (ready : Readiness) (id : ModuleId) : Readiness :=
  fun before => ready (id :: before)

section Orders

variable {ready : Readiness} {first slot : Slot} {rest slots : List Slot}

theorem ordered_nil (ready : Readiness) : Ordered ready [] := by
  intro before slot after h
  simp at h

theorem ordered_cons :
    Ordered ready (first :: rest) ↔ ready [] first.id ∧ Ordered (ready.next first.id) rest := by
  constructor
  · intro h
    refine ⟨h [] first rest rfl, fun before slot after hsplit => ?_⟩
    exact h (first :: before) slot after (by rw [hsplit, List.cons_append])
  · rintro ⟨hfirst, hrest⟩ before slot after hsplit
    cases before with
    | nil =>
      obtain ⟨rfl, -⟩ := List.cons.inj hsplit
      exact hfirst
    | cons b before =>
      obtain ⟨rfl, htail⟩ := List.cons.inj hsplit
      exact hrest before slot after htail

theorem FirstUnready.head (h : ¬ready [] first.id) (rest : List Slot) :
    FirstUnready ready (first :: rest) first :=
  ⟨[], rest, rfl, ordered_nil ready, h⟩

theorem FirstUnready.cons (hfirst : ready [] first.id)
    (h : FirstUnready (ready.next first.id) rest slot) :
    FirstUnready ready (first :: rest) slot := by
  obtain ⟨before, after, rfl, hbefore, hslot⟩ := h
  exact ⟨first :: before, after, rfl, ordered_cons.mpr ⟨hfirst, hbefore⟩, hslot⟩

theorem FirstUnready.not_ordered (h : FirstUnready ready slots slot) : ¬Ordered ready slots := by
  obtain ⟨before, after, hsplit, -, hslot⟩ := h
  exact fun hordered => hslot (hordered before slot after hsplit)

end Orders

inductive PhaseEnd (ready : Readiness) (slots : List Slot) (phase : Phase) :
    Except RunError Unit → Prop where
  | completed (h : Ordered ready slots) : PhaseEnd ready slots phase (.ok ())
  | failed {slot : Slot} (h : FirstUnready ready slots slot) (cause : StageError) :
      PhaseEnd ready slots phase (.error (.call slot.index slot.id phase cause))

namespace PhaseEnd

variable {ready : Readiness} {first : Slot} {rest slots : List Slot} {phase : Phase}
  {result : Except RunError Unit}

theorem cons (hfirst : ready [] first.id)
    (h : PhaseEnd (ready.next first.id) rest phase result) :
    PhaseEnd ready (first :: rest) phase result := by
  cases h with
  | completed h => exact .completed (ordered_cons.mpr ⟨hfirst, h⟩)
  | failed h cause => exact .failed (.cons hfirst h) cause

theorem ordered (h : PhaseEnd ready slots phase (.ok ())) : Ordered ready slots := by
  cases h with
  | completed h => exact h

theorem eq_ok (h : PhaseEnd ready slots phase result) (hordered : Ordered ready slots) :
    result = .ok () := by
  cases h with
  | completed => rfl
  | failed h => exact absurd hordered h.not_ordered

end PhaseEnd

/-- How the phases of a run end whose initialisation and events depend on orders. -/
inductive RunEnd {α : Type} (initReady eventReady : Readiness) (slots : List Slot) (events : Nat) :
    Except RunError α → Prop where
  | completed (hinit : Ordered initReady slots) (hevents : events = 0 ∨ Ordered eventReady slots)
      (value : α) : RunEnd initReady eventReady slots events (.ok value)
  | initFailed {slot : Slot} (hinit : FirstUnready initReady slots slot) (cause : StageError) :
      RunEnd initReady eventReady slots events (.error (.call slot.index slot.id .init cause))
  | eventFailed (hinit : Ordered initReady slots) (hevents : events ≠ 0) {slot : Slot}
      (hevent : FirstUnready eventReady slots slot) (cause : StageError) :
      RunEnd initReady eventReady slots events
        (.error (.call slot.index slot.id (.event 1) cause))

namespace RunEnd

variable {α β : Type} {initReady eventReady : Readiness} {slots : List Slot} {events : Nat}
  {result : Except RunError α}

theorem map (h : RunEnd initReady eventReady slots events result) (f : α → β) :
    RunEnd initReady eventReady slots events (result.map f) := by
  cases h with
  | completed hinit hevents value => exact .completed hinit hevents (f value)
  | initFailed hinit cause => exact .initFailed hinit cause
  | eventFailed hinit hevents hevent cause => exact .eventFailed hinit hevents hevent cause

theorem ok_iff (h : RunEnd initReady eventReady slots events result) :
    (∃ value, result = .ok value) ↔
      Ordered initReady slots ∧ (events = 0 ∨ Ordered eventReady slots) := by
  cases h with
  | completed hinit hevents value => exact ⟨fun _ => ⟨hinit, hevents⟩, fun _ => ⟨value, rfl⟩⟩
  | initFailed hinit cause => simp [hinit.not_ordered]
  | eventFailed hinit hevents hevent cause => simp [hevents, hevent.not_ordered]

end RunEnd

/-! ## Phases -/

namespace Environment

variable {σ ι : Type}

/--
What the calls of a phase do. `holds` tells what is on the bus once some instances have had their turn, and
`start` and `done` what is known of a module before and after its own call.
-/
def PhaseSpec (env : Environment (StateM σ) ι) (context : Context) (phase : Phase)
    (ready : Readiness) (holds : List ModuleId → RunBus → Prop) (start done : ModuleId → ι → Prop) :
    Prop :=
  ∀ before id module bus world, start id module → holds before bus →
    (env.call module phase.hook { context with event := phase.event? }).HingesOn bus world
      (ready before id) fun changed busAfter => done id changed ∧ holds (before ++ [id]) busAfter

variable {env : Environment (StateM σ) ι} {context : Context} {phase : Phase} {ready : Readiness}
  {holds : List ModuleId → RunBus → Prop} {start done : ModuleId → ι → Prop}

theorem PhaseSpec.next (h : env.PhaseSpec context phase ready holds start done) (id : ModuleId) :
    env.PhaseSpec context phase (ready.next id) (fun before => holds (id :: before)) start done :=
  fun before => h (id :: before)

theorem runPhase_nil_run (bus : RunBus) (world : σ) :
    ((env.runPhase context phase []).run bus).run world = (((.ok (), []), bus), world) :=
  rfl

structure Called (holds : List ModuleId → RunBus → Prop) (done : ModuleId → ι → Prop)
    (instances after : List (Instance ι)) (bus : RunBus) : Prop where
  slots : after.map Instance.slot = instances.map Instance.slot
  done : ∀ i ∈ after, done i.id i.module
  holds : holds (instances.map Instance.id) bus

theorem PhaseSpec.run (h : env.PhaseSpec context phase ready holds start done)
    (haborted : env.aborted = pure false) (instances : List (Instance ι))
    (hstart : ∀ i ∈ instances, start i.id i.module) (bus : RunBus) (hholds : holds [] bus)
    (world : σ) :
    ∃ result after busAfter worldAfter,
      ((env.runPhase context phase instances).run bus).run world =
        (((result, after), busAfter), worldAfter) ∧
      PhaseEnd ready (instances.map Instance.slot) phase result ∧
      (result = .ok () → Called holds done instances after busAfter) := by
  -- The first call moves its instance from those still to come to those that had their turn.
  induction instances generalizing ready holds bus world with
  | nil =>
    exact ⟨.ok (), [], bus, world, runPhase_nil_run bus world, .completed (ordered_nil ready),
      fun _ => ⟨rfl, by simp, hholds⟩⟩
  | cons i rest ih =>
    obtain ⟨hfirst, hrest⟩ := List.forall_mem_cons.mp hstart
    rcases hclock : env.clock.run world with ⟨startTime, world₁⟩
    rcases hclock' : env.clock.run world₁ with ⟨stopTime, world₂⟩
    have haborted' : env.aborted.run world = (false, world) := by
      rw [haborted]
      rfl
    rw [List.map_cons, runPhase_cons_run]
    simp only [haborted', callInstance_run, hclock]
    by_cases hready : ready [] i.id
    · obtain ⟨changed, busAfter, hcall, hdone, hholds'⟩ := (h [] i.id i.module bus world₁ hfirst hholds).ok hready
      unfold Call.outcome at hcall
      obtain ⟨result, after, busLast, worldLast, hrun, hend, hcalled⟩ :=
        ih (h.next i.id) hrest busAfter hholds' world₂
      refine ⟨result, { i with
        module := changed, elapsedSeconds := i.elapsedSeconds + (stopTime - startTime) } :: after,
        busLast, worldLast, ?_, .cons hready hend, ?_⟩
      · simp only [hcall, hclock', Except.map, hrun, Bool.false_eq_true, if_false]
      · intro hok
        obtain ⟨hslots, hafter, hlast⟩ := hcalled hok
        refine ⟨?_, List.forall_mem_cons.mpr ⟨hdone, hafter⟩, hlast⟩
        rw [List.map_cons, List.map_cons, hslots]
        rfl
    · obtain ⟨cause, busAfter, hcall⟩ := (h [] i.id i.module bus world₁ hfirst hholds).error hready
      unfold Call.outcome at hcall
      refine ⟨.error (.call i.index i.id phase cause), i :: rest, busAfter, world₂, ?_,
        .failed (.head hready _) cause, nofun⟩
      simp only [hcall, hclock', Except.map, Bool.false_eq_true, if_false]

/-! ## Events -/

/--
If the first event goes through, all of them do: what the modules of one event leave on the bus cannot be
missing in the next one.
-/
theorem runEvents_ordered {holds : Nat → List ModuleId → RunBus → Prop}
    {good : ModuleId → ι → Prop}
    (h : ∀ event, env.PhaseSpec context (.event event) ready (holds event) good good)
    (hnext : ∀ {event before bus}, holds event before bus → holds (event + 1) [] bus)
    (haborted : env.aborted = pure false) (remaining event : Nat) (instances : List (Instance ι))
    (hgood : ∀ i ∈ instances, good i.id i.module) (bus : RunBus) (hholds : holds event [] bus)
    (world : σ) :
    ∃ result after busAfter worldAfter,
      ((env.runEvents context remaining event instances).run bus).run world =
        (((result, after), busAfter), worldAfter) ∧
      (remaining = 0 → result = .ok ()) ∧
      (remaining ≠ 0 → PhaseEnd ready (instances.map Instance.slot) (.event event) result) ∧
      (result = .ok () → after.map Instance.slot = instances.map Instance.slot ∧
        ∀ i ∈ after, good i.id i.module) := by
  induction remaining generalizing event instances bus world with
  | zero =>
    exact ⟨.ok (), instances, bus, world, rfl, fun _ => rfl, fun h => absurd rfl h,
      fun _ => ⟨rfl, hgood⟩⟩
  | succ remaining ih =>
    obtain ⟨result, after, bus₁, world₁, hrun, hend, hcalled⟩ :=
      (h event).run haborted instances hgood bus hholds world
    rw [runEvents, run_bind, hrun]
    cases result with
    | error e => exact ⟨.error e, after, bus₁, world₁, rfl, by simp, fun _ => hend, by simp⟩
    | ok done =>
      obtain ⟨hslots, hafter, hlast⟩ := hcalled rfl
      have hordered := hend.ordered
      obtain ⟨result, after₂, bus₂, world₂, hrun₂, hzero, hsucc, hcalled₂⟩ :=
        ih (event + 1) after hafter bus₁ (hnext hlast) world₁
      -- Later events have the order of the first one, which was not violated.
      have hok : result = .ok () := by
        by_cases hremaining : remaining = 0
        · exact hzero hremaining
        · exact (hsucc hremaining).eq_ok (hslots ▸ hordered)
      refine ⟨result, after₂, bus₂, world₂, hrun₂, by simp, ?_, ?_⟩
      · intro _
        rw [hok]
        exact .completed hordered
      · intro hresult
        rw [← hslots]
        exact hcalled₂ hresult

/-! ## Runs -/

/-- What the calls of a whole run do if its initialisation and its events depend on orders. -/
structure RunSpec (env : Environment (StateM σ) ι) (context : Context)
    (initReady eventReady : Readiness) (initHolds : List ModuleId → RunBus → Prop)
    (eventHolds : Nat → List ModuleId → RunBus → Prop) (start good : ModuleId → ι → Prop) : Prop where
  aborted : env.aborted = pure false
  empty : initHolds [] Bus.empty
  init : env.PhaseSpec context .init initReady initHolds start good
  first : ∀ {before bus}, initHolds before bus → eventHolds 1 [] bus
  event : ∀ event, env.PhaseSpec context (.event event) eventReady (eventHolds event) good good
  next : ∀ {event before bus}, eventHolds event before bus → eventHolds (event + 1) [] bus
  finalize : env.PhaseSpec context .finalize (fun _ _ => True) (fun _ _ => True) good
    fun _ _ => True

variable {initReady eventReady : Readiness} {initHolds : List ModuleId → RunBus → Prop}
  {eventHolds : Nat → List ModuleId → RunBus → Prop} {good : ModuleId → ι → Prop}

theorem RunSpec.run (h : env.RunSpec context initReady eventReady initHolds eventHolds start good)
    (events : Nat) (instances : List (Instance ι))
    (hstart : ∀ i ∈ instances, start i.id i.module) (world : σ) :
    ∃ result after bus worldAfter,
      ((env.runPhases context events instances).run Bus.empty).run world =
        (((result, after), bus), worldAfter) ∧
      RunEnd initReady eventReady (instances.map Instance.slot) events result := by
  obtain ⟨result, after, bus₁, world₁, hrun, hend, hcalled⟩ :=
    h.init.run h.aborted instances hstart Bus.empty h.empty world
  rw [runPhases, run_bind, hrun]
  cases hend with
  | failed hfirst cause => exact ⟨_, after, bus₁, world₁, rfl, .initFailed hfirst cause⟩
  | completed hinit =>
    obtain ⟨hslots, hafter, hlast⟩ := hcalled rfl
    obtain ⟨result, after₂, bus₂, world₂, hrun₂, hzero, hsucc, hcalled₂⟩ :=
      runEvents_ordered h.event h.next h.aborted events 1 after hafter bus₁ (h.first hlast) world₁
    simp only [run_bind, hrun₂]
    rw [hslots] at hsucc
    cases result with
    | error e =>
      have hevents : events ≠ 0 := by
        intro hevents
        cases hzero hevents
      cases hsucc hevents with
      | failed hfirst cause =>
        exact ⟨_, after₂, bus₂, world₂, rfl, .eventFailed hinit hevents hfirst cause⟩
    | ok done =>
      obtain ⟨-, hafter₂⟩ := hcalled₂ rfl
      obtain ⟨result, after₃, bus₃, world₃, hrun₃, hend₃, -⟩ :=
        h.finalize.run h.aborted after₂ hafter₂ bus₂ trivial world₂
      refine ⟨result, after₃, bus₃, world₃, hrun₃, ?_⟩
      obtain rfl : result = .ok () := hend₃.eq_ok fun _ _ _ _ => trivial
      refine .completed hinit ?_ ()
      by_cases hevents : events = 0
      · exact .inl hevents
      · exact .inr (hsucc hevents).ordered

end Environment

end TestBeam
