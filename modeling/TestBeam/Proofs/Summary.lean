import TestBeam.Proofs.Files.Tree
import TestBeam.Proofs.Json.Pieces
import TestBeam.Proofs.Json.Values
import TestBeam.Summary

/-!
# Summaries read back

A summary that was written is read back with every part as it was, except for its times: these are
whatever the reader makes of their digits. So exactly those summaries survive whose times do.
-/

namespace TestBeam

/-! ## Reading a printed summary -/

/-- The double that the reader makes of the printed digits. Only finite doubles have digits. -/
def Json.reread? (x : Float) : Option Float :=
  (Json.ofFloat x).float?

def ModuleReport.reread? (r : ModuleReport) : Option ModuleReport :=
  (Json.reread? r.elapsedSeconds).map fun time => { r with elapsedSeconds := time }

def RunSummary.reread? (s : RunSummary) : Option RunSummary := do
  let modules ← s.modules.mapM ModuleReport.reread?
  let time ← Json.reread? s.elapsedSeconds
  return { s with modules := modules, elapsedSeconds := time }

/-! ### Written values -/

theorem ModuleId.isPlain_toJson (id : ModuleId) : id.toJson.IsPlain := by
  apply Json.IsPlain.object
  rw [List.forall_mem_cons, List.forall_mem_singleton]
  exact ⟨.string _, Json.isPlain_ofOption _⟩

theorem ModuleReport.isPlain_toJson (r : ModuleReport) : r.toJson.IsPlain := by
  apply Json.IsPlain.object
  rw [List.forall_mem_cons, List.forall_mem_cons, List.forall_mem_singleton]
  exact ⟨Json.isPlain_ofNat _, r.id.isPlain_toJson, Json.isPlain_ofFloat _⟩

theorem RunSummary.isPlain_toJson (s : RunSummary) : s.toJson.IsPlain := by
  have hmodules : ∀ item ∈ s.modules.map ModuleReport.toJson, item.IsPlain := by
    rw [List.forall_mem_map]
    exact fun r _ => r.isPlain_toJson
  apply Json.IsPlain.object
  rw [List.forall_mem_cons, List.forall_mem_cons, List.forall_mem_cons, List.forall_mem_cons,
    List.forall_mem_singleton]
  exact ⟨.string _, Json.isPlain_ofNat _, .array hmodules, Json.isPlain_ofNat _,
    Json.isPlain_ofFloat _⟩

/-! ### Read values -/

theorem ModuleId.ofJson_toJson (id : ModuleId) : ofJson? id.toJson = some id := by
  have hrecord : id.toJson.record? ["name", "detector"] =
      some [some (.string id.name), some (.ofOption id.detector)] :=
    Json.record_object (by simp)
  obtain ⟨name, detector⟩ := id
  cases detector with
  | none => simp [ofJson?, hrecord, Json.ofOption, Json.string?]
  | some detector => simp [ofJson?, hrecord, Json.ofOption, Json.string?]

theorem ModuleReport.ofJson_toJson (r : ModuleReport) : ofJson? r.toJson = r.reread? := by
  have hrecord : r.toJson.record? ["index", "id", "elapsed_s"] =
      some [some (.ofNat r.index.toNat), some r.id.toJson, some (.ofFloat r.elapsedSeconds)] :=
    Json.record_object (by simp)
  simp only [ofJson?, hrecord, Json.count_uint64, ModuleId.ofJson_toJson, reread?, Json.reread?]
  cases (Json.ofFloat r.elapsedSeconds).float? <;> simp

theorem RunSummary.ofJson_toJson (s : RunSummary) : ofJson? s.toJson = s.reread? := by
  have hrecord : s.toJson.record? ["run_id", "events", "modules", "failed", "elapsed_s"] =
      some [some (.string s.runId.text), some (.ofNat s.events.toNat),
        some (.array (s.modules.map ModuleReport.toJson)), some (.ofNat s.failed.toNat),
        some (.ofFloat s.elapsedSeconds)] :=
    Json.record_object (by simp)
  have hmodules : (s.modules.map ModuleReport.toJson).mapM ModuleReport.ofJson? =
      s.modules.mapM ModuleReport.reread? := by
    rw [List.mapM_map]
    exact congrArg (s.modules.mapM ·) (funext ModuleReport.ofJson_toJson)
  simp only [ofJson?, hrecord, Json.string?, Json.count_uint64, Json.items?, Option.bind_eq_bind,
    Option.bind_some, hmodules, reread?, Json.reread?]
  cases s.modules.mapM ModuleReport.reread? <;>
    cases (Json.ofFloat s.elapsedSeconds).float? <;> simp

theorem RunSummary.parse_print (s : RunSummary) : parse? s.print = s.reread? := by
  rw [parse?, RunSummary.print, Json.parse_print s.isPlain_toJson, Option.bind_some, ofJson_toJson]

/-! ## Summaries that survive -/

def RunSummary.times (s : RunSummary) : List Float :=
  s.elapsedSeconds :: s.modules.map (·.elapsedSeconds)

theorem Json.reread_eq_self_iff (x : Float) :
    reread? x = some x ↔
      x.isFinite = true ∧ (number (numberLayout.print x).toList).float? = some x := by
  unfold reread? ofFloat
  split
  · simp [*]
  · simp [*, float?]

theorem ModuleReport.reread_eq_self_iff (r : ModuleReport) :
    r.reread? = some r ↔ Json.reread? r.elapsedSeconds = some r.elapsedSeconds := by
  obtain ⟨index, id, time⟩ := r
  simp [reread?]

theorem mapM_reread_eq_self_iff (reports : List ModuleReport) :
    reports.mapM ModuleReport.reread? = some reports ↔
      ∀ r ∈ reports, Json.reread? r.elapsedSeconds = some r.elapsedSeconds := by
  induction reports with
  | nil => simp
  | cons r reports ih =>
    rw [List.forall_mem_cons, ← ih, ← r.reread_eq_self_iff, List.mapM_cons]
    cases r.reread? <;> cases reports.mapM ModuleReport.reread? <;> simp

theorem RunSummary.reread_eq_self_iff (s : RunSummary) :
    s.reread? = some s ↔ ∀ x ∈ s.times, Json.reread? x = some x := by
  obtain ⟨runId, events, modules, failed, time⟩ := s
  rw [times, List.forall_mem_cons, List.forall_mem_map, ← mapM_reread_eq_self_iff]
  simp only [reread?]
  cases modules.mapM ModuleReport.reread? <;> cases Json.reread? time <;> simp [and_comm]

/-! ## Files -/

variable {σ : Type} [FileStore (StateM σ)] {path : String} {s : RunSummary} {world next : σ}

theorem RunSummary.run_write :
    (write (m := StateM σ) path s).run world =
      match (FileStore.writePieces (m := StateM σ) path s.toJson.pieces).run world with
      | (.error cause, next) => (.error (.create path cause), next)
      | (.ok storing, next) => (storing.passing.mapError (.serialize path), next) := by
  unfold write
  rw [StateT.run_bind]
  rcases (FileStore.writePieces (m := StateM σ) path s.toJson.pieces).run world with ⟨result, next⟩
  cases result <;> rfl

/-- A summary that was written is in its file, if that keeps its texts. -/
theorem RunSummary.stored_of_write (hkeeps : FileStore.KeepsTexts path world)
    (h : (write (m := StateM σ) path s).run world = (.ok (), next)) :
    ((FileStore.readText (m := StateM σ) path).run next).1 = .ok s.print := by
  obtain ⟨Holds, hkeeps⟩ := hkeeps
  rcases hrun : (FileStore.writePieces (m := StateM σ) path s.toJson.pieces).run world with
    ⟨result, last⟩
  rw [run_write, hrun] at h
  cases result with
  | error cause => cases h
  | ok storing =>
    obtain rfl : last = next := congrArg Prod.snd h
    rw [RunSummary.print, ← Json.join_pieces]
    exact (hkeeps.writePieces hrun).2

theorem RunSummary.read_ok_iff {text : String}
    (h : ((FileStore.readText (m := StateM σ) path).run world).1 = .ok text) :
    ((read (m := StateM σ) path).run world).1 = .ok s ↔ parse? text = some s := by
  rcases hrun : (FileStore.readText (m := StateM σ) path).run world with ⟨result, after⟩
  obtain rfl : result = .ok text := by rw [← h, hrun]
  rw [read, StateT.run_bind, hrun]
  cases hparse : parse? text with
  | none => simp [hparse, bind, pure, StateT.run, StateT.pure]
  | some found => simp [hparse, bind, pure, StateT.run, StateT.pure]

/--
A written summary is read back as it was exactly if all its times survive: they are finite, and the
reader makes the same doubles of their digits. Names, counts and the order of the reports always
survive.
-/
theorem RunSummary.read_written_iff (hkeeps : FileStore.KeepsTexts path world)
    (hwritten : (write (m := StateM σ) path s).run world = (.ok (), next)) :
    ((read (m := StateM σ) path).run next).1 = .ok s ↔
      ∀ x ∈ s.times, x.isFinite = true ∧
        (Json.number (Json.numberLayout.print x).toList).float? = some x := by
  have htext := stored_of_write hkeeps hwritten
  simp only [read_ok_iff htext, parse_print, reread_eq_self_iff, Json.reread_eq_self_iff]

/-- Names that need escapes, the greatest count, and an instance without a detector. -/
def RunSummary.awkward : RunSummary where
  runId := ⟨"\"run\" \\ \x01\n"⟩
  events := 18446744073709551615
  modules := [⟨3, ⟨"Charge/😀", some "d\tut"⟩, 0.25⟩, ⟨0, ⟨"", none⟩, 1.5e-7⟩]
  failed := 1
  elapsedSeconds := 12.345678

theorem RunSummary.read_written_awkward :
    ∃ next, (write (m := StateM FileTree) "run.json" awkward).run ⟨[], []⟩ = (.ok (), next) ∧
      ((read (m := StateM FileTree) "run.json").run next).1 = .ok awkward := by
  have hplace : (⟨[], []⟩ : FileTree).locate "run.json" (FileTree.components "run.json") =
      .ok ["run.json"] := by
    decide +kernel
  have hplain : (⟨[], []⟩ : FileTree).IsPlain "run.json" := by
    intro place h
    cases hplace.symm.trans h
    decide +kernel
  have hwritten : ((write (m := StateM FileTree) "run.json" awkward).run ⟨[], []⟩).1.isOk = true := by
    decide +kernel
  rcases hrun : (write (m := StateM FileTree) "run.json" awkward).run ⟨[], []⟩ with ⟨result, next⟩
  rw [hrun] at hwritten
  cases result with
  | error cause => cases hwritten
  | ok done =>
    refine ⟨next, rfl, (read_written_iff (FileTree.keepsTexts hplain) hrun).mpr ?_⟩
    decide +kernel

end TestBeam
