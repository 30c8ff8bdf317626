import TestBeam.Proofs.Executor.Observed

/-!
# Calls

What a call gives in a world, put together from its parts.
-/

namespace TestBeam.Call

variable {σ α β : Type}

/-- What a call gives in a world: its result, the bus and the world afterwards. -/
def outcome (call : Call (StateM σ) α) (bus : RunBus) (world : σ) :
    (Except StageError α × RunBus) × σ :=
  (call.run.run bus).run world

/-- A call succeeds exactly if a condition holds. It leaves the world alone. -/
structure HingesOn (call : Call (StateM σ) α) (bus : RunBus) (world : σ) (ready : Prop)
    (good : α → RunBus → Prop) : Prop where
  ok : ready → ∃ a busAfter, call.outcome bus world = ((.ok a, busAfter), world) ∧ good a busAfter
  error : ¬ready → ∃ cause busAfter, call.outcome bus world = ((.error cause, busAfter), world)

/-! ## Parts of a call -/

section Outcomes

variable (bus : RunBus) (world : σ)

theorem outcome_bind (first : Call (StateM σ) α) (next : α → Call (StateM σ) β) :
    (first >>= next).outcome bus world =
      match first.outcome bus world with
      | ((.ok a, bus), world) => (next a).outcome bus world
      | ((.error cause, bus), world) => ((.error cause, bus), world) := by
  unfold outcome
  rw [ExceptT.run_bind, Environment.run_bind]
  rcases (first.run.run bus).run world with ⟨⟨result, after⟩, last⟩
  cases result <;> rfl

theorem outcome_get?_bind (topic : Topic) (next : Option topic.Payload → Call (StateM σ) β) :
    (get? topic >>= next).outcome bus world = (next (bus.get? topic)).outcome bus world :=
  rfl

theorem outcome_put_bind (topic : Topic) (payload : topic.Payload)
    (next : Unit → Call (StateM σ) β) :
    (put topic payload >>= next).outcome bus world = (next ()).outcome (bus.put topic payload) world :=
  rfl

theorem outcome_ensure_bind (condition : Bool) (cause : StageError)
    (next : Unit → Call (StateM σ) β) :
    (ensure condition cause >>= next).outcome bus world =
      if condition then (next ()).outcome bus world else ((.error cause, bus), world) := by
  cases condition <;> rfl

end Outcomes

theorem HingesOn.map {bus : RunBus} {world : σ} {call : Call (StateM σ) α} {ready : Prop}
    {good : α → RunBus → Prop} (h : call.HingesOn bus world ready good) {f : α → β} {goodAfter : β → RunBus → Prop}
    (hgood : ∀ a busAfter, good a busAfter → goodAfter (f a) busAfter) :
    (call >>= fun a => pure (f a)).HingesOn bus world ready goodAfter := by
  constructor
  · intro hready
    obtain ⟨a, busAfter, hcall, ha⟩ := h.ok hready
    refine ⟨f a, busAfter, ?_, hgood a busAfter ha⟩
    rw [outcome_bind, hcall]
    rfl
  · intro hready
    obtain ⟨cause, busAfter, hcall⟩ := h.error hready
    refine ⟨cause, busAfter, ?_⟩
    rw [outcome_bind, hcall]

end TestBeam.Call
