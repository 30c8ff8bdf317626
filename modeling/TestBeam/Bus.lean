/-!
# The bus

Modules never call each other. One module puts a payload on the bus and a later one looks for it.
The bus holds at most one payload for each topic, and the topic fixes the type of the payload.
-/

namespace TestBeam

abbrev Posting {τ : Type} (Payload : τ → Type) := (topic : τ) × Payload topic

/-- At most one payload for each topic. -/
structure Bus {τ : Type} (Payload : τ → Type) where
  postings : List (Posting Payload)
  distinct : (postings.map Sigma.fst).Nodup

namespace Bus

variable {τ : Type} {Payload : τ → Type}

def empty : Bus Payload :=
  ⟨[], by simp⟩

instance : Inhabited (Bus Payload) := ⟨empty⟩

def size (bus : Bus Payload) : Nat :=
  bus.postings.length

variable [DecidableEq τ]

def find? (topic : τ) : List (Posting Payload) → Option (Payload topic)
  | [] => none
  | ⟨t, payload⟩ :: rest => if h : t = topic then some (h ▸ payload) else find? topic rest

def get? (bus : Bus Payload) (topic : τ) : Option (Payload topic) :=
  find? topic bus.postings

def contains (bus : Bus Payload) (topic : τ) : Bool :=
  (bus.get? topic).isSome

def erase (bus : Bus Payload) (topic : τ) : Bus Payload :=
  ⟨bus.postings.filter fun p => p.1 ≠ topic,
    bus.distinct.sublist (List.filter_sublist.map _)⟩

/-- Puts a payload on the bus, in place of an earlier one for the topic. -/
def put (bus : Bus Payload) (topic : τ) (payload : Payload topic) : Bus Payload :=
  ⟨⟨topic, payload⟩ :: (bus.erase topic).postings, by
    have fresh : topic ∉ (bus.erase topic).postings.map Sigma.fst := by
      simp [erase]
    exact List.nodup_cons.2 ⟨fresh, (bus.erase topic).distinct⟩⟩

def modify (bus : Bus Payload) (topic : τ) (change : Payload topic → Payload topic) :
    Bus Payload :=
  match bus.get? topic with
  | some payload => bus.put topic (change payload)
  | none => bus

/-- Changes the payload for a topic. A missing one starts from the default. -/
def update (bus : Bus Payload) (topic : τ) [Inhabited (Payload topic)]
    (change : Payload topic → Payload topic) : Bus Payload :=
  bus.put topic (change ((bus.get? topic).getD default))

/-- Removes the payload for a topic and returns it. -/
def take (bus : Bus Payload) (topic : τ) : Option (Payload topic) × Bus Payload :=
  (bus.get? topic, bus.erase topic)

/-! ## What a look-up finds -/

theorem find?_filter_ne {topic other : τ} (h : other ≠ topic) (ps : List (Posting Payload)) :
    find? other (ps.filter fun p => p.1 ≠ topic) = find? other ps := by
  induction ps with
  | nil => rfl
  | cons p ps ih =>
    by_cases hp : p.1 = topic
    · simp [hp, find?, Ne.symm h, ← ih]
    · by_cases ho : p.1 = other
      · simp [find?, ho, h]
      · simp [hp, find?, ho, ← ih]

theorem find?_filter_self (topic : τ) (ps : List (Posting Payload)) :
    find? topic (ps.filter fun p => p.1 ≠ topic) = none := by
  induction ps with
  | nil => rfl
  | cons p ps ih =>
    by_cases hp : p.1 = topic
    · simpa [List.filter_cons, hp] using ih
    · simpa [List.filter_cons, hp, find?] using ih

@[simp]
theorem get?_empty (topic : τ) : (empty : Bus Payload).get? topic = none := rfl

@[simp]
theorem get?_put_self (bus : Bus Payload) (topic : τ) (payload : Payload topic) :
    (bus.put topic payload).get? topic = some payload := by
  simp [get?, put, find?]

theorem get?_put_of_ne (bus : Bus Payload) {topic other : τ} (payload : Payload topic)
    (h : other ≠ topic) : (bus.put topic payload).get? other = bus.get? other := by
  simpa [get?, put, erase, find?, Ne.symm h] using find?_filter_ne h bus.postings

@[simp]
theorem get?_erase_self (bus : Bus Payload) (topic : τ) :
    (bus.erase topic).get? topic = none :=
  find?_filter_self topic bus.postings

theorem get?_erase_of_ne (bus : Bus Payload) {topic other : τ} (h : other ≠ topic) :
    (bus.erase topic).get? other = bus.get? other :=
  find?_filter_ne h bus.postings

end Bus

end TestBeam
