import StatusBoard.Proofs.Session.Step

/-!
# Histories of runs

A run has a history: its operations, each with its outcome. What a part of the store holds after
a run is decided by the last event that touches that part, if every single operation either sets
that part to something that the event tells or leaves it as it was.

## Main definitions

* `Event` — an operation with its outcome
* `Session.events` — the history of a run
* `last?` — what the last event of a kind tells

## Main results

* `Session.view_run` — a part of the store after a run
-/

namespace StatusBoard

/-- An operation of a run, with its outcome. -/
structure Event where
  operation : Operation
  outcome : Except Failure Answer

/-! ### The last event of a kind -/

section Last

variable {β : Type}

/-- What the last event tells of those that tell anything. -/
def last? (told : Event → Option β) (events : List Event) : Option β :=
  events.reverse.findSome? told

theorem last?_cons (told : Event → Option β) (e : Event) (events : List Event) :
    last? told (e :: events) = (last? told events).or (told e) := by
  simp [last?, List.findSome?_append]

theorem last?_eq_none_iff {told : Event → Option β} {events : List Event} :
    last? told events = none ↔ ∀ e ∈ events, told e = none := by
  simp [last?]

theorem exists_of_last?_eq_some {told : Event → Option β} {events : List Event} {b : β}
    (h : last? told events = some b) : ∃ e ∈ events, told e = some b := by
  obtain ⟨e, he, htold⟩ := List.exists_of_findSome?_eq_some h
  exact ⟨e, List.mem_reverse.mp he, htold⟩

end Last

/-! ### Runs -/

namespace Session

variable (s : Session) (op : Operation) (ops : List Operation)

/-- The history of a run. -/
def events : List Event := List.zipWith Event.mk ops (s.run ops).1

theorem run_cons : (s.run (op :: ops)).2 = ((s.step op).2.run ops).2 := rfl

theorem events_cons :
    s.events (op :: ops) = ⟨op, (s.step op).1⟩ :: (s.step op).2.events ops := rfl

/-- An event of a run is an operation on some session on the way. -/
theorem exists_step_of_mem_events {e : Event} (h : e ∈ s.events ops) :
    ∃ t : Session, e.outcome = (t.step e.operation).1 := by
  induction ops generalizing s with
  | nil => simp [events] at h
  | cons op ops ih =>
    rw [events_cons, List.mem_cons] at h
    rcases h with rfl | h
    · exact ⟨s, rfl⟩
    · exact ih _ h

/-- If every event sets a part of the store to something made of what it tells, or leaves it if it
tells nothing, a run sets it to what is made of the last thing told. -/
theorem view_run {β γ : Type} (view : Store → γ) (told : Event → Option β) (made : β → γ)
    (hafter : ∀ (t : Store) (op : Operation) (outcome : Except Failure Answer),
      view (t.after op outcome) = ((told ⟨op, outcome⟩).map made).getD (view t)) :
    view (s.run ops).2.store = ((last? told (s.events ops)).map made).getD (view s.store) := by
  induction ops generalizing s with
  | nil => rfl
  | cons op ops ih =>
    rw [run_cons, ih, store_step, hafter, events_cons, last?_cons]
    -- If anything is told behind the first event, what the first one tells is forgotten.
    cases last? told ((s.step op).2.events ops) <;> rfl

end Session

end StatusBoard
