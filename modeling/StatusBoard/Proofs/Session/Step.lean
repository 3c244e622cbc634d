import StatusBoard.Proofs.Access
import StatusBoard.Session
import Mathlib.Data.List.Basic

/-!
# What an operation does to the store

The store after an operation depends on the store before, on the operation and on its outcome:
only an operation that ends well writes, and it writes in one place. All that is said about runs
comes from this.

## Main definitions

* `Store.after` — the store after an operation with a given outcome
* `Operation.onlyReads` — the operation never writes

## Main results

* `Session.store_step` — what an operation does to the store
* `Session.store_intact` — a failure, and an operation that only reads, leave it as it was
-/

namespace StatusBoard

/-! ### Effects -/

/-- The canonical set of a definition, which is empty if the definition is malformed. -/
def ThresholdDefinition.canonical (definition : ThresholdDefinition) : List Range :=
  match definition.build with
  | .ok sorted => mergeOverlaps sorted
  | .error _ => []

namespace Store

/-- The store with an index for a metric. -/
def withIndex (s : Store) (metric : String) (index : List Marker) : Store :=
  { s with markers := s.markers.insert (keyOf metric) index }

/-- The store after an operation with this answer. -/
def afterAnswer (s : Store) (answer : Answer) : Operation → Store
  | .rebuild metric definition =>
    s.withIndex metric (Marker.index (markersFor definition.canonical))
  | .publish metric ranges => s.withIndex metric (Marker.index (markersFor ranges))
  | .replaceMarkers metric markers => s.withIndex metric (Marker.index markers)
  | .clear metric => { s with markers := s.markers.erase (keyOf metric) }
  | .record _ subject metric _ =>
    match answer with
    | .sample x => s.withSample subject metric x.toFields
    | _ => s
  | .putSample subject metric fields => s.withSample subject metric fields
  | .putMetric metric fields => { s with metrics := s.metrics.insert (keyOf metric) fields }
  | .setAvailable available => s.setAvailable available
  | _ => s

/-- The store after an operation with this outcome: a failure leaves it as it was. -/
def after (s : Store) (op : Operation) : Except Failure Answer → Store
  | .ok answer => s.afterAnswer answer op
  | .error _ => s

end Store

/-- The operation never writes. -/
def Operation.onlyReads : Operation → Bool
  | .classify .. | .markers .. | .first .. | .sampleRecords .. | .metricFields .. => true
  | .attach .. | .visit .. | .materialize .. | .query .. => true
  | _ => false

namespace Store

variable (s : Store)

theorem after_of_onlyReads {op : Operation} (h : op.onlyReads = true)
    (outcome : Except Failure Answer) : s.after op outcome = s := by
  cases outcome <;> cases op <;> first | rfl | cases h

end Store

namespace Session

variable (s : Session) {op : Operation}

theorem step_of_onlyReads (h : op.onlyReads = true) : (s.step op).2 = s := by
  cases op <;> first | rfl | cases h

/-- What a single step that writes leaves, in terms of what it writes. -/
theorem writing_eq (written : Store) {operation : Store → Except Outage Store}
    (h : operation s.store = s.store.whenAvailable written) :
    s.writing operation =
      if s.store.available then (.ok .done, { s with store := written })
      else (.error (.unavailable .offline), s) := by
  unfold writing accessing
  rw [Access.runOn_writing, h, Store.whenAvailable]
  by_cases hs : s.store.available = true
  · rw [if_pos hs, if_pos hs]; rfl
  · rw [if_neg hs, if_neg hs]; rfl

/-- A single step that writes what its operation is to leave. -/
theorem store_writing {operation : Store → Except Outage Store}
    (h : operation s.store = s.store.whenAvailable (s.store.afterAnswer .done op)) :
    (s.writing operation).2.store = s.store.after op (s.writing operation).1 := by
  rw [writing_eq s _ h]
  split <;> rfl

/-- The store after an operation is what its outcome says. -/
theorem store_step (op : Operation) :
    (s.step op).2.store = s.store.after op (s.step op).1 := by
  by_cases hreads : op.onlyReads = true
  · rw [step_of_onlyReads s hreads, Store.after_of_onlyReads _ hreads]
  cases op with
  | rebuild metric definition =>
    simp only [step, accessing, Access.runOn_rebuild, Store.rebuild]
    -- What is left to fail behind a definition that can be built is the one step that writes.
    cases hbuild : definition.build with
    | error fault => rfl
    | ok sorted =>
      have hcanonical : definition.canonical = mergeOverlaps sorted := by
        rw [ThresholdDefinition.canonical, hbuild]
      simp only [Store.publish, Store.replaceMarkers, Store.whenAvailable]
      by_cases hs : s.store.available = true
      · simp only [if_pos hs, Store.after, Except.map, Store.afterAnswer, hcanonical]
        rfl
      · simp only [if_neg hs, Store.after, Except.map]
  | record now subject metric raw =>
    simp only [step, accessing]
    rcases Access.runOn_record s.store now subject metric raw with ⟨failure, hrun⟩ | ⟨x, hrun, -⟩
    · rw [hrun]; rfl
    · rw [hrun]; rfl
  | publish | replaceMarkers | clear | putSample | putMetric => exact s.store_writing rfl
  | setAvailable available => rfl
  | failOn subject => rfl
  | _ => exact absurd rfl hreads

/-- An operation that fails leaves the store as it was, however many of its steps went well
before. So does every operation that only reads. -/
theorem store_intact (op : Operation) :
    ((∃ failure, (s.step op).1 = .error failure) → (s.step op).2.store = s.store) ∧
      (op.onlyReads = true → (s.step op).2.store = s.store) := by
  constructor
  · rintro ⟨failure, hfailure⟩
    rw [store_step, hfailure]
    rfl
  · intro hreads
    rw [step_of_onlyReads s hreads]

/-- Critical from a hundred up to a thousand. -/
def hundredUp : ThresholdDefinition := ⟨some (.ofNat 100, .ofNat 1000), none, none, none⟩

/-- A metric that has an index, and a record whose tags are no array. -/
def untagged : Session :=
  ((start .standard).run
    [.rebuild "cpu" hundredUp, .putMetric "CPU" (.ofList [("tags", "slo")])]).2

/-- Noon on the first of March in 2026. -/
def noon : Instant := (Timestamp.read? "2026-03-01T12:00:00Z").get (by decide +kernel)

/-- The reading is classified before the tags of its metric turn out to be none. -/
theorem store_intact_untagged :
    let op := Operation.record noon "web" "Cpu" (some "250")
    untagged.store.classify "Cpu" (some "250") = .ok (.ofStatus .critical) ∧
    (untagged.step op).1 = .error (.rejected (.badRecord .metricTags)) ∧
    (untagged.step op).2.store = untagged.store ∧
    (Operation.classify "Cpu" (some "250")).onlyReads = true ∧
    (untagged.step (.classify "Cpu" (some "250"))).2.store = untagged.store := by
  have hrun : (Access.record noon "web" "Cpu" (some "250")).runOn untagged.store =
      (.error (.rejected (.badRecord .metricTags)), untagged.store) := by decide +kernel
  have hfails : (untagged.step (.record noon "web" "Cpu" (some "250"))).1 =
      .error (.rejected (.badRecord .metricTags)) := by
    rw [step, accessing, hrun]
    rfl
  exact ⟨by decide +kernel, hfails, (store_intact untagged _).1 ⟨_, hfails⟩, rfl,
    (store_intact untagged _).2 rfl⟩

end Session

end StatusBoard
