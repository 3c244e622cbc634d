import StatusBoard.Proofs.Session.History

/-!
# Isolation of indices

How a reading of a metric is classified depends on the index of that metric alone, and the index
is what the last operation that set it or took it away has left. So a whole run can be forgotten
save for that one operation.

## Main definitions

* `Operation.indexed?` — the metric whose index an operation is about
* `Operation.index` — the index that such an operation leaves
* `Event.indexing?` — the operation of an event that gave a metric its index

## Main results

* `Session.indexOf_run` — the index of a metric after a run
* `Session.step_indexed_iff` — nothing in the store decides whether an index can be set
* `Session.run_isolates_index` — readings after a run and after its last operation on the index
-/

namespace StatusBoard

open Store (keyOf)

namespace Operation

/-- The metric whose index the operation sets or takes away. -/
def indexed? : Operation → Option String
  | rebuild metric _ | publish metric _ | clear metric | replaceMarkers metric _ => some metric
  | _ => none

/-- The index that the operation leaves for its metric, which is empty if it takes it away. -/
def index : Operation → List Marker
  | rebuild _ definition => Marker.index (markersFor definition.canonical)
  | publish _ ranges => Marker.index (markersFor ranges)
  | replaceMarkers _ given => Marker.index given
  | _ => []

/-- The definition in the operation, if there is one, can be built. -/
def WellDefined : Operation → Prop
  | rebuild _ definition => ∃ sorted, definition.build = .ok sorted
  | _ => True

end Operation

/-- The operation of an event, if it succeeded in setting or taking away the index under a key. -/
def Event.indexing? (metricKey : String) (e : Event) : Option Operation :=
  match e.outcome, e.operation.indexed? with
  | .ok _, some metric => if keyOf metric = metricKey then some e.operation else none
  | _, _ => none

theorem Event.indexing?_eq_some_iff {metricKey : String} {e : Event} {op : Operation} :
    e.indexing? metricKey = some op ↔
      (∃ answer, e.outcome = .ok answer) ∧
      (∃ metric, e.operation.indexed? = some metric ∧ keyOf metric = metricKey) ∧
      e.operation = op := by
  unfold indexing?
  cases e.outcome with
  | error failure => simp
  | ok answer =>
    cases e.operation.indexed? with
    | none => simp
    | some metric => simp

/-! ### The index of one metric -/

namespace Store

variable (s : Store)

theorem indexOf_withIndex (metric metric' : String) (index : List Marker) :
    (s.withIndex metric' index).indexOf metric =
      if keyOf metric' = keyOf metric then index else s.indexOf metric := by
  rw [indexOf, withIndex, Table.get?_insert, indexOf]
  simp only [eq_comm (a := keyOf metric)]
  split_ifs <;> rfl

theorem indexOf_afterAnswer (answer : Answer) {op : Operation} (metric : String) {metric' : String}
    (h : op.indexed? = some metric') :
    (s.afterAnswer answer op).indexOf metric =
      if keyOf metric' = keyOf metric then op.index else s.indexOf metric := by
  cases op with
  | clear =>
    cases h
    rw [afterAnswer, indexOf, Table.get?_erase, indexOf]
    simp only [eq_comm (a := keyOf metric)]
    split_ifs <;> rfl
  | rebuild | publish | replaceMarkers =>
    cases h
    exact s.indexOf_withIndex metric _ _
  | _ => cases h

theorem markers_afterAnswer (answer : Answer) {op : Operation} (h : op.indexed? = none) :
    (s.afterAnswer answer op).markers = s.markers := by
  cases op with
  | rebuild | publish | clear | replaceMarkers => cases h
  | record => cases answer <;> rfl
  | _ => rfl

/-- Only an event that is about the index of a metric changes that index. -/
theorem indexOf_after (op : Operation) (outcome : Except Failure Answer) (metric : String) :
    (s.after op outcome).indexOf metric =
      ((Event.indexing? (keyOf metric) ⟨op, outcome⟩).map Operation.index).getD
        (s.indexOf metric) := by
  cases outcome with
  | error failure => rfl
  | ok answer =>
    cases hindexed : op.indexed? with
    | none =>
      have hmarkers := s.markers_afterAnswer answer hindexed
      simp [after, indexOf, hmarkers, Event.indexing?, hindexed]
    | some metric' =>
      rw [after, s.indexOf_afterAnswer answer metric hindexed]
      simp only [Event.indexing?, hindexed]
      split_ifs <;> rfl

/-- An operation on an index leaves the store as reachable as it was. -/
theorem available_after {op : Operation} {metric : String} (h : op.indexed? = some metric)
    (outcome : Except Failure Answer) : (s.after op outcome).available = s.available := by
  cases outcome <;> cases op <;> first | rfl | cases h

/-- A reading asks for nothing but the index of its metric. -/
theorem classify_congr {s t : Store} {metric : String} (havailable : s.available = t.available)
    (hindex : s.indexOf metric = t.indexOf metric) (raw : Option String) :
    s.classify metric raw = t.classify metric raw := by
  unfold classify firstAtOrAbove whenAvailable
  rw [havailable, hindex]

end Store

/-! ### Runs -/

namespace Session

variable (s : Session) (ops : List Operation)

/-- The index of a metric is what the last operation on it has left, or else what it was before
the run. -/
theorem indexOf_run (metric : String) :
    (s.run ops).2.store.indexOf metric =
      ((last? (Event.indexing? (keyOf metric)) (s.events ops)).map Operation.index).getD
        (s.store.indexOf metric) := by
  apply view_run s ops fun t : Store => t.indexOf metric
  intro t op outcome
  exact t.indexOf_after op outcome metric

/-- An operation on an index succeeds iff the store can be reached and its definition, if it has
one, can be built. What the store holds does not matter. -/
theorem step_indexed_iff {op : Operation} {metric : String} (h : op.indexed? = some metric) :
    (∃ answer, (s.step op).1 = .ok answer) ↔ s.store.available = true ∧ op.WellDefined := by
  -- All of them but rebuilding write in a single step.
  have hwriting : ∀ (written : Store) (operation : Store → Except Outage Store),
      operation s.store = s.store.whenAvailable written →
      ((∃ answer, (s.writing operation).1 = .ok answer) ↔ s.store.available = true ∧ True) := by
    intro written operation hoperation
    rw [writing_eq s written hoperation]
    split_ifs with havailable <;> simp [havailable]
  cases op with
  | rebuild metric' definition =>
    simp only [step, accessing, Access.runOn_rebuild, Store.rebuild, Operation.WellDefined]
    cases hbuild : definition.build with
    | error fault => simp [Except.map]
    | ok sorted =>
      simp only [Store.publish, Store.replaceMarkers, Store.whenAvailable]
      split_ifs with havailable <;> simp [Except.map, havailable]
  | publish | clear | replaceMarkers => exact hwriting _ _ rfl
  | _ => cases h

/-- What an operation on an index has left in some session it leaves in an empty one as well. -/
theorem indexOf_run_singleton (policy : DepthPolicy) {t : Session} {op : Operation}
    {metric metric' : String} {answer : Answer} (hindexed : op.indexed? = some metric')
    (hkey : keyOf metric' = keyOf metric) (hok : (t.step op).1 = .ok answer) :
    ((start policy).run [op]).2.store.available = true ∧
      ((start policy).run [op]).2.store.indexOf metric = op.index := by
  -- An empty store can be reached, and the definition is the same as in `t`.
  obtain ⟨-, hdefined⟩ := (t.step_indexed_iff hindexed).mp ⟨answer, hok⟩
  obtain ⟨answer', hok'⟩ := ((start policy).step_indexed_iff hindexed).mpr ⟨rfl, hdefined⟩
  have htold : Event.indexing? (keyOf metric) ⟨op, ((start policy).step op).1⟩ = some op :=
    Event.indexing?_eq_some_iff.mpr ⟨⟨answer', hok'⟩, ⟨metric', hindexed, hkey⟩, rfl⟩
  constructor
  · change ((start policy).step op).2.store.available = true
    rw [store_step, Store.available_after _ hindexed]
    rfl
  · change ((start policy).step op).2.store.indexOf metric = op.index
    rw [store_step, Store.indexOf_after, htold]
    rfl

/-- After any run a reading is classified as in a session where nothing was done but the last
operation of the run that succeeded in setting or taking away the index of its metric. No other
operation has any influence, and neither has one that failed. -/
theorem run_isolates_index (policy : DepthPolicy) (ops : List Operation) (metric : String)
    (raw : Option String) :
    let s := ((start policy).run ops).2
    let fresh := ((start policy).run
      (last? (Event.indexing? (keyOf metric)) ((start policy).events ops)).toList).2
    s.store.available = true →
      (s.step (.classify metric raw)).1 = (fresh.step (.classify metric raw)).1 := by
  intro s fresh havailable
  have hindex : s.store.indexOf metric =
      ((last? (Event.indexing? (keyOf metric)) ((start policy).events ops)).map
        Operation.index).getD [] := indexOf_run (start policy) ops metric
  have hfresh : fresh.store.available = true ∧
      s.store.indexOf metric = fresh.store.indexOf metric := by
    cases hlast : last? (Event.indexing? (keyOf metric)) ((start policy).events ops) with
    | none =>
      -- Without such an operation both indices are empty.
      simp only [fresh, hindex, hlast]
      exact ⟨rfl, rfl⟩
    | some op =>
      obtain ⟨e, he, htold⟩ := exists_of_last?_eq_some hlast
      obtain ⟨⟨answer, hok⟩, ⟨metric', hindexed, hkey⟩, rfl⟩ := Event.indexing?_eq_some_iff.mp htold
      -- The operation went well somewhere on the way, so it does at the start.
      obtain ⟨t, ht⟩ := exists_step_of_mem_events (start policy) ops he
      have hrun := indexOf_run_singleton policy hindexed hkey (ht ▸ hok)
      simp only [fresh, hindex, hlast]
      exact ⟨hrun.1, hrun.2.symm⟩
  have hclassify : s.store.classify metric raw = fresh.store.classify metric raw :=
    Store.classify_congr (havailable.trans hfresh.1.symm) hfresh.2 raw
  simp only [step, reading, accessing, Access.runOn_reading, hclassify]
  cases fresh.store.classify metric raw <;> rfl

/-- A metric is indexed twice. Later attempts on its index meet a malformed definition and an
outage, or are about another metric. -/
def contested : List Operation :=
  [.publish "cpu" [], .rebuild "CPU" hundredUp, .clear "disk",
    .rebuild "cpu" ⟨some (.ofNat 1000, .ofNat 100), none, none, none⟩, .setAvailable false,
    .clear "cpu", .setAvailable true, .putMetric "cpu" .empty]

theorem run_isolates_index_contested :
    let s := ((start .standard).run contested).2
    let last := last? (Event.indexing? (keyOf "Cpu")) ((start .standard).events contested)
    let fresh := ((start .standard).run last.toList).2
    s.store.available = true ∧
    last.map Operation.index = some (Marker.index (markersFor hundredUp.canonical)) ∧
    (s.step (.classify "Cpu" (some "250"))).1 = (fresh.step (.classify "Cpu" (some "250"))).1 ∧
    s.store.classify "Cpu" (some "250") = .ok (.ofStatus .critical) := by
  have havailable : ((start .standard).run contested).2.store.available = true := by
    decide +kernel
  refine ⟨havailable, ?_, ?_, ?_⟩
  · decide +kernel
  · exact run_isolates_index .standard contested "Cpu" (some "250") havailable
  · decide +kernel

end Session

end StatusBoard
