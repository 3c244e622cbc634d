import StatusBoard.Recorder

/-!
# What an access does to the store

An access runs its steps one after the other, and each step sees the store as those before it
left it. Rebuilding an index and recording a reading write in one step, with every step that can
fail before it. So they write all they have to write, or they fail and write nothing.

## Main definitions

* `Store.withSample` — the store with a sample record
* `Store.Gives` — a sample is what a reading gives

## Main results

* `Access.runOn_bind` — the outcome of two steps
* `Access.runOn_rebuild` — rebuilding an index in steps and at once
* `Access.runOn_record` — recording a reading fails on the old store, or stores what it returns
-/

namespace StatusBoard

/-! ### Recorded samples -/

namespace Store

/-- The store with a record as the sample of a metric on a subject. -/
def withSample (s : Store) (subject metric : String) (fields : Fields) : Store :=
  { s with
    samples := s.samples.insert (keyOf subject)
      ((s.samplesOf subject).insert (keyOf metric) fields) }

/-- The metric has these tags: its record holds them, or it has no record and they are none. -/
def HasTags (s : Store) (metric : String) (tags : List String) : Prop :=
  (s.metricFields metric = .ok none ∧ tags = []) ∨
    ∃ fields, s.metricFields metric = .ok (some fields) ∧ fields.metricTags = .ok tags

/-- The sample is what a reading of a metric on a subject gives at a moment: it has the severity
of the reading, and the tags that the metric has in the store. -/
structure Gives (s : Store) (now : Instant) (subject metric : String) (raw : Option String)
    (x : Sample) : Prop where
  name_eq : x.name = Sample.nameFor subject metric
  metric_eq : x.metric = metric
  value_eq : x.value = raw.getD ""
  classify_eq : s.classify metric raw = .ok x.status
  hasTags : s.HasTags metric x.metricTags
  updatedAt_eq : x.updatedAt = some now

end Store

/-! ### Steps -/

namespace Access

variable {α β : Type} (s : Store)

theorem runOn_bind (access : Access α) (next : α → Access β) :
    (access >>= next).runOn s =
      match access.runOn s with
      | (.ok a, left) => (next a).runOn left
      | (.error failure, left) => (.error failure, left) := by
  simp only [runOn, ExceptT.run_bind, StateT.run_bind]
  rcases access.run.run s with ⟨_ | _, _⟩ <;> rfl

theorem runOn_checking (result : Except Fault α) :
    (checking result).runOn s =
      match result with
      | .ok a => (.ok a, s)
      | .error fault => (.error (.rejected fault), s) := by
  cases result <;> rfl

theorem runOn_reading (operation : Store → Except Outage α) :
    (reading operation).runOn s =
      match operation s with
      | .ok a => (.ok a, s)
      | .error outage => (.error (.unavailable outage), s) := by
  change ((operation s).mapError Failure.unavailable, s) = _
  cases operation s <;> rfl

theorem runOn_writing (operation : Store → Except Outage Store) :
    (writing operation).runOn s =
      match operation s with
      | .ok written => (.ok (), written)
      | .error outage => (.error (.unavailable outage), s) := rfl

/-! ### Rebuilding and recording -/

/-- Rebuilding an index step by step comes to the same as rebuilding it at once. -/
theorem runOn_rebuild (metric : String) (definition : ThresholdDefinition) :
    (rebuild metric definition).runOn s =
      match s.rebuild metric definition with
      | .ok (canonical, published) => (.ok canonical, published)
      | .error failure => (.error failure, s) := by
  unfold rebuild Store.rebuild
  cases hbuild : definition.build with
  | error fault => simp [runOn_bind, runOn_checking]
  | ok sorted =>
    simp only [runOn_bind, runOn_checking, runOn_writing]
    cases s.publish metric (mergeOverlaps sorted) <;> rfl

theorem runOn_tagsOf (metric : String) :
    (∃ failure, (tagsOf metric).runOn s = (.error failure, s)) ∨
      ∃ tags, (tagsOf metric).runOn s = (.ok tags, s) ∧ s.HasTags metric tags := by
  unfold tagsOf
  simp only [runOn_bind, runOn_reading]
  cases hfields : s.metricFields metric with
  | error outage => exact .inl ⟨_, rfl⟩
  | ok found =>
    cases found with
    | none => exact .inr ⟨[], rfl, .inl ⟨hfields, rfl⟩⟩
    | some fields =>
      simp only [runOn_checking]
      cases htags : fields.metricTags with
      | error fault => exact .inl ⟨_, rfl⟩
      | ok tags => exact .inr ⟨tags, rfl, .inr ⟨fields, hfields, htags⟩⟩

/-- Recording a reading fails and leaves the store as it was, or it returns what the reading
gives and leaves the store with its record. -/
theorem runOn_record (now : Instant) (subject metric : String) (raw : Option String) :
    (∃ failure, (record now subject metric raw).runOn s = (.error failure, s)) ∨
      ∃ x, (record now subject metric raw).runOn s =
          (.ok x, s.withSample subject metric x.toFields) ∧
        s.available = true ∧ s.Gives now subject metric raw x := by
  unfold record
  simp only [runOn_bind, runOn_reading]
  cases hstatus : s.classify metric raw with
  | error outage => exact .inl ⟨_, rfl⟩
  | ok status =>
    dsimp only
    rcases runOn_tagsOf s metric with ⟨failure, htags⟩ | ⟨tags, htags, hhas⟩
    · exact .inl ⟨failure, by rw [htags]⟩
    · -- Nothing has been written yet, and nothing can fail behind the one step that writes.
      simp only [htags, runOn_writing, Store.putSample, Store.whenAvailable]
      by_cases havailable : s.available = true
      · simp only [if_pos havailable]
        exact .inr ⟨_, rfl, havailable, rfl, rfl, rfl, hstatus, hhas, rfl⟩
      · simp only [if_neg havailable]
        exact .inl ⟨_, rfl⟩

end Access

end StatusBoard
