import StatusBoard.Proofs.Sample.Record
import StatusBoard.Proofs.Session.History

/-!
# Records over a run

The sample records of a subject are, at any time of any run, those that were stored last, one
for each metric. A recorded reading is stored as what recording returned, and stays until the
next record comes in for the same metric on the same subject, whatever else happens.

## Main definitions

* `Event.storedAt?` — the record that an event stores under two keys

## Main results

* `Session.get?_samplesOf_run` — the records of a subject after a run
* `Session.run_keeps_records` — the same from an empty store, and what becomes of a reading
-/

namespace StatusBoard

open Store (keyOf)

namespace Event

/-- The subject, the metric and the fields of the sample record that an event stores. -/
def stored? (e : Event) : Option (String × String × Fields) :=
  match e.operation, e.outcome with
  | .putSample subject metric fields, .ok _ => some (subject, metric, fields)
  | .record _ subject metric _, .ok (.sample x) => some (subject, metric, x.toFields)
  | _, _ => none

/-- The sample record that an event stores under the keys of a subject and a metric. -/
def storedAt? (subjectKey metricKey : String) (e : Event) : Option Fields :=
  match e.stored? with
  | some (subject, metric, fields) =>
    if keyOf subject = subjectKey ∧ keyOf metric = metricKey then some fields else none
  | none => none

end Event

namespace Store

variable (s : Store)

theorem get?_samplesOf_withSample (subject metric : String) (fields : Fields)
    (subject' metricKey : String) :
    ((s.withSample subject metric fields).samplesOf subject').get? metricKey =
      if keyOf subject = keyOf subject' ∧ keyOf metric = metricKey then some fields
      else (s.samplesOf subject').get? metricKey := by
  by_cases hsubject : keyOf subject = keyOf subject'
  · have hsame : s.samplesOf subject = s.samplesOf subject' := by
      rw [samplesOf, samplesOf, hsubject]
    rw [samplesOf, withSample, hsubject, Table.get?_insert_self, Option.getD_some,
      Table.get?_insert, hsame]
    simp [eq_comm (a := metricKey)]
  · rw [samplesOf, withSample, Table.get?_insert_of_ne _ _ (Ne.symm hsubject)]
    simp [hsubject, samplesOf]

/-- Only an event that stores a record under the two keys changes what is there. -/
theorem get?_samplesOf_after (op : Operation) (outcome : Except Failure Answer)
    (subject metricKey : String) :
    ((s.after op outcome).samplesOf subject).get? metricKey =
      (Event.storedAt? (keyOf subject) metricKey ⟨op, outcome⟩).or
        ((s.samplesOf subject).get? metricKey) := by
  -- Only two operations touch the records of samples.
  cases outcome with
  | error failure => cases op <;> rfl
  | ok answer =>
    cases op with
    | putSample subject' metric fields =>
      rw [Store.after, Store.afterAnswer, get?_samplesOf_withSample, Event.storedAt?]
      simp only [Event.stored?]
      split_ifs <;> rfl
    | record now subject' metric raw =>
      cases answer with
      | sample x =>
        rw [Store.after, Store.afterAnswer, get?_samplesOf_withSample, Event.storedAt?]
        simp only [Event.stored?]
        split_ifs <;> rfl
      | _ => rfl
    | _ => rfl

end Store

namespace Session

variable (s : Session) (ops : List Operation)

/-- Under two keys there is what the last event has stored there, or else what was there before
the run. -/
theorem get?_samplesOf_run (subject metricKey : String) :
    ((s.run ops).2.store.samplesOf subject).get? metricKey =
      (last? (Event.storedAt? (keyOf subject) metricKey) (s.events ops)).or
        ((s.store.samplesOf subject).get? metricKey) := by
  have hor : ∀ (stored before : Option Fields),
      stored.or before = (stored.map some).getD before := by
    intro stored before
    cases stored <;> rfl
  rw [hor]
  apply view_run s ops fun t : Store => (t.samplesOf subject).get? metricKey
  intro t op outcome
  rw [Store.get?_samplesOf_after, hor]

/-- A recorded reading is what it gives in the store as it was, and its record is stored. -/
theorem step_record {now : Instant} {subject metric : String} {raw : Option String} {x : Sample}
    (h : (s.step (.record now subject metric raw)).1 = .ok (.sample x)) :
    s.store.Gives now subject metric raw x ∧
      (s.step (.record now subject metric raw)).2.store =
        s.store.withSample subject metric x.toFields := by
  have hstore := s.store_step (.record now subject metric raw)
  rw [h] at hstore
  refine ⟨?_, hstore⟩
  rw [step, accessing] at h
  rcases Access.runOn_record s.store now subject metric raw with ⟨failure, hrun⟩ | ⟨y, hrun, -, hy⟩
  · rw [hrun] at h
    cases h
  · rw [hrun] at h
    cases h
    exact hy

/-- In any run the records of a subject are those stored last, each under the key of its metric
and in the order of these keys. What a reading is recorded as has the severity of the reading
and the tags of the metric at that time, is what its record is read as if the clock shows years of
four digits and leap seconds at the ends of minutes only, and stays where it is until an event
stores a record under the same keys. -/
theorem run_keeps_records (policy : DepthPolicy) (ops : List Operation) (subject : String) :
    let s := ((start policy).run ops).2
    (s.store.available = true →
      s.store.sampleRecords subject = .ok ((s.store.samplesOf subject).entries.map Prod.snd) ∧
      (s.store.samplesOf subject).entries.Pairwise (fun a b => a.1 < b.1) ∧
      ∀ metricKey fields, (metricKey, fields) ∈ (s.store.samplesOf subject).entries ↔
        last? (Event.storedAt? (keyOf subject) metricKey) ((start policy).events ops) =
          some fields) ∧
    ∀ now metric raw x, (s.step (.record now subject metric raw)).1 = .ok (.sample x) →
      s.store.Gives now subject metric raw x ∧
      (0 ≤ now.date.year ∧ now.date.year ≤ 9999 → now.LeapEndsMinute →
        Sample.ofFields x.toFields = .ok x) ∧
      let recorded := (s.step (.record now subject metric raw)).2
      ∀ later, (∀ e ∈ recorded.events later,
          e.storedAt? (keyOf subject) (keyOf metric) = none) →
        (keyOf metric, x.toFields) ∈
          ((recorded.run later).2.store.samplesOf subject).entries := by
  intro s
  constructor
  · intro havailable
    refine ⟨if_pos havailable, (s.store.samplesOf subject).ascending, ?_⟩
    intro metricKey fields
    rw [Table.mem_entries_iff, get?_samplesOf_run]
    -- A store that starts empty has no other records.
    have hempty : ((start policy).store.samplesOf subject).get? metricKey = none := rfl
    rw [hempty, Option.or_none]
  · intro now metric raw x hrecord
    obtain ⟨hgives, hstored⟩ := s.step_record hrecord
    refine ⟨hgives, ?_, ?_⟩
    · intro hyear hleap
      rw [x.ofFields_toFields_of_updatedAt hgives.updatedAt_eq hyear,
        now.reread_eq_self_iff.mpr hleap, ← hgives.updatedAt_eq]
    · intro recorded later hlater
      rw [Table.mem_entries_iff, get?_samplesOf_run, last?_eq_none_iff.mpr hlater, Option.none_or,
        hstored, Store.get?_samplesOf_withSample, if_pos ⟨rfl, rfl⟩]

/-- A metric gets an index and a tag, and the subject a record of another metric. The first
attempt at that record meets an outage. -/
def tagged : List Operation :=
  [.rebuild "CPU" hundredUp, .putMetric "cpu" (.ofList [("tags", "[\"slo\"]")]),
    .setAvailable false, .putSample "web" "disk" .empty, .setAvailable true,
    .putSample "Web" "Disk" (.ofList [("name", "Web|Disk")])]

/-- The metric loses its index and its tag, other records are stored, and the last attempt at a
record of the metric on the subject meets an outage. -/
def untouching : List Operation :=
  [.clear "cpu", .putMetric "CPU" .empty, .putSample "web" "disk" .empty,
    .putSample "db" "cpu" .empty, .setAvailable false, .putSample "web" "cpu" .empty]

/-- The sample of a reading in the critical range. -/
def critical : Sample :=
  ⟨"WEB|Cpu", "Cpu", "250", .ofStatus .critical, ["slo"], some noon⟩

theorem run_keeps_records_tagged :
    let s := ((start .standard).run tagged).2
    let recorded := (s.step (.record noon "WEB" "Cpu" (some "250"))).2
    s.store.available = true ∧
    s.store.sampleRecords "WEB" = .ok [.ofList [("name", "Web|Disk")]] ∧
    last? (Event.storedAt? "web" "disk") ((start .standard).events tagged) =
      some (.ofList [("name", "Web|Disk")]) ∧
    (s.step (.record noon "WEB" "Cpu" (some "250"))).1 = .ok (.sample critical) ∧
    s.store.Gives noon "WEB" "Cpu" (some "250") critical ∧
    Sample.ofFields critical.toFields = .ok critical ∧
    (∀ e ∈ recorded.events untouching, e.storedAt? (keyOf "WEB") (keyOf "Cpu") = none) ∧
    (keyOf "Cpu", critical.toFields) ∈
      ((recorded.run untouching).2.store.samplesOf "WEB").entries := by
  -- The run is evaluated where a fact needs it, and is a name everywhere else.
  obtain ⟨s, hs⟩ : ∃ s, s = ((start .standard).run tagged).2 := ⟨_, rfl⟩
  have h := run_keeps_records .standard tagged "WEB"
  rw [← hs] at h ⊢
  obtain ⟨hholds, hkeeps⟩ := h
  have havailable : s.store.available = true := by rw [hs]; decide +kernel
  have hrecord : (s.step (.record noon "WEB" "Cpu" (some "250"))).1 = .ok (.sample critical) := by
    have hrun : ((Access.record noon "WEB" "Cpu" (some "250")).runOn s.store).1 = .ok critical := by
      rw [hs]
      decide +kernel
    simp only [step, accessing, hrun, Except.map]
  have huntouched : ∀ e ∈ (s.step (.record noon "WEB" "Cpu" (some "250"))).2.events untouching,
      e.storedAt? (keyOf "WEB") (keyOf "Cpu") = none := by
    rw [hs]
    decide +kernel
  have hdisk : s.store.sampleRecords "WEB" = .ok [.ofList [("name", "Web|Disk")]] := by
    rw [hs]
    decide +kernel
  have hentry : ("disk", .ofList [("name", "Web|Disk")]) ∈ (s.store.samplesOf "WEB").entries := by
    rw [hs]
    decide +kernel
  obtain ⟨-, -, hlast⟩ := hholds havailable
  obtain ⟨hgives, hreads, hstays⟩ := hkeeps noon "Cpu" (some "250") critical hrecord
  exact ⟨havailable, hdisk, (hlast _ _).mp hentry, hrecord, hgives,
    hreads (by decide +kernel) (by decide +kernel), huntouched, hstays untouching huntouched⟩

end Session

end StatusBoard
