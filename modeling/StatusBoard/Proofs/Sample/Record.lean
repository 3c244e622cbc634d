import StatusBoard.Proofs.Calendar.Written
import StatusBoard.Proofs.Json.Written
import StatusBoard.Proofs.Marker.Label
import StatusBoard.Sample.Record

/-!
# Reading the record of a sample

The record of a sample holds each of its fields in a form that is read back whatever the field
holds, with one exception, the time. A year that does not have four digits is not read, and a
leap second within a minute is read as the second that follows.

## Main definitions

* `Sample.reread` — the sample that is read from the record of a sample

## Main results

* `Sample.readFields_toFields` — what the record of a sample is read as
* `Sample.ofFields_toFields_iff` — when a sample is read back, and what is read otherwise
-/

namespace StatusBoard

theorem Severity.ofText?_name (s : Severity) : Severity.ofText? s.name = some s := by
  cases s with
  | ofStatus status => cases status <;> decide
  | invalid => decide
  | timeout => decide

namespace Sample

variable (s : Sample)

/-- The time of a sample, if it has one, is in a year of four digits. -/
def InFourDigitYear : Prop := ∀ t ∈ s.updatedAt, 0 ≤ t.date.year ∧ t.date.year ≤ 9999

instance : Decidable s.InFourDigitYear :=
  inferInstanceAs (Decidable (∀ t ∈ s.updatedAt, 0 ≤ t.date.year ∧ t.date.year ≤ 9999))

theorem inFourDigitYear_iff {t : Instant} (h : s.updatedAt = some t) :
    s.InFourDigitYear ↔ 0 ≤ t.date.year ∧ t.date.year ≤ 9999 := by
  simp [InFourDigitYear, h]

/-- The sample with the time that is read from what clocks show at its own time. -/
def reread : Sample := { s with updatedAt := s.updatedAt.map Instant.reread }

/-- What the record of a sample holds. -/
theorem get?_toFields :
    s.toFields.get? "name" = some s.name ∧ s.toFields.get? "metric" = some s.metric ∧
    s.toFields.get? "value" = some s.value ∧ s.toFields.get? "status" = some s.status.name ∧
    s.toFields.get? "metricTags" = some (Json.TextList.write s.metricTags) ∧
    s.toFields.get? "updatedAt" = s.updatedAt.map (Timestamp.write Timestamp.utcOffset) := by
  unfold toFields
  cases s.updatedAt <;> simp [untimedFields, Table.ofList, Table.get?_insert]

theorem readTime_toFields (name : String) :
    readTime s.toFields name =
      if s.InFourDigitYear then .ok s.reread.updatedAt else .error (.sampleTime name) := by
  obtain ⟨-, -, -, -, -, htime⟩ := s.get?_toFields
  rw [readTime, htime]
  cases htime' : s.updatedAt with
  | none => simp [InFourDigitYear, reread, htime']
  | some t =>
    simp only [Option.map_some, Timestamp.read?_write, s.inFourDigitYear_iff htime', reread, htime']
    split_ifs <;> rfl

/-- The time is the only field of a record that may not be read back. -/
theorem readFields_toFields :
    readFields s.toFields =
      if s.InFourDigitYear then .ok s.reread else .error (.sampleTime s.name) := by
  obtain ⟨hname, hmetric, hvalue, hstatus, htags, -⟩ := s.get?_toFields
  have hname' : requiredField s.toFields "name" = .ok s.name := by rw [requiredField, hname]
  have hmetric' : readMetric s.toFields s.name = .ok s.metric := by rw [readMetric, hmetric]
  have hstatus' : readStatus s.toFields = .ok s.status := by
    have hfield : requiredField s.toFields "status" = .ok s.status.name := by
      rw [requiredField, hstatus]
    rw [readStatus, hfield]
    simp [bind, Except.bind, Severity.ofText?_name]
  have htags' : readTags s.toFields s.name = .ok s.metricTags := by
    rw [readTags, htags]
    simp [Json.TextList.read?_write]
  -- Every reader in front of that of the time succeeds, so the time decides.
  simp only [readFields, hname', hmetric', hvalue, hstatus', htags', readTime_toFields, bind,
    Except.bind]
  split_ifs <;> rfl

/-- The sample that is read from the record of a sample, or the fault of the record. -/
theorem ofFields_toFields :
    ofFields s.toFields =
      if s.InFourDigitYear then .ok s.reread else .error (.badRecord (.sampleTime s.name)) := by
  rw [ofFields, readFields_toFields]
  split_ifs <;> rfl

/-- What is read from the record of a sample with a time in a year of four digits. -/
theorem ofFields_toFields_of_updatedAt {t : Instant} (h : s.updatedAt = some t)
    (hyear : 0 ≤ t.date.year ∧ t.date.year ≤ 9999) :
    ofFields s.toFields = .ok { s with updatedAt := some t.reread } := by
  rw [ofFields_toFields, if_pos ((s.inFourDigitYear_iff h).mpr hyear), reread, h]
  rfl

/-- A sample is read from its own record iff its time, if any, is told by what clocks show. -/
theorem reread_eq_self_iff : s.reread = s ↔ ∀ t ∈ s.updatedAt, t.LeapEndsMinute := by
  obtain ⟨name, metric, value, status, metricTags, updatedAt⟩ := s
  cases updatedAt with
  | none => simp [reread]
  | some t => simp [reread, t.reread_eq_self_iff]

/-- A sample is read back from its record iff its time, if it has one, is in a year of four
digits and not in a leap second within a minute. In any other year the record has a fault, in its
time. A leap second within a minute is read as the second that follows. -/
theorem ofFields_toFields_iff :
    (ofFields s.toFields = .ok s ↔ ∀ t ∈ s.updatedAt,
      (0 ≤ t.date.year ∧ t.date.year ≤ 9999) ∧ (t.nanos < nanosPerSecond ∨ t.second = 59)) ∧
    (ofFields s.toFields = .error (.badRecord (.sampleTime s.name)) ↔
      ¬ ∀ t ∈ s.updatedAt, 0 ≤ t.date.year ∧ t.date.year ≤ 9999) ∧
    ∀ t ∈ s.updatedAt, 0 ≤ t.date.year ∧ t.date.year ≤ 9999 →
      nanosPerSecond ≤ t.nanos → t.second ≠ 59 →
      ∃ next : Instant, ofFields s.toFields = .ok { s with updatedAt := some next } ∧
        next.date = t.date ∧ next.hour = t.hour ∧ next.minute = t.minute ∧
        next.second = t.second + 1 ∧ nanosPerSecond + next.nanos = t.nanos := by
  refine ⟨?_, ?_, fun t ht hyear hleap hwithin => ⟨t.reread, ?_, ?_⟩⟩
  · rw [ofFields_toFields]
    have hboth : (∀ t ∈ s.updatedAt, (0 ≤ t.date.year ∧ t.date.year ≤ 9999) ∧
        (t.nanos < nanosPerSecond ∨ t.second = 59)) ↔
          s.InFourDigitYear ∧ ∀ t ∈ s.updatedAt, t.LeapEndsMinute := forall₂_and
    rw [hboth, ← s.reread_eq_self_iff]
    split_ifs with hyear <;> simp [hyear]
  · change _ ↔ ¬ s.InFourDigitYear
    rw [ofFields_toFields]
    split_ifs with hyear <;> simp [hyear]
  · exact s.ofFields_toFields_of_updatedAt ht hyear
  · rw [Instant.reread, dif_neg hwithin]
    exact ⟨rfl, rfl, rfl, t.shownSecond_of_le hleap, t.shownNanos_of_le hleap⟩

/-- A critical reading at a leap second after second 4. -/
def leapWithinMinute : Sample where
  name := "web|cpu"
  metric := "cpu"
  value := "95"
  status := .ofStatus .critical
  metricTags := ["slo"]
  updatedAt := (Timestamp.read? "2026-03-01T12:00:04Z").map fun t =>
    { t with nanos := 1333333333, nanos_lt := by decide }

/-- A year of four digits is not enough for a sample to be read back. -/
theorem leapWithinMinute_not_readBack :
    (∀ t ∈ leapWithinMinute.updatedAt, 0 ≤ t.date.year ∧ t.date.year ≤ 9999) ∧
    leapWithinMinute.toFields.get? "updatedAt" = some "2026-03-01T12:00:05.333333333+00:00" ∧
    ofFields leapWithinMinute.toFields ≠ .ok leapWithinMinute := by
  refine ⟨?_, ?_, ?_⟩
  · decide +kernel
  · decide +kernel
  · decide +kernel

end Sample

end StatusBoard
