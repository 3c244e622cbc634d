import StatusBoard.Marker.Index
import StatusBoard.Sample.Record
import StatusBoard.Text.Lowercase

/-!
# The store

The store holds the index of each metric, the record of each metric, and the records of the
samples of each subject. Names differ only by their lowercase forms. While the store is
offline every operation on its contents fails.

## Main definitions

* `Store` — the contents and whether they can be reached
* `Store.replaceMarkers`, `removeMarkers`, `putSample`, `putMetric` — the writing operations
* `Store.markersOf`, `firstAtOrAbove`, `sampleRecords`, `metricFields` — the reading ones
-/

namespace StatusBoard

/-- The contents of the store. -/
structure Store where
  markers : Table (List Marker)
  samples : Table (Table Fields)
  metrics : Table Fields
  available : Bool
deriving DecidableEq

namespace Store

/-- The empty store, which can be reached. -/
def empty : Store := ⟨.empty, .empty, .empty, true⟩

/-- The key of a name. -/
def keyOf (name : String) : String := Text.lowercase name

/-- The store goes offline or comes back. -/
def setAvailable (s : Store) (available : Bool) : Store := { s with available }

/-- The result of an operation on the contents. -/
def whenAvailable {α : Type} (s : Store) (result : α) : Except Outage α :=
  if s.available then .ok result else .error .offline

theorem whenAvailable_eq_ok_iff {α : Type} {s : Store} {result r : α} :
    s.whenAvailable result = .ok r ↔ s.available = true ∧ result = r := by
  unfold whenAvailable
  split <;> simp [*]

theorem whenAvailable_eq_error_iff {α : Type} {s : Store} {result : α} {o : Outage} :
    s.whenAvailable result = .error o ↔ s.available = false ∧ o = .offline := by
  unfold whenAvailable
  split <;> simp [*, eq_comm (a := o)]

/-! ### Markers -/

/-- The index of a metric; without one it is empty. -/
def indexOf (s : Store) (metric : String) : List Marker := (s.markers.get? (keyOf metric)).getD []

/-- The markers of a metric, in the order of the index. -/
def markersOf (s : Store) (metric : String) : Except Outage (List Marker) :=
  s.whenAvailable (s.indexOf metric)

/-- The first marker of a metric whose score is not below a value. -/
def firstAtOrAbove (s : Store) (metric : String) (value : Binary64) :
    Except Outage (Option Marker) :=
  s.whenAvailable (StatusBoard.firstAtOrAbove (s.indexOf metric) value)

/-- The store with these markers as the index of a metric. -/
def replaceMarkers (s : Store) (metric : String) (markers : List Marker) : Except Outage Store :=
  s.whenAvailable { s with markers := s.markers.insert (keyOf metric) (Marker.index markers) }

/-- The store without the index of a metric. -/
def removeMarkers (s : Store) (metric : String) : Except Outage Store :=
  s.whenAvailable { s with markers := s.markers.erase (keyOf metric) }

/-! ### Records -/

/-- The sample records of a subject by metric. -/
def samplesOf (s : Store) (subject : String) : Table Fields :=
  (s.samples.get? (keyOf subject)).getD .empty

/-- The sample records of a subject, in the order of the keys of their metrics. -/
def sampleRecords (s : Store) (subject : String) : Except Outage (List Fields) :=
  s.whenAvailable (s.samplesOf subject).values

/-- The store with a record as the sample of a metric on a subject. -/
def putSample (s : Store) (subject metric : String) (fields : Fields) : Except Outage Store :=
  let ofSubject := (s.samplesOf subject).insert (keyOf metric) fields
  s.whenAvailable { s with samples := s.samples.insert (keyOf subject) ofSubject }

/-- The record of a metric, if there is one. -/
def metricFields (s : Store) (metric : String) : Except Outage (Option Fields) :=
  s.whenAvailable (s.metrics.get? (keyOf metric))

/-- The store with a record as that of a metric. -/
def putMetric (s : Store) (metric : String) (fields : Fields) : Except Outage Store :=
  s.whenAvailable { s with metrics := s.metrics.insert (keyOf metric) fields }

end Store

end StatusBoard
