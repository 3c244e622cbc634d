import StatusBoard.Calendar.Timestamp
import StatusBoard.Json.TextList
import StatusBoard.Sample.Basic
import StatusBoard.Severity.Reader
import StatusBoard.Table
import StatusBoard.Text.Cut

/-!
# Cached records

The cache holds samples and metrics as flat records of text fields. The tags are a JSON
array within their field, and the time is a written time.

## Main definitions

* `Fields` — a record
* `Sample.toFields`, `Sample.ofFields` — the record of a sample, and back
* `Fields.metricTags` — the tags in the record of a metric
-/

namespace StatusBoard

/-- A record: texts by the names of their fields. -/
abbrev Fields := Table String

/-- The tags of the record of a metric; without the field there are none. -/
def Fields.metricTags (fields : Fields) : Except Fault (List String) :=
  match Table.get? fields "tags" with
  | none => .ok []
  | some text =>
    match Json.TextList.read? text with
    | some tags => .ok tags
    | none => .error (.badRecord .metricTags)

namespace Sample

/-- The record of a sample without its time. -/
def untimedFields (s : Sample) : Fields :=
  Table.ofList [("name", s.name), ("metric", s.metric), ("value", s.value),
    ("status", s.status.name), ("metricTags", Json.TextList.write s.metricTags)]

/-- The record of a sample. -/
def toFields (s : Sample) : Fields :=
  match s.updatedAt with
  | none => s.untimedFields
  | some time => s.untimedFields.insert "updatedAt" (Timestamp.write Timestamp.utcOffset time)

/-- A field that must be there. -/
def requiredField (fields : Fields) (key : String) : Except RecordFault String :=
  match fields.get? key with
  | some text => .ok text
  | none => .error (.missingField key)

/-- The metric of a record: its field, or else what follows the last separator in the name. -/
def readMetric (fields : Fields) (name : String) : Except RecordFault String :=
  match fields.get? "metric" with
  | some metric => .ok metric
  | none =>
    match Text.afterLast? nameSeparator name.toList with
    | some metric => .ok (String.ofList metric)
    | none => .error (.noMetricPart name)

/-- The severity of a record. -/
def readStatus (fields : Fields) : Except RecordFault Severity := do
  let text ← requiredField fields "status"
  match Severity.ofText? text with
  | some severity => .ok severity
  | none => .error (.unknownSeverity text)

/-- The tags of a record; without the field there are none. -/
def readTags (fields : Fields) (name : String) : Except RecordFault (List String) :=
  match fields.get? "metricTags" with
  | none => .ok []
  | some text =>
    match Json.TextList.read? text with
    | some tags => .ok tags
    | none => .error (.sampleTags name)

/-- The time of a record, if it has one. -/
def readTime (fields : Fields) (name : String) : Except RecordFault (Option Instant) :=
  match fields.get? "updatedAt" with
  | none => .ok none
  | some text =>
    match Timestamp.read? text with
    | some time => .ok (some time)
    | none => .error (.sampleTime name)

/-- The sample of a record, or the first fault in it. -/
def readFields (fields : Fields) : Except RecordFault Sample := do
  let name ← requiredField fields "name"
  let metric ← readMetric fields name
  let value := (fields.get? "value").getD ""
  let status ← readStatus fields
  let metricTags ← readTags fields name
  let updatedAt ← readTime fields name
  return { name, metric, value, status, metricTags, updatedAt }

/-- The sample of a record, or the fault of a record that has none. -/
def ofFields (fields : Fields) : Except Fault Sample :=
  match readFields fields with
  | .ok s => .ok s
  | .error cause => .error (.badRecord cause)

/-- The sample of a record, if it has one. -/
def ofFields? (fields : Fields) : Option Sample := (readFields fields).toOption

end Sample

end StatusBoard
