import StatusBoard.Calendar.Instant
import StatusBoard.Severity.Basic

/-!
# Samples

A sample is one classified reading of one metric on one subject.

## Main definitions

* `Sample` — the reading as reported, its severity, and the tags of its metric
* `Sample.nameFor` — the name of the sample of a metric on a subject
-/

namespace StatusBoard

/-- A classified reading. -/
structure Sample where
  name : String
  metric : String
  value : String
  status : Severity
  metricTags : List String
  updatedAt : Option Instant
deriving DecidableEq

namespace Sample

/-- The character between subject and metric in the name of a sample. -/
def nameSeparator : Char := '|'

/-- The name of the sample of a metric on a subject. -/
def nameFor (subject metric : String) : String :=
  subject ++ String.singleton nameSeparator ++ metric

end Sample

end StatusBoard
