import StatusBoard.Filter.Spec
import StatusBoard.Severity.Reader

/-!
# Queries

A query gives the dimensions of a filter as comma-separated lists, and the depth that is
asked for.

## Main definitions

* `Query` — the texts of a query
* `Query.toSpec` — the filter of a query, or the fault that rejects it
-/

namespace StatusBoard

/-- A query as it arrives. -/
structure Query where
  entityTags : Option String
  metricName : Option String
  metricTags : Option String
  severity : Option String
  depth : Option Nat
deriving DecidableEq

namespace Query

/-- The dimension of an optional list. -/
def readDimension : Option String → Except Fault (Option Dimension)
  | none => .ok none
  | some raw => Dimension.parse raw

/-- The severity dimension, every text of which must name a severity. -/
def readSeverity (raw : Option String) : Except Fault (Option Dimension) := do
  match ← readDimension raw with
  | none => return none
  | some dimension =>
    -- The first text in order that names no severity is the one reported.
    for value in dimension.values.members do
      discard (Severity.read value)
    return some dimension

/-- The filter of a query. The severities are checked first. -/
def toSpec (q : Query) : Except Fault FilterSpec := do
  let severity ← readSeverity q.severity
  let entityTags ← readDimension q.entityTags
  let metricName ← readDimension q.metricName
  let metricTags ← readDimension q.metricTags
  return { entityTags, metricName, metricTags, severity }

end Query

end StatusBoard
