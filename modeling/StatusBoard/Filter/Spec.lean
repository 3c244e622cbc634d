import StatusBoard.Filter.Dimension
import StatusBoard.Sample.Basic

/-!
# Filters

A filter has four dimensions, each of which may be unset. One looks at the tags of a
subject, the others at its samples.

## Main definitions

* `FilterSpec` — the four dimensions
* `FilterSpec.filtersSamples` — whether any dimension looks at samples
* `FilterSpec.acceptsSubject`, `FilterSpec.acceptsSample` — the tests
-/

namespace StatusBoard

/-- A filter; an unset dimension lets everything pass. -/
structure FilterSpec where
  entityTags : Option Dimension := none
  metricName : Option Dimension := none
  metricTags : Option Dimension := none
  severity : Option Dimension := none
deriving DecidableEq

namespace FilterSpec

/-- Some dimension looks at samples. -/
def filtersSamples (f : FilterSpec) : Bool :=
  f.metricName.isSome || f.metricTags.isSome || f.severity.isSome

/-- A filter looks at no samples iff its three dimensions for them are unset. -/
theorem not_filtersSamples (f : FilterSpec) :
    (!f.filtersSamples) = (f.metricName.isNone && f.metricTags.isNone && f.severity.isNone) := by
  simp [filtersSamples]

/-- The tags of a subject pass. -/
def acceptsSubject (f : FilterSpec) (tags : List String) : Bool :=
  f.entityTags.all (·.acceptsAny tags)

/-- A sample passes by its metric, the tags of the metric, and its severity. -/
def acceptsSample (f : FilterSpec) (s : Sample) : Bool :=
  f.metricName.all (·.accepts s.metric) && f.metricTags.all (·.acceptsAny s.metricTags) &&
    f.severity.all (·.accepts s.status.name)

end FilterSpec

end StatusBoard
