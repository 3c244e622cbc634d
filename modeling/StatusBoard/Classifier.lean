import StatusBoard.Reading
import StatusBoard.Store
import StatusBoard.Threshold.Definition
import StatusBoard.Threshold.Merge

/-!
# Classifying readings

The definition of a metric is turned into its canonical set of ranges, whose markers become
the index of the metric. A reading is classified by a lookup in that index.

## Main definitions

* `Store.rebuild` — the index of a metric from its definition
* `Store.publish` — the index of a metric from a list of ranges
* `Store.classify` — the severity of a reading
-/

namespace StatusBoard.Store

/-- The store with the markers of these ranges as the index of a metric. -/
def publish (s : Store) (metric : String) (ranges : List Range) : Except Outage Store :=
  s.replaceMarkers metric (markersFor ranges)

/-- The canonical set of a definition, and the store in which it is published. A malformed
definition changes nothing. -/
def rebuild (s : Store) (metric : String) (definition : ThresholdDefinition) :
    Except Failure (List Range × Store) :=
  match definition.build with
  | .error fault => .error (.rejected fault)
  | .ok sorted =>
    let canonical := mergeOverlaps sorted
    match s.publish metric canonical with
    | .error outage => .error (.unavailable outage)
    | .ok published => .ok (canonical, published)

/-- The severity of a reading. A reading that is no number never reaches the index. -/
def classify (s : Store) (metric : String) (raw : Option String) : Except Outage Severity :=
  match Reading.prepare raw with
  | .error fault => .ok fault.severity
  | .ok value => (s.firstAtOrAbove metric value).map fun found => Marker.resolve found value

end StatusBoard.Store
