import StatusBoard.Fault
import StatusBoard.Ordered
import StatusBoard.Threshold.Range

/-!
# Threshold definitions

A metric defines at most one range per status. The ranges may overlap, but a definition
with a malformed range is rejected as a whole.

## Main definitions

* `ThresholdDefinition` — the bounds for each status
* `ThresholdDefinition.ranges` — the given ranges, from the highest status
* `ThresholdDefinition.build` — the checked ranges in order of their bounds

## Main results

* `build_eq_ok_iff` — a definition is accepted iff all of its ranges are proper
-/

namespace StatusBoard

/-- The lower and the upper bound of a range as given. -/
abbrev Bounds := Binary64 × Binary64

/-- The bounds that a metric gives for each status. -/
structure ThresholdDefinition where
  critical : Option Bounds
  warning : Option Bounds
  info : Option Bounds
  ok : Option Bounds
deriving DecidableEq

namespace ThresholdDefinition

/-- The range that is given for a status, if any. -/
def rangeFor (d : ThresholdDefinition) (status : Status) : Option Range :=
  let bounds := match status with
    | .critical => d.critical
    | .warning => d.warning
    | .info => d.info
    | .ok => d.ok
  bounds.map fun (min, max) => ⟨status, min, max⟩

/-- The given ranges, from the highest status. -/
def ranges (d : ThresholdDefinition) : List Range := Status.all.filterMap d.rangeFor

/-- The ranges in order of their bounds, or the fault of the first malformed one. -/
def build (d : ThresholdDefinition) : Except Fault (List Range) :=
  match d.ranges.find? fun r => !r.isProper with
  | some r => .error (.malformedThreshold r.status r.min r.max)
  | none => .ok (Ordered.sort Range.le d.ranges)

theorem build_eq_ok_iff {d : ThresholdDefinition} {sorted : List Range} :
    d.build = .ok sorted ↔
      (∀ r ∈ d.ranges, r.isProper) ∧ sorted = Ordered.sort Range.le d.ranges := by
  unfold build
  split
  · rename_i r hr
    have himproper := List.find?_some hr
    simp only [reduceCtorEq, false_iff, not_and]
    intro hall
    simp [hall r (List.mem_of_find?_eq_some hr)] at himproper
  · rename_i hnone
    have hall : ∀ r ∈ d.ranges, r.isProper := by simpa using hnone
    exact ⟨fun h => ⟨hall, (Except.ok.inj h).symm⟩, fun h => h.2 ▸ rfl⟩

end ThresholdDefinition

end StatusBoard
