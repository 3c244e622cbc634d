import StatusBoard.Marker.Label
import StatusBoard.Threshold.Range

/-!
# Markers

Each range of a canonical set is published as two markers, one at each bound. A reading is
classified by the first marker at or above it: at the upper bound of a range the reading is
inside that range, and at the lower bound only if it is that bound.

## Main definitions

* `Marker` — a score and a label
* `markersFor` — the markers of a list of ranges
* `Marker.resolve` — the severity that the first marker at or above a value gives
-/

namespace StatusBoard

/-- A score of the index and its label. -/
structure Marker where
  score : Binary64
  label : String
deriving DecidableEq

/-- The marker at one bound of a range. Its order is a 64-bit word. -/
def Marker.atBound (order : UInt64) (kind : MarkerKind) (status : Status) (score : Binary64) :
    Marker :=
  ⟨score, MarkerLabel.encode ⟨order.toNat, kind, status, score⟩⟩

/-- The markers of ranges whose first marker has the given order. -/
def markersFrom (order : UInt64) : List Range → List Marker
  | [] => []
  | r :: rs =>
    .atBound order .min r.status r.min :: .atBound (order + 1) .max r.status r.max ::
      markersFrom (order + 2) rs

/-- The markers of a list of ranges, two for each. -/
def markersFor (ranges : List Range) : List Marker := markersFrom 0 ranges

/-- The severity of a value whose first marker at or above it is given. -/
def Marker.resolve (found : Option Marker) (value : Binary64) : Severity :=
  match found with
  | none => .invalid
  | some marker =>
    match MarkerLabel.decode? marker.label with
    | none => .invalid
    | some label =>
      match label.kind with
      | .max => .ofStatus label.status
      | .min => if marker.score.equals value then .ofStatus label.status else .invalid

theorem length_markersFor (ranges : List Range) :
    (markersFor ranges).length = 2 * ranges.length := by
  suffices h : ∀ order, (markersFrom order ranges).length = 2 * ranges.length from h 0
  induction ranges with
  | nil => intro order; rfl
  | cons r rs ih => intro order; simp [markersFrom, ih]; omega

end StatusBoard
