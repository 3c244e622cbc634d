import StatusBoard.Binary64.Basic
import StatusBoard.Severity.Basic

/-!
# Threshold ranges

A range is a closed interval of readings with a status.

## Main definitions

* `Range` — the interval and its status
* `Range.contains`, `Range.isDegenerate` — membership, and ranges of one point
* `Range.isProper` — finite bounds that are not inverted
* `Range.le` — the order by lower bound and then by upper bound
* `Relation`, `Relation.between` — how two ranges lie to each other
* `hasOverlap` — whether neighbours in a list share a point
-/

namespace StatusBoard

/-- A closed interval of readings and the status of the readings in it. -/
structure Range where
  status : Status
  min : Binary64
  max : Binary64
deriving DecidableEq

namespace Range

/-- The value lies between the bounds or on one of them. -/
def contains (r : Range) (value : Binary64) : Bool := r.min.atMost value && value.atMost r.max

/-- The range has a single point. -/
def isDegenerate (r : Range) : Bool := r.min.equals r.max

/-- The bounds are finite and not inverted. -/
def isProper (r : Range) : Bool := r.min.isFinite && r.max.isFinite && r.min.atMost r.max

/-- The range with these bounds, unless they are inverted. -/
def bounded? (status : Status) (min max : Binary64) : Option Range :=
  if min.atMost max then some ⟨status, min, max⟩ else none

/-- The total order by lower bound and then by upper bound. -/
def le (r s : Range) : Bool :=
  decide (r.min.totalKey < s.min.totalKey) ||
    (decide (r.min.totalKey = s.min.totalKey) && decide (r.max.totalKey ≤ s.max.totalKey))

theorem le_total (r s : Range) : r.le s ∨ s.le r := by
  simp only [le, Bool.or_eq_true, Bool.and_eq_true, decide_eq_true_eq]
  omega

theorem le_trans (r s t : Range) (hrs : r.le s) (hst : s.le t) : r.le t := by
  simp only [le, Bool.or_eq_true, Bool.and_eq_true, decide_eq_true_eq] at *
  omega

theorem bounded?_eq_some {status : Status} {min max : Binary64} {r : Range} :
    bounded? status min max = some r ↔ min.atMost max ∧ r = ⟨status, min, max⟩ := by
  unfold bounded?
  split <;> simp [*, eq_comm (a := r)]

end Range

/-- How a range lies to another whose lower bound is not below its own. -/
inductive Relation where
  /-- The first ends before the second starts. -/
  | disjoint
  /-- The first ends where the second starts. -/
  | touching
  /-- They share more than a bound, and the second ends later. -/
  | overlapping
  /-- The second lies within the first. -/
  | firstContainsSecond
  /-- They start together, and the second ends later. -/
  | secondContainsFirst
deriving DecidableEq

/-- The relation of two ranges, the first of which starts no later. -/
def Relation.between (first second : Range) : Relation :=
  if first.max.below second.min then disjoint
  else if first.max.equals second.min then touching
  else if second.max.atMost first.max then firstContainsSecond
  else if first.min.equals second.min then secondContainsFirst
  else overlapping

/-- Some range of a list reaches the lower bound of the next one. -/
def hasOverlap : List Range → Bool
  | first :: second :: rest => second.min.atMost first.max || hasOverlap (second :: rest)
  | _ => false

end StatusBoard
