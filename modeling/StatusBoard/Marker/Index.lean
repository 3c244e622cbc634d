import StatusBoard.Marker.Basic
import StatusBoard.Ordered

/-!
# The index of markers

The markers of a metric are kept in order of their scores, and at equal scores in order of
their labels. The first marker at or above a value is found by halving.

## Main definitions

* `Marker.le` — the order of the index
* `Marker.index` — markers in that order
* `partitionPoint` — how many leading elements of a list satisfy a test, by halving
* `firstAtOrAbove` — the first marker whose score is not below a value
-/

namespace StatusBoard

namespace Marker

/-- The order by score and then by label. Scores are in their total order. -/
def le (a b : Marker) : Bool :=
  decide (a.score.totalKey < b.score.totalKey) ||
    (decide (a.score.totalKey = b.score.totalKey) && decide (a.label ≤ b.label))

theorem le_total (a b : Marker) : a.le b ∨ b.le a := by
  simp only [le, Bool.or_eq_true, Bool.and_eq_true, decide_eq_true_eq]
  rcases Int.lt_trichotomy a.score.totalKey b.score.totalKey with h | h | h
  · exact .inl (.inl h)
  · exact (String.le_total a.label b.label).imp (fun hle => .inr ⟨h, hle⟩)
      (fun hle => .inr ⟨h.symm, hle⟩)
  · exact .inr (.inl h)

theorem le_trans (a b c : Marker) (hab : a.le b) (hbc : b.le c) : a.le c := by
  simp only [le, Bool.or_eq_true, Bool.and_eq_true, decide_eq_true_eq] at *
  rcases hab with hab | ⟨hab, hab'⟩ <;> rcases hbc with hbc | ⟨hbc, hbc'⟩
  · exact .inl (by omega)
  · exact .inl (by omega)
  · exact .inl (by omega)
  · exact .inr ⟨by omega, Std.le_trans hab' hbc'⟩

/-- The markers in the order of the index. -/
def index (markers : List Marker) : List Marker := Ordered.sort le markers

end Marker

/-- Narrows `size` places from `base` on to one place by halving; the upper half is taken when
its first place satisfies the test. -/
def narrow (test : Nat → Bool) (base size : Nat) : Nat :=
  if size ≤ 1 then base
  else
    let half := size / 2
    -- Either the places before the upper half or those at the end are out of the question.
    narrow test (if test (base + half) then base + half else base) (size - half)
termination_by size
decreasing_by omega

/-- The number of leading elements that satisfy a test, if those that do come first. -/
def partitionPoint {α : Type} (test : α → Bool) (xs : List α) : Nat :=
  let testAt := fun i => (xs[i]?).any test
  let last := narrow testAt 0 xs.length
  -- The last place left may itself be behind the leading elements.
  if testAt last then last + 1 else last

/-- The first marker of an index whose score is not below a value. -/
def firstAtOrAbove (index : List Marker) (value : Binary64) : Option Marker :=
  index[partitionPoint (fun m => m.score.below value) index]?

end StatusBoard
