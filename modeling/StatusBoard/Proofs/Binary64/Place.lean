import StatusBoard.Proofs.Binary64.Rounding
import Mathlib.Tactic.SplitIfs

/-!
# Places in the numeric order

The numeric comparisons of numbers compare their places, which are integers. The total
order refines the numeric one, and rounding an exact sum of units keeps order, so a sum
with a magnitude lies on the expected side of its first term.

## Main definitions

* `Binary64.IsNumber` — a finite or infinite number
* `Binary64.place` — its place in the numeric order

## Main results

* `below_iff_place`, `atMost_iff_place`, `equals_iff_place` — the comparisons on places
* `place_le_of_totalKey_le`, `totalKey_lt_of_place_lt` — the total order refines the numeric one
* `place_ofSignedUnits_mono`, `place_ofSignedUnits_signedUnits` — rounding keeps order and places
-/

namespace StatusBoard.Binary64

variable {x y : Binary64}

/-- The value is a finite or infinite number. -/
def IsNumber (x : Binary64) : Prop := x.key?.isSome = true

/-- The place of a number in the numeric order. -/
def place (x : Binary64) : Int := x.key?.getD 0

theorem isNumber_number (negative : Bool) (rank : Nat) (h : rank ≤ infinityRank) :
    (number negative rank h).IsNumber := by cases negative <;> rfl

theorem place_number (negative : Bool) (rank : Nat) (h : rank ≤ infinityRank) :
    (number negative rank h).place = if negative then -(rank : Int) else rank := by
  cases negative <;> rfl

theorem place_positive (rank : Nat) (h : rank ≤ infinityRank) :
    (number false rank h).place = rank := rfl

theorem IsNumber.key?_eq (h : x.IsNumber) : x.key? = some x.place := by
  obtain ⟨a, ha⟩ := Option.isSome_iff_exists.mp h
  rw [place, ha]
  rfl

theorem isFinite_iff_place :
    x.isFinite = true ↔ x.IsNumber ∧ -(infinityRank : Int) < x.place ∧ x.place < infinityRank := by
  cases x with
  | number negative rank h =>
    rw [place_number]
    simp only [isFinite, decide_eq_true_eq, isNumber_number, true_and]
    split <;> omega
  | nan negative => simp [isFinite, IsNumber, key?]

theorem natAbs_place_lt (h : x.isFinite = true) : x.place.natAbs < infinityRank := by
  have hplace := isFinite_iff_place.mp h
  omega

theorem isNumber_of_isFinite (h : x.isFinite = true) : x.IsNumber := (isFinite_iff_place.mp h).1

theorem exists_number_of_isFinite (h : x.isFinite = true) :
    ∃ s r hr, x = number s r hr ∧ r ≠ infinityRank := by
  cases x with
  | number s r hr => exact ⟨s, r, hr, rfl, (of_decide_eq_true h).ne⟩
  | nan s => simp [isFinite] at h

theorem isFinite_zero (s : Bool) : (number s 0 (Nat.zero_le _)).isFinite = true := rfl

/-! ### Comparisons -/

theorem below_iff_place (hx : x.IsNumber) (hy : y.IsNumber) :
    x.below y = true ↔ x.place < y.place := by
  simp [below, hx.key?_eq, hy.key?_eq]

/-- Only numbers are compared. -/
theorem isNumber_of_below (h : x.below y = true) : x.IsNumber ∧ y.IsNumber := by
  obtain ⟨a, b, hx, hy, -⟩ := below_iff.mp h
  rw [IsNumber, IsNumber, hx, hy]
  exact ⟨rfl, rfl⟩

theorem isNumber_of_atMost (h : x.atMost y = true) : x.IsNumber ∧ y.IsNumber := by
  obtain ⟨a, b, hx, hy, -⟩ := atMost_iff.mp h
  rw [IsNumber, IsNumber, hx, hy]
  exact ⟨rfl, rfl⟩

theorem atMost_iff_place (hx : x.IsNumber) (hy : y.IsNumber) :
    x.atMost y = true ↔ x.place ≤ y.place := by
  simp [atMost, hx.key?_eq, hy.key?_eq]

/-- Of two numbers one is below the other or the other is at most it. -/
theorem not_atMost_iff_below (hx : x.IsNumber) (hy : y.IsNumber) :
    ¬y.atMost x = true ↔ x.below y = true := by
  rw [atMost_iff_place hy hx, below_iff_place hx hy, not_le]

theorem equals_iff_place (hx : x.IsNumber) (hy : y.IsNumber) :
    x.equals y = true ↔ x.place = y.place := by
  simp [equals, hx.key?_eq, hy.key?_eq]

theorem place_le_of_totalKey_le (hx : x.IsNumber) (hy : y.IsNumber)
    (h : x.totalKey ≤ y.totalKey) : x.place ≤ y.place := by
  cases x with
  | number s r hr =>
    cases y with
    | number t q hq => cases s <;> cases t <;> simp [totalKey, place, key?] at h ⊢ <;> omega
    | nan t => simp [IsNumber, key?] at hy
  | nan s => simp [IsNumber, key?] at hx

theorem totalKey_lt_of_place_lt (hx : x.IsNumber) (hy : y.IsNumber) (h : x.place < y.place) :
    x.totalKey < y.totalKey :=
  not_le.mp fun hle => not_le.mpr h (place_le_of_totalKey_le hy hx hle)

/-- Numbers at one place are the same, save for the two zeros. -/
theorem eq_or_zeros_of_place_eq (hx : x.IsNumber) (hy : y.IsNumber) (h : x.place = y.place) :
    x = y ∨ ∃ s t, x = number s 0 (Nat.zero_le _) ∧ y = number t 0 (Nat.zero_le _) := by
  cases x with
  | number s r hr =>
    cases y with
    | number t q hq =>
      -- With unequal signs the places are on both sides of zero, so both are zero.
      cases s <;> cases t <;> simp [place, key?] at h
      · exact Or.inl (by simp [h])
      · obtain ⟨rfl, rfl⟩ : r = 0 ∧ q = 0 := by omega
        exact Or.inr ⟨_, _, rfl, rfl⟩
      · obtain ⟨rfl, rfl⟩ : r = 0 ∧ q = 0 := by omega
        exact Or.inr ⟨_, _, rfl, rfl⟩
      · exact Or.inl (by simp [h])
    | nan t => simp [IsNumber, key?] at hy
  | nan s => simp [IsNumber, key?] at hx

theorem larger_eq_or (x y : Binary64) : x.larger y = x ∨ x.larger y = y := by
  unfold larger
  split
  · exact Or.inl rfl
  · exact Or.inr rfl

theorem place_larger (hx : x.IsNumber) (hy : y.IsNumber) :
    (x.larger y).place = max x.place y.place := by
  unfold larger
  split_ifs with h <;> rw [below_iff_place hy hx] at h <;> omega

/-! ### Rounded sums of units -/

theorem isNumber_ofSignedUnits (negativeZero : Bool) (units : Int) :
    (ofSignedUnits negativeZero units).IsNumber := isNumber_number _ _ _

/-- The sign of zero matters to no other sum. -/
theorem ofSignedUnits_congr {units : Int} (h : units ≠ 0) (s t : Bool) :
    ofSignedUnits s units = ofSignedUnits t units := by simp [ofSignedUnits, h]

theorem place_ofSignedUnits (negativeZero : Bool) (units : Int) :
    (ofSignedUnits negativeZero units).place =
      if units < 0 then -((min (nearestRank units.natAbs 1) infinityRank : Nat) : Int)
      else (min (nearestRank units.natAbs 1) infinityRank : Nat) := by
  have hzero : nearestRank 0 1 = 0 := nearestRank_unitsOfRank 0
  unfold ofSignedUnits ofRatio
  rw [place_number]
  rcases Int.lt_trichotomy units 0 with hneg | rfl | hpos
  · simp [hneg, hneg.ne]
  · simp [hzero]
  · simp [hpos.ne', Int.not_lt.mpr hpos.le]

/-- A larger sum never rounds to a smaller number. -/
theorem place_ofSignedUnits_mono (s t : Bool) {a b : Int} (h : a ≤ b) :
    (ofSignedUnits s a).place ≤ (ofSignedUnits t b).place := by
  rw [place_ofSignedUnits, place_ofSignedUnits]
  split_ifs with ha hb
  · have := nearestRank_mono Nat.one_pos (show b.natAbs ≤ a.natAbs by omega)
    omega
  · omega
  · omega
  · have := nearestRank_mono Nat.one_pos (show a.natAbs ≤ b.natAbs by omega)
    omega

/-- A magnitude of the format is at its own place after rounding. -/
theorem place_ofSignedUnits_signedUnits (negativeZero s : Bool) {rank : Nat}
    (h : rank ≤ infinityRank) :
    (ofSignedUnits negativeZero (signedUnits s rank)).place = (number s rank h).place := by
  have habs : (signedUnits s rank).natAbs = unitsOfRank rank := by cases s <;> simp [signedUnits]
  rw [place_ofSignedUnits, habs, nearestRank_unitsOfRank, Nat.min_eq_left h, place_number]
  rcases Nat.eq_zero_or_pos rank with rfl | hpos
  · cases s <;> simp [signedUnits]
  · have := unitsOfRank_pos hpos
    cases s <;> simp [signedUnits]
    omega

end StatusBoard.Binary64
