import StatusBoard.Marker.Basic
import StatusBoard.Proofs.Marker.Label

/-!
# The order of published labels

The markers of a list carry their places in it as orders, with two for each range. The two labels
of one range are always in order, since an even order and the next one differ in the last digit
only. All labels of a list are in order as long as the orders fit the width of their numerals;
with the first range beyond it they are not any more.

## Main definitions

* `Range.lowerMarker`, `Range.upperMarker` — the two markers of a range by its place
* `labelsFor` — the labels of a list of ranges

## Main results

* `getElem?_markersFor` — which markers a list has at which places
* `pairwise_labelsFor_iff` — when all labels of a list are in order
* `labels_ordered` — the order of the labels of one range and of a list
-/

namespace StatusBoard

variable {order : UInt64} {ranges : List Range} {i : Nat}

/-! ### Even orders -/

/-- An even word is not the last one. -/
theorem toNat_succ_of_even (heven : order.toNat % 2 = 0) :
    (order + 1).toNat = order.toNat + 1 := by
  have := order.toNat_lt
  rw [UInt64.toNat_add, UInt64.toNat_one]
  omega

theorem toNat_add_two_mod (heven : order.toNat % 2 = 0) : (order + 2).toNat % 2 = 0 := by
  rw [UInt64.toNat_add, show (2 : UInt64).toNat = 2 from rfl]
  omega

/-- The label of an even order comes before that of the next order. -/
theorem Marker.atBound_label_lt (heven : order.toNat % 2 = 0) (kind kind' : MarkerKind)
    (status status' : Status) (x y : Binary64) :
    (atBound order kind status x).label < (atBound (order + 1) kind' status' y).label := by
  have hnext := toNat_succ_of_even heven
  apply MarkerLabel.encode_lt_encode_of_tens_eq
  · exact hnext ▸ Nat.lt_succ_self _
  · -- An even number does not end in nine.
    dsimp only
    omega

/-! ### The markers by their places -/

namespace Range

/-- The marker at the lower bound of the range with the given place in a list. -/
def lowerMarker (i : Nat) (r : Range) : Marker := .atBound (.ofNat (2 * i)) .min r.status r.min

/-- The marker at the upper bound of the range with the given place in a list. -/
def upperMarker (i : Nat) (r : Range) : Marker := .atBound (.ofNat (2 * i + 1)) .max r.status r.max

theorem upperMarker_eq (i : Nat) (r : Range) :
    r.upperMarker i = .atBound (.ofNat (2 * i) + 1) .max r.status r.max := by
  rw [upperMarker, UInt64.ofNat_add]
  rfl

theorem lowerMarker_label_lt (i : Nat) (r : Range) :
    (r.lowerMarker i).label < (r.upperMarker i).label := by
  have heven : (UInt64.ofNat (2 * i)).toNat % 2 = 0 := by
    -- Beyond 64 bits the order wraps around, which keeps it even.
    rw [UInt64.toNat_ofNat']
    omega
  rw [upperMarker_eq]
  exact Marker.atBound_label_lt heven ..

end Range

/-- Each range has its markers at two places in a row, and their orders count on from the first. -/
theorem getElem?_markersFrom (first : Nat) (ranges : List Range) (i : Nat) :
    (markersFrom (.ofNat (2 * first)) ranges)[2 * i]? =
      ranges[i]?.map (Range.lowerMarker (first + i)) ∧
    (markersFrom (.ofNat (2 * first)) ranges)[2 * i + 1]? =
      ranges[i]?.map (Range.upperMarker (first + i)) := by
  induction ranges generalizing first i with
  | nil => exact ⟨rfl, rfl⟩
  | cons r rs ih =>
    cases i with
    | zero =>
      refine ⟨rfl, ?_⟩
      simp [markersFrom, Range.upperMarker_eq]
    | succ i =>
      have hnext : UInt64.ofNat (2 * first) + 2 = .ofNat (2 * (first + 1)) :=
        (UInt64.ofNat_add ..).symm
      have hplace : first + 1 + i = first + (i + 1) := by omega
      rw [markersFrom, hnext]
      exact hplace ▸ ih (first + 1) i

theorem getElem?_markersFor (h : i < ranges.length) :
    (markersFor ranges)[2 * i]? = some (ranges[i].lowerMarker i) ∧
    (markersFor ranges)[2 * i + 1]? = some (ranges[i].upperMarker i) := by
  have hplaces := getElem?_markersFrom 0 ranges i
  rwa [Nat.zero_add, List.getElem?_eq_getElem h] at hplaces

/-- At each place there is a marker with that order. -/
theorem exists_getElem?_markersFor (h : i < 2 * ranges.length) :
    ∃ kind status score,
      (markersFor ranges)[i]? = some (.atBound (.ofNat i) kind status score) := by
  have hrange : i / 2 < ranges.length := by omega
  obtain ⟨hlower, hupper⟩ := getElem?_markersFor hrange
  rcases Nat.mod_two_eq_zero_or_one i with heven | hodd
  · have hplace : 2 * (i / 2) = i := by omega
    rw [Range.lowerMarker, hplace] at hlower
    exact ⟨_, _, _, hlower⟩
  · have hplace : 2 * (i / 2) + 1 = i := by omega
    rw [Range.upperMarker, hplace] at hupper
    exact ⟨_, _, _, hupper⟩

/-! ### The order of all labels -/

/-- The labels of a list of ranges. -/
def labelsFor (ranges : List Range) : List String := (markersFor ranges).map Marker.label

theorem length_labelsFor (ranges : List Range) : (labelsFor ranges).length = 2 * ranges.length := by
  rw [labelsFor, List.length_map, length_markersFor]

/-- The order of a label is its place, as far as places fit 64 bits. -/
theorem exists_getElem_labelsFor (h : i < (labelsFor ranges).length) (hword : i < Text.wordSize) :
    ∃ label : MarkerLabel, label.order = i ∧ (labelsFor ranges)[i] = label.encode := by
  have hplace : i < 2 * ranges.length := by rwa [← length_labelsFor]
  obtain ⟨kind, status, score, hmarker⟩ := exists_getElem?_markersFor hplace
  have horder : (UInt64.ofNat i).toNat = i := UInt64.toNat_ofNat_of_lt hword
  refine ⟨⟨(UInt64.ofNat i).toNat, kind, status, score⟩, horder, ?_⟩
  obtain ⟨_, hget⟩ := List.getElem?_eq_some_iff.mp hmarker
  simp only [labelsFor, List.getElem_map, hget]
  rfl

/-- The labels of a list are in order iff all orders of its markers fit the width. -/
theorem pairwise_labelsFor_iff :
    (labelsFor ranges).Pairwise (· < ·) ↔ 2 * ranges.length ≤ 10 ^ MarkerLabel.orderWidth := by
  have hwidth : (10 : Nat) ^ MarkerLabel.orderWidth < Text.wordSize := by decide
  have hpos : 0 < (10 : Nat) ^ MarkerLabel.orderWidth := by decide
  have hlength := length_labelsFor ranges
  generalize hlimit : (10 : Nat) ^ MarkerLabel.orderWidth = limit at *
  rw [List.pairwise_iff_getElem]
  constructor
  · intro h
    by_contra hlong
    -- The last order that fits and the next one both occur, and their labels are out of order.
    have hlast : limit - 1 < (labelsFor ranges).length := by omega
    have hnext : limit < (labelsFor ranges).length := by omega
    obtain ⟨label, horder, hlabel⟩ := exists_getElem_labelsFor hlast (by omega)
    obtain ⟨label', horder', hlabel'⟩ := exists_getElem_labelsFor hnext hwidth
    have hlt := h _ _ hlast hnext (by omega)
    rw [hlabel, hlabel'] at hlt
    exact lt_asymm hlt (MarkerLabel.encode_lt_encode_of_rollover (by omega) (by omega))
  · intro hshort i j hi hj hlt
    obtain ⟨label, horder, hlabel⟩ := exists_getElem_labelsFor hi (by omega)
    obtain ⟨label', horder', hlabel'⟩ := exists_getElem_labelsFor hj (by omega)
    rw [hlabel, hlabel']
    exact MarkerLabel.encode_lt_encode (by omega) (by omega)

/-- The label of the lower bound of a range comes before that of its upper bound, however many
ranges there are, and all labels of a list are in order iff it has at most 500000 ranges. -/
theorem labels_ordered (ranges : List Range) :
    (∀ (i : Nat) (h : i < ranges.length),
      (markersFor ranges)[2 * i]? = some (ranges[i].lowerMarker i) ∧
      (markersFor ranges)[2 * i + 1]? = some (ranges[i].upperMarker i) ∧
      (ranges[i].lowerMarker i).label < (ranges[i].upperMarker i).label) ∧
    ((labelsFor ranges).Pairwise (· < ·) ↔ ranges.length ≤ 500000) := by
  constructor
  · intro i h
    obtain ⟨hlower, hupper⟩ := getElem?_markersFor h
    exact ⟨hlower, hupper, ranges[i].lowerMarker_label_lt i⟩
  · have hlimit : (10 : Nat) ^ MarkerLabel.orderWidth = 2 * 500000 := by decide
    refine pairwise_labelsFor_iff.trans ?_
    omega

/-- As many ranges as can have all their labels in order; they share their only point. -/
def longestOrdered : List Range := List.replicate 500000 ⟨.ok, .zero, .zero⟩

theorem labels_ordered_longestOrdered :
    ∃ h : 499999 < longestOrdered.length,
      (markersFor longestOrdered)[999998]? = some (longestOrdered[499999].lowerMarker 499999) ∧
      (markersFor longestOrdered)[999999]? = some (longestOrdered[499999].upperMarker 499999) ∧
      (longestOrdered[499999].lowerMarker 499999).label <
        (longestOrdered[499999].upperMarker 499999).label ∧
      (labelsFor longestOrdered).Pairwise (· < ·) := by
  have hlength : longestOrdered.length = 500000 := List.length_replicate
  have hlast : 499999 < longestOrdered.length := by omega
  obtain ⟨hpairs, hall⟩ := labels_ordered longestOrdered
  obtain ⟨hlower, hupper, hlt⟩ := hpairs 499999 hlast
  exact ⟨hlast, hlower, hupper, hlt, hall.mpr hlength.le⟩

end StatusBoard
