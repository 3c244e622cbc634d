import StatusBoard.Classifier
import StatusBoard.Proofs.Marker.Index
import StatusBoard.Proofs.Marker.Order
import StatusBoard.Proofs.Threshold.Remainder
import Mathlib.Data.List.Chain

/-!
# Published ranges

The markers of ranges in order are themselves in the order of the index, with one exception. A
range from zero to negative zero has one point, but the total order puts its upper bound first;
then a value below the zeros meets the upper marker and gets the status of the range.

Markers with equal scores are in the order of their labels. These start with the orders, whose
numerals agree with the numbers up to the width. The two markers of one range differ in the
last digit only, so they are in order also beyond it.

## Main definitions

* `Range.isReversed` — a range from zero to negative zero
* `Indexable` — ranges in order, whose markers are told apart
* `readSeverity` — what the index of ranges gives for a value

## Main results

* `index_markersFor` — the index of ranges in order
* `Store.publish_read` — what is read after ranges in order have been published
-/

namespace StatusBoard

open Binary64

/-! ### Bounds in the total order -/

namespace Range

variable {r s : Range}

/-- The bounds of a range. -/
def bounds (r : Range) : List Binary64 := [r.min, r.max]

/-- The total order has the upper bound before the lower one. -/
def isReversed (r : Range) : Bool := decide (r.max.totalKey < r.min.totalKey)

/-- No bound of the first range comes after one of the second. -/
def Precedes (r s : Range) : Prop := ∀ x ∈ r.bounds, ∀ y ∈ s.bounds, x.totalKey ≤ y.totalKey

/-- The bounds of the first range come before those of the second. -/
def StrictlyPrecedes (r s : Range) : Prop :=
  ∀ x ∈ r.bounds, ∀ y ∈ s.bounds, x.totalKey < y.totalKey

theorem lo_eq_hi_of_isReversed (hr : r.isProper = true) (h : r.isReversed = true) :
    r.lo = r.hi := by
  refine (lo_le_hi hr).antisymm ?_
  exact place_le_of_totalKey_le (isNumber_max hr) (isNumber_min hr) (of_decide_eq_true h).le

/-- Only a range from zero to negative zero is reversed. -/
theorem isReversed_iff (hr : r.isProper = true) :
    r.isReversed = true ↔ r.min = zero ∧ r.max = number true 0 (Nat.zero_le _) := by
  constructor
  · intro h
    have hlt : r.max.totalKey < r.min.totalKey := of_decide_eq_true h
    rcases eq_or_zeros_of_place_eq (isNumber_min hr) (isNumber_max hr)
      (lo_eq_hi_of_isReversed hr h) with heq | ⟨sign, sign', hmin, hmax⟩
    · rw [heq] at hlt
      exact absurd hlt (lt_irrefl _)
    · rw [hmin, hmax] at hlt ⊢
      cases sign <;> cases sign' <;> simp_all [totalKey, zero]
  · rintro ⟨hmin, hmax⟩
    rw [isReversed, hmin, hmax]
    rfl

theorem strictlyPrecedes_of_hi_lt_lo (hr : r.isProper = true) (hs : s.isProper = true)
    (h : r.hi < s.lo) : r.StrictlyPrecedes s := by
  have hlo := lo_le_hi hr
  have hhi := lo_le_hi hs
  unfold lo hi at *
  simp only [StrictlyPrecedes, bounds, List.forall_mem_cons]
  refine ⟨⟨?_, ?_, by simp⟩, ⟨?_, ?_, by simp⟩, by simp⟩
  · exact totalKey_lt_of_place_lt (isNumber_min hr) (isNumber_min hs) (by omega)
  · exact totalKey_lt_of_place_lt (isNumber_min hr) (isNumber_max hs) (by omega)
  · exact totalKey_lt_of_place_lt (isNumber_max hr) (isNumber_min hs) (by omega)
  · exact totalKey_lt_of_place_lt (isNumber_max hr) (isNumber_max hs) (by omega)

end Range

/-- Ranges in order. If neighbours touch there are not too many of them for the width of the
orders. -/
structure Indexable (ranges : List Range) : Prop where
  proper : ∀ r ∈ ranges, r.isProper = true
  ordered : ranges.IsChain Range.Precedes
  short_or_apart : 2 * ranges.length ≤ 10 ^ MarkerLabel.orderWidth ∨
    ranges.IsChain Range.StrictlyPrecedes

/-! ### The order of markers -/

namespace Marker

variable {order order' : UInt64} {kind kind' : MarkerKind} {status status' : Status}
  {x y : Binary64}

theorem atBound_le (h : x.totalKey ≤ y.totalKey)
    (hlabel : MarkerLabel.encode ⟨order.toNat, kind, status, x⟩ <
      MarkerLabel.encode ⟨order'.toNat, kind', status', y⟩) :
    (atBound order kind status x).le (atBound order' kind' status' y) = true := by
  rcases h.lt_or_eq with hlt | heq
  · exact le_of_totalKey_lt hlt
  · simp only [le, atBound, heq, hlabel.le, lt_self_iff_false, decide_false, decide_true,
      Bool.and_self, Bool.or_true]

end Marker

/-! ### The index of ranges in order -/

section Index

variable {order : UInt64} {r : Range} {ranges : List Range} {m : Marker}

/-- The markers of a range as the index has them. -/
def Range.indexPair (order : UInt64) (r : Range) : List Marker :=
  if r.isReversed then
    [.atBound (order + 1) .max r.status r.max, .atBound order .min r.status r.min]
  else [.atBound order .min r.status r.min, .atBound (order + 1) .max r.status r.max]

/-- The markers of ranges in order as the index has them. -/
def indexFrom (order : UInt64) : List Range → List Marker
  | [] => []
  | r :: rs => r.indexPair order ++ indexFrom (order + 2) rs

theorem Range.indexPair_perm (order : UInt64) (r : Range) :
    (r.indexPair order).Perm
      [.atBound order .min r.status r.min, .atBound (order + 1) .max r.status r.max] := by
  unfold indexPair
  split
  · exact .swap _ _ _
  · exact .refl _

theorem indexFrom_perm (order : UInt64) (ranges : List Range) :
    (indexFrom order ranges).Perm (markersFrom order ranges) := by
  induction ranges generalizing order with
  | nil => exact .refl _
  | cons r rs ih => exact (r.indexPair_perm order).append (ih (order + 2))

/-- A marker of a range is at one of its bounds and has one of two orders. -/
theorem Range.exists_of_mem_indexPair (h : m ∈ r.indexPair order) :
    ∃ kind, ∃ x ∈ r.bounds,
      m = .atBound order kind r.status x ∨ m = .atBound (order + 1) kind r.status x := by
  rw [(r.indexPair_perm order).mem_iff] at h
  rcases List.mem_cons.mp h with rfl | h
  · exact ⟨.min, r.min, by simp [bounds], Or.inl rfl⟩
  · obtain rfl := List.mem_singleton.mp h
    exact ⟨.max, r.max, by simp [bounds], Or.inr rfl⟩

theorem Range.isChain_indexPair (heven : order.toNat % 2 = 0) (r : Range) :
    (r.indexPair order).IsChain fun a b => a.le b = true := by
  unfold indexPair
  split
  · rename_i hreversed
    exact List.isChain_pair.mpr (Marker.le_of_totalKey_lt (of_decide_eq_true hreversed))
  · rename_i hreversed
    have hle : r.min.totalKey ≤ r.max.totalKey := by
      simpa [isReversed] using hreversed
    exact List.isChain_pair.mpr (Marker.atBound_le hle (Marker.atBound_label_lt heven ..))

/-- Markers of neighbours are in order, by their scores or by their orders. -/
theorem Range.le_of_mem_indexPair {s : Range} {a b : Marker}
    (heven : order.toNat % 2 = 0) (hle : r.Precedes s)
    (hties : order.toNat + 4 ≤ 10 ^ MarkerLabel.orderWidth ∨ r.StrictlyPrecedes s)
    (ha : a ∈ r.indexPair order) (hb : b ∈ s.indexPair (order + 2)) : a.le b = true := by
  obtain ⟨kind, x, hx, ha⟩ := exists_of_mem_indexPair ha
  obtain ⟨kind', y, hy, hb⟩ := exists_of_mem_indexPair hb
  rcases hties with hwidth | hlt
  · -- All four orders fit the width, so the labels of equal scores are in the same order.
    have hnext : (order + 2).toNat = order.toNat + 2 := by
      have : (10 : Nat) ^ MarkerLabel.orderWidth = 1000000 := rfl
      rw [UInt64.toNat_add, show (2 : UInt64).toNat = 2 from rfl]
      omega
    have hsucc := toNat_succ_of_even heven
    have hsucc' := toNat_succ_of_even (toNat_add_two_mod heven)
    rcases ha with rfl | rfl <;> rcases hb with rfl | rfl <;>
      refine Marker.atBound_le (hle x hx y hy) (MarkerLabel.encode_lt_encode ?_ ?_) <;>
      dsimp only <;> omega
  · -- The scores differ, so the labels have no say.
    apply Marker.le_of_totalKey_lt
    rcases ha with rfl | rfl <;> rcases hb with rfl | rfl <;> exact hlt x hx y hy

theorem isChain_indexFrom (heven : order.toNat % 2 = 0)
    (hordered : ranges.IsChain Range.Precedes)
    (hties : order.toNat + 2 * ranges.length ≤ 10 ^ MarkerLabel.orderWidth ∨
      ranges.IsChain Range.StrictlyPrecedes) :
    (indexFrom order ranges).IsChain fun a b => a.le b = true := by
  induction ranges generalizing order with
  | nil => exact .nil
  | cons r rs ih =>
    obtain ⟨hhead, hordered⟩ := List.isChain_cons.mp hordered
    -- What is left is to step from the last marker of a range to the first of the next one.
    refine List.isChain_append.mpr ⟨r.isChain_indexPair heven, ?_, ?_⟩
    · refine ih (toNat_add_two_mod heven) hordered (hties.imp (fun hwidth => ?_) (·.of_cons))
      rw [List.length_cons] at hwidth
      rw [UInt64.toNat_add, show (2 : UInt64).toNat = 2 from rfl]
      omega
    · intro a ha b hb
      cases rs with
      | nil => simp [indexFrom] at hb
      | cons s rest =>
        have hb : b ∈ s.indexPair (order + 2) := by
          unfold indexFrom Range.indexPair at hb
          unfold Range.indexPair
          split <;> simp_all
        refine r.le_of_mem_indexPair heven (hhead s rfl) ?_ (List.mem_of_getLast? ha) hb
        refine hties.imp (fun hwidth => ?_) fun hchain => (List.isChain_cons.mp hchain).1 s rfl
        simp only [List.length_cons] at hwidth
        omega

/-- The index of ranges in order. -/
theorem index_markersFor (h : Indexable ranges) :
    Marker.index (markersFor ranges) = indexFrom 0 ranges := by
  have htrans : Trans (fun a b : Marker => a.le b = true) (fun a b => a.le b = true)
      (fun a b => a.le b = true) := ⟨Marker.le_trans _ _ _⟩
  have hpairwise : (indexFrom 0 ranges).Pairwise fun a b => a.le b = true :=
    List.isChain_iff_pairwise.mp
      (isChain_indexFrom rfl h.ordered (by simpa using h.short_or_apart))
  -- Two lists of the same markers in one order are the same, since the order is antisymmetric.
  exact List.Perm.eq_of_pairwise (fun _ _ _ _ => Marker.le_antisymm)
    (Marker.pairwise_index _) hpairwise
    ((Marker.index_perm _).trans (indexFrom_perm 0 ranges).symm)

end Index

/-! ### Reading -/

/-- What the index of ranges in order gives for a value: the status of the first range that
does not end below the value, if it has the value or is reversed. -/
def readSeverity (ranges : List Range) (value : Binary64) : Severity :=
  match ranges.find? fun r => !r.max.below value with
  | some r => if r.isReversed || r.contains value then .ofStatus r.status else .invalid
  | none => .invalid

section Reading

variable {order : UInt64} {ranges : List Range} {status : Status} {x v : Binary64}

theorem Marker.exists_decode?_label (order : UInt64) (kind : MarkerKind) (status : Status)
    (x : Binary64) :
    ∃ y, MarkerLabel.decode? (Marker.atBound order kind status x).label =
      some ⟨order.toNat, kind, status, y⟩ := by
  obtain ⟨y, hy⟩ := exists_ofChars?_toChars x
  exact ⟨y, MarkerLabel.decode?_encode order.toNat_lt hy⟩

theorem Marker.resolve_max :
    Marker.resolve (some (.atBound order .max status x)) v = .ofStatus status := by
  obtain ⟨y, hy⟩ := Marker.exists_decode?_label order .max status x
  simp only [Marker.resolve, hy]

theorem Marker.resolve_min :
    Marker.resolve (some (.atBound order .min status x)) v =
      if x.equals v then .ofStatus status else .invalid := by
  obtain ⟨y, hy⟩ := Marker.exists_decode?_label order .min status x
  simp only [Marker.resolve, hy]
  rfl

theorem score_mem_of_mem_indexFrom {m : Marker} (h : m ∈ indexFrom order ranges) :
    ∃ r ∈ ranges, m.score ∈ r.bounds := by
  induction ranges generalizing order with
  | nil => simp [indexFrom] at h
  | cons r rs ih =>
    rcases List.mem_append.mp h with h | h
    · obtain ⟨kind, x, hx, rfl | rfl⟩ := Range.exists_of_mem_indexPair h
      · exact ⟨r, List.mem_cons_self, hx⟩
      · exact ⟨r, List.mem_cons_self, hx⟩
    · obtain ⟨s, hs, hm⟩ := ih h
      exact ⟨s, List.mem_cons_of_mem r hs, hm⟩

namespace Range

variable {r : Range}

theorem max_below_eq (hr : r.isProper = true) (hv : v.IsNumber) :
    r.max.below v = decide (r.hi < v.place) := by
  rw [Bool.eq_iff_iff, below_iff_place (isNumber_max hr) hv, decide_eq_true_eq, hi]

/-- A value above a range is above both of its markers. -/
theorem find?_indexPair_eq_none (hr : r.isProper = true) (hv : v.IsNumber)
    (hpast : r.hi < v.place) :
    (r.indexPair order).find? (fun m => !m.score.below v) = none := by
  have hlohi := lo_le_hi hr
  refine List.find?_eq_none.mpr fun m hm => ?_
  obtain ⟨kind, x, hx, hm⟩ := exists_of_mem_indexPair hm
  have hscore : m.score = x := by rcases hm with rfl | rfl <;> rfl
  rw [hscore, Bool.not_eq_true', Bool.not_eq_false]
  simp only [bounds, List.mem_cons, List.not_mem_nil, or_false] at hx
  rcases hx with rfl | rfl
  · exact (below_iff_place (isNumber_min hr) hv).mpr (hlohi.trans_lt hpast)
  · exact (below_iff_place (isNumber_max hr) hv).mpr hpast

/-- Otherwise the first marker at or above the value tells whether the range has the value, if
it is not reversed. -/
theorem exists_find?_indexPair (hr : r.isProper = true) (hv : v.IsNumber)
    (hpast : ¬ r.hi < v.place) :
    ∃ m, (r.indexPair order).find? (fun m => !m.score.below v) = some m ∧
      Marker.resolve (some m) v =
        if r.isReversed || r.contains v then .ofStatus r.status else .invalid := by
  have hmax : (!r.max.below v) = true := by simp [max_below_eq hr hv, hpast]
  unfold indexPair
  by_cases hreversed : r.isReversed = true
  · -- The upper marker comes first and answers for every value that is not above it.
    rw [if_pos hreversed]
    refine ⟨.atBound (order + 1) .max r.status r.max, List.find?_cons_of_pos hmax, ?_⟩
    simp [Marker.resolve_max, hreversed]
  · rw [if_neg hreversed]
    have hcontains := contains_iff_place hr hv
    by_cases hstarted : r.min.below v = true
    · refine ⟨.atBound (order + 1) .max r.status r.max, ?_, ?_⟩
      · rw [List.find?_cons_of_neg (by simpa [Marker.atBound] using hstarted)]
        exact List.find?_cons_of_pos hmax
      · have hin : r.contains v = true := by
          rw [below_iff_place (isNumber_min hr) hv] at hstarted
          exact hcontains.mpr ⟨hstarted.le, not_lt.mp hpast⟩
        simp [Marker.resolve_max, hin]
    · refine ⟨.atBound order .min r.status r.min,
        List.find?_cons_of_pos (by simpa [Marker.atBound] using hstarted), ?_⟩
      -- The value is not above the lower bound: it is in the range only if it is that bound.
      have hiff : r.contains v = r.min.equals v := by
        rw [below_iff_place (isNumber_min hr) hv] at hstarted
        rw [Bool.eq_iff_iff, hcontains, equals_iff_place (isNumber_min hr) hv]
        unfold lo at *
        omega
      simp [Marker.resolve_min, hreversed, hiff]

end Range

/-- The first marker of the index that is not below a value. -/
theorem resolve_find?_indexFrom (hproper : ∀ r ∈ ranges, r.isProper = true) (hv : v.IsNumber) :
    Marker.resolve ((indexFrom order ranges).find? fun m => !m.score.below v) v =
      readSeverity ranges v := by
  induction ranges generalizing order with
  | nil => rfl
  | cons r rs ih =>
    obtain ⟨hr, hrs⟩ := List.forall_mem_cons.mp hproper
    have hmax := Range.max_below_eq hr hv
    rw [indexFrom, List.find?_append]
    -- The range is passed over both in the index and in the list, or decides in both.
    by_cases hpast : r.hi < v.place
    · rw [Range.find?_indexPair_eq_none hr hv hpast, Option.none_or, ih hrs, readSeverity,
        readSeverity, List.find?_cons_of_neg (by simp [hmax, hpast])]
    · obtain ⟨m, hfind, hresolve⟩ := Range.exists_find?_indexPair hr hv hpast
      rw [hfind, Option.some_or, hresolve, readSeverity,
        List.find?_cons_of_pos (by simp [hmax, hpast])]

end Reading

/-- What is read after ranges in order have been published. -/
theorem Store.publish_read {s : Store} (hs : s.available = true) (metric : String)
    {ranges : List Range} (h : Indexable ranges) :
    ∃ s', s.publish metric ranges = .ok s' ∧ ∀ v, v.IsNumber →
      (s'.firstAtOrAbove metric v).map (fun found => Marker.resolve found v) =
        .ok (readSeverity ranges v) := by
  have hsorted := Marker.pairwise_index (markersFor ranges)
  have hindex := index_markersFor h
  refine ⟨_, whenAvailable_eq_ok_iff.mpr ⟨hs, rfl⟩, fun v hv => ?_⟩
  have hnumber : ∀ m ∈ indexFrom 0 ranges, m.score.IsNumber := by
    intro m hm
    obtain ⟨r, hr, hscore⟩ := score_mem_of_mem_indexFrom hm
    simp only [Range.bounds, List.mem_cons, List.not_mem_nil, or_false] at hscore
    rcases hscore with hscore | hscore <;> rw [hscore]
    · exact Range.isNumber_min (h.proper r hr)
    · exact Range.isNumber_max (h.proper r hr)
  have hread := firstAtOrAbove_eq_find? (hindex ▸ hsorted) hnumber hv
  simp only [Store.firstAtOrAbove, Store.indexOf, Store.whenAvailable, hs, if_true,
    Table.get?_insert_self, Option.getD_some, hindex, hread, Except.map,
    resolve_find?_indexFrom h.proper hv]

end StatusBoard
