import StatusBoard.Proofs.Binary64.Place
import StatusBoard.Threshold.Range
import Mathlib.Data.List.Chain

/-!
# Overlaps between any two ranges

Only neighbours in a list are compared for an overlap. That is enough: if no range reaches the
lower bound of the next one, it does not reach that of any later one either, since every range
in between ends no earlier than it starts. Conversely a range that reaches the lower bound of the
next one shares that bound with it, if the ranges are in order of their lower bounds.

The bounds may be infinite here.

## Main definitions

* `Range.Meets` — two ranges share a value

## Main results

* `hasOverlap_eq_false_iff` — what is compared, as a condition on neighbours
* `pairwise_below_of_hasOverlap_eq_false` — without an overlap each range ends before all later ones
* `hasOverlap_iff_meets` — neighbours overlap iff any two ranges share a value
-/

namespace StatusBoard

open Binary64

variable {r s : Range} {ranges : List Range}

namespace Range

/-- Some value lies in both ranges. -/
def Meets (r s : Range) : Prop := ∃ v, r.contains v = true ∧ s.contains v = true

theorem Meets.symm (h : r.Meets s) : s.Meets r := by
  obtain ⟨v, hr, hs⟩ := h
  exact ⟨v, hs, hr⟩

/-- A range shares no value with one that starts after its end. -/
theorem not_meets_of_below (h : r.max.below s.min = true) : ¬r.Meets s := by
  rintro ⟨v, hr, hs⟩
  obtain ⟨hmax, hmin⟩ := isNumber_of_below h
  rw [contains, Bool.and_eq_true] at hr hs
  have hv := (isNumber_of_atMost hr.2).1
  rw [below_iff_place hmax hmin] at h
  have hle := (atMost_iff_place hv hmax).mp hr.2
  have hge := (atMost_iff_place hmin hv).mp hs.1
  omega

/-- A range shares the lower bound of a later one if it reaches it. -/
theorem meets_of_atMost (hs : s.min.atMost s.max = true) (hsorted : r.min.atMost s.min = true)
    (hreach : s.min.atMost r.max = true) : r.Meets s := by
  have hself : s.min.atMost s.min = true := by
    have hmin := (isNumber_of_atMost hs).1
    exact (atMost_iff_place hmin hmin).mpr le_rfl
  refine ⟨s.min, ?_, ?_⟩
  · rw [contains, hsorted, hreach]
    rfl
  · rw [contains, hself, hs]
    rfl

end Range

/-- There is no overlap iff no range reaches the lower bound of the next one. -/
theorem hasOverlap_eq_false_iff :
    hasOverlap ranges = false ↔ ranges.IsChain fun r s => ¬s.min.atMost r.max = true := by
  induction ranges with
  | nil => simp [hasOverlap]
  | cons first ranges ih =>
    cases ranges with
    | nil => simp [hasOverlap]
    | cons second rest =>
      rw [hasOverlap, Bool.or_eq_false_iff, Bool.eq_false_iff, ih, List.isChain_cons_cons]

/-- A list without an overlap of neighbours has each range end before all the later ones. -/
theorem pairwise_below_of_hasOverlap_eq_false
    (hbounds : ∀ r ∈ ranges, r.min.atMost r.max = true) (h : hasOverlap ranges = false) :
    ranges.Pairwise fun r s => r.max.below s.min = true := by
  induction ranges with
  | nil => exact .nil
  | cons first ranges ih =>
    cases ranges with
    | nil => exact List.pairwise_singleton _ _
    | cons second rest =>
      obtain ⟨hfirst, hbounds⟩ := List.forall_mem_cons.mp hbounds
      obtain ⟨hreach, hrest⟩ := Bool.or_eq_false_iff.mp h
      have hlater := ih hbounds hrest
      have hsecond := hbounds second List.mem_cons_self
      obtain ⟨hmin, hmax⟩ := isNumber_of_atMost hsecond
      have hend := (isNumber_of_atMost hfirst).2
      have hnext : first.max.below second.min = true :=
        (not_atMost_iff_below hend hmin).mp (Bool.eq_false_iff.mp hreach)
      refine List.pairwise_cons.mpr ⟨fun s hs => ?_, hlater⟩
      rcases List.mem_cons.mp hs with rfl | hs
      · exact hnext
      · -- The second range starts after the first and ends before the later one.
        have hbelow := (List.pairwise_cons.mp hlater).1 s hs
        have hstart := (isNumber_of_below hbelow).2
        rw [below_iff_place hend hmin] at hnext
        rw [atMost_iff_place hmin hmax] at hsecond
        rw [below_iff_place hmax hstart] at hbelow
        rw [below_iff_place hend hstart]
        omega

/-- For ranges that are not inverted, in order of their lower bounds, neighbours overlap iff any
two ranges at different places of the list share a value. -/
theorem hasOverlap_iff_meets (hbounds : ∀ r ∈ ranges, r.min.atMost r.max = true)
    (hsorted : ranges.IsChain fun r s => r.min.atMost s.min = true) :
    hasOverlap ranges = true ↔
      ∃ (i j : Nat) (hi : i < ranges.length) (hj : j < ranges.length),
        i ≠ j ∧ ranges[i].Meets ranges[j] := by
  constructor
  · intro h
    have hnot : ¬ranges.IsChain fun r s => ¬s.min.atMost r.max = true := fun hchain =>
      Bool.eq_false_iff.mp (hasOverlap_eq_false_iff.mpr hchain) h
    obtain ⟨i, hi, hreach⟩ := List.exists_not_getElem_of_not_isChain hnot
    refine ⟨i, i + 1, Nat.lt_of_succ_lt hi, hi, Nat.ne_of_lt (Nat.lt_succ_self i), ?_⟩
    exact Range.meets_of_atMost (hbounds _ (List.getElem_mem hi)) (hsorted.getElem i hi)
      (not_not.mp hreach)
  · rintro ⟨i, j, hi, hj, hne, hmeets⟩
    by_contra h
    have hapart := pairwise_below_of_hasOverlap_eq_false hbounds (Bool.eq_false_of_not_eq_true h)
    rw [List.pairwise_iff_getElem] at hapart
    rcases Nat.lt_or_gt_of_ne hne with hlt | hlt
    · exact Range.not_meets_of_below (hapart i j hi hj hlt) hmeets
    · exact Range.not_meets_of_below (hapart j i hj hi hlt) hmeets.symm

/-- A range of all numbers before two that are apart, the first of them from zero to negative
zero. -/
def coveredByFirst : List Range :=
  [⟨.ok, infinity true, infinity false⟩, ⟨.info, zero, number true 0 (Nat.zero_le _)⟩,
    ⟨.warning, number false 1 (by decide), infinity false⟩]

theorem hasOverlap_coveredByFirst :
    (∀ r ∈ coveredByFirst, r.min.atMost r.max = true) ∧
    (coveredByFirst.IsChain fun r s => r.min.atMost s.min = true) ∧
    (hasOverlap coveredByFirst = true ↔
      ∃ (i j : Nat) (hi : i < coveredByFirst.length) (hj : j < coveredByFirst.length),
        i ≠ j ∧ coveredByFirst[i].Meets coveredByFirst[j]) := by
  have hbounds : ∀ r ∈ coveredByFirst, r.min.atMost r.max = true := by decide
  have hsorted : coveredByFirst.IsChain fun r s => r.min.atMost s.min = true := by decide
  exact ⟨hbounds, hsorted, hasOverlap_iff_meets hbounds hsorted⟩

end StatusBoard
