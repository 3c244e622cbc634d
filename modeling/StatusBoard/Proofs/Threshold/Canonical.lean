import StatusBoard.Proofs.Threshold.Overlap
import StatusBoard.Proofs.Threshold.Sweep

/-!
# The canonical form

The canonical set of proper ranges has proper ranges, each of which ends before the next one
starts; so its neighbours share no point, and it is its own canonical set. This holds also
where a nudge leaves the finite numbers, since the piece that would start or end there is
dropped.

## Main results

* `Canonical.hasOverlap_eq_false` — neighbours of a canonical list share no point
* `mergeOverlaps_canonicalForm` — the form of a canonical set, and that it is stable
-/

namespace StatusBoard

open Binary64

variable {ranges : List Range}

/-- Neighbours of a canonical list are apart numerically. -/
theorem Canonical.isChain_below (h : Canonical ranges) :
    ranges.IsChain fun r s => r.max.below s.min = true := by
  refine (List.Pairwise.imp_of_mem (fun {r s} hr hs hlt => ?_) h.apart).isChain
  exact (Range.max_below_min_iff_place (h.proper r hr) (h.proper s hs)).mpr hlt

theorem Canonical.hasOverlap_eq_false (h : Canonical ranges) : hasOverlap ranges = false := by
  refine hasOverlap_eq_false_iff.mpr (h.isChain_below.imp fun r s hbelow => ?_)
  obtain ⟨hmax, hmin⟩ := isNumber_of_below hbelow
  exact (not_atMost_iff_below hmax hmin).mpr hbelow

/-- The canonical set of proper ranges has finite bounds that are not inverted, each range ends
before the next one starts, no neighbours share a point, and merging it again changes
nothing. -/
theorem mergeOverlaps_canonicalForm (hproper : ∀ r ∈ ranges, r.isProper = true) :
    (∀ r ∈ mergeOverlaps ranges,
      r.min.isFinite = true ∧ r.max.isFinite = true ∧ r.min.atMost r.max = true) ∧
    ((mergeOverlaps ranges).IsChain fun r s => r.max.below s.min = true) ∧
    hasOverlap (mergeOverlaps ranges) = false ∧
    mergeOverlaps (mergeOverlaps ranges) = mergeOverlaps ranges := by
  have hcanonical := canonical_mergeOverlaps hproper
  refine ⟨fun r hr => ?_, hcanonical.isChain_below, hcanonical.hasOverlap_eq_false,
    mergeOverlaps_eq_self hcanonical⟩
  simpa [Range.isProper, and_assoc] using hcanonical.proper r hr

/-- Bounds at the largest numbers, where a nudge overflows, and at both zeros. -/
def extremes : List Range :=
  let largest := infinityRank - 1
  [⟨.ok, number true largest (Nat.sub_le _ _), number false largest (Nat.sub_le _ _)⟩,
    ⟨.warning, number true 0 (Nat.zero_le _), number false largest (Nat.sub_le _ _)⟩,
    ⟨.critical, number false 0 (Nat.zero_le _), number true 0 (Nat.zero_le _)⟩]

theorem mergeOverlaps_extremes_canonicalForm :
    (∀ r ∈ extremes, r.isProper = true) ∧
    (∀ r ∈ mergeOverlaps extremes,
      r.min.isFinite = true ∧ r.max.isFinite = true ∧ r.min.atMost r.max = true) ∧
    ((mergeOverlaps extremes).IsChain fun r s => r.max.below s.min = true) ∧
    hasOverlap (mergeOverlaps extremes) = false ∧
    mergeOverlaps (mergeOverlaps extremes) = mergeOverlaps extremes := by
  have hproper : ∀ r ∈ extremes, r.isProper = true := by decide +kernel
  exact ⟨hproper, mergeOverlaps_canonicalForm hproper⟩

end StatusBoard
