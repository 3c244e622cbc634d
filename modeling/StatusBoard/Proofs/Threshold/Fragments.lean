import StatusBoard.Classifier
import StatusBoard.Proofs.Marker.Index
import StatusBoard.Proofs.Threshold.Departure
import Mathlib.Data.Finset.Max
import Mathlib.Data.List.Nodup

/-!
# How many ranges a merge leaves

A range may be cut over and over, so the steps of the sweep say nothing about the number of
ranges in the end. Their starts do: the ranges of a canonical set start at different places, and
each of these is a given lower bound or the nudge of a given upper bound. The nudge of the
greatest upper bound is beyond all ranges, so it is none of them.

## Main definitions

* `startsOf` — the places where a range of a canonical set may start

## Main results

* `Sweeps.ne_nil`, `Sweeps.lo_mem_startsOf` — something is left of a queue, and where it starts
* `Canonical.length_le` — a canonical list is no longer than a list that has its starts
* `mergeOverlaps_length_le` — the size of a canonical set, and of the index that is made of it
-/

namespace StatusBoard

open Binary64

variable {ranges given queue out : List Range} {r : Range}

theorem requeue_cons_ne_nil (p : Range) (pieces queue : List Range) :
    requeue (p :: pieces) queue ≠ [] :=
  List.ne_nil_of_mem (mem_requeue.mpr (.inl List.mem_cons_self))

/-! ### Starts -/

/-- The places where a range of a canonical set may start: at the given lower bounds, and at the
nudges of the given upper bounds save for the greatest. -/
def startsOf (given : List Range) : List Int :=
  given.map Range.lo ++
    (given.filter fun g => ∃ k ∈ given, g.hi < k.hi).map fun g => (nudgeUp g.max).place

theorem mem_startsOf {x : Int} :
    x ∈ startsOf given ↔ ∃ g ∈ given, x = g.lo ∨
      x = (nudgeUp g.max).place ∧ ∃ k ∈ given, g.hi < k.hi := by
  rw [startsOf, List.mem_append, List.mem_map, List.mem_map]
  constructor
  · rintro (⟨g, hg, rfl⟩ | ⟨g, hg, rfl⟩)
    · exact ⟨g, hg, .inl rfl⟩
    · obtain ⟨hg, hless⟩ := List.mem_filter.mp hg
      exact ⟨g, hg, .inr ⟨rfl, of_decide_eq_true hless⟩⟩
  · rintro ⟨g, hg, rfl | ⟨rfl, hless⟩⟩
    · exact .inl ⟨g, hg, rfl⟩
    · exact .inr ⟨g, List.mem_filter.mpr ⟨hg, decide_eq_true hless⟩, rfl⟩

/-- At least one of some ranges has the greatest upper bound. -/
theorem length_startsOf_le (hne : given ≠ []) :
    (startsOf given).length ≤ 2 * given.length - 1 := by
  obtain ⟨g, hg, hgreatest⟩ := Finset.exists_max_image given.toFinset Range.hi
    ((List.toFinset_nonempty_iff given).mpr hne)
  have hfewer : (given.filter fun g => ∃ k ∈ given, g.hi < k.hi).length < given.length := by
    refine List.length_filter_lt_length_iff_exists.mpr ⟨g, List.mem_toFinset.mp hg, ?_⟩
    simp only [decide_eq_true_eq, not_exists, not_and, not_lt]
    exact fun k hk => hgreatest k (List.mem_toFinset.mpr hk)
  rw [startsOf, List.length_append, List.length_map, List.length_map]
  omega

namespace Sweeps

/-- Something is left of what waits. -/
theorem ne_nil (h : Sweeps queue out) (hqueue : queue ≠ []) : out ≠ [] := by
  induction h with
  | nil => exact absurd rfl hqueue
  | last | settle => exact List.cons_ne_nil _ _
  | join _ _ _ _ ih | keepFirst _ _ _ _ ih => exact ih (requeue_cons_ne_nil _ _ _)
  | keepSecond _ _ _ _ ih =>
    exact List.append_ne_nil_of_right_ne_nil _ (ih (requeue_cons_ne_nil _ _ _))

/-- No range of the result starts at the nudge of the greatest upper bound. -/
theorem lo_mem_startsOf (h : Sweeps queue out) (hgiven : ∀ g ∈ given, g.isProper = true)
    (hsubset : queue ⊆ given) (hr : r ∈ out) : r.lo ∈ startsOf given := by
  rw [mem_startsOf]
  obtain ⟨g, hg, hstart | hstart⟩ := h.exists_start hgiven hsubset hr
  · exact ⟨g, hg, .inl hstart⟩
  · -- Some given range has the place where the range starts, so it ends behind the nudged bound.
    have hcovers : Covered out r.status r.lo r.lo :=
      ⟨r, hr, rfl, le_rfl, Range.lo_le_hi (h.canonical.proper r hr)⟩
    obtain ⟨k, hk, -, -, hend⟩ := h.covered_given hsubset (by omega) hcovers
    have hnudge : g.hi < (nudgeUp g.max).place :=
      place_lt_nudgeUp (Range.isFinite_max (hgiven g hg))
    exact ⟨g, hg, .inr ⟨hstart, k, hk, by omega⟩⟩

end Sweeps

namespace Canonical

theorem nodup_lo (h : Canonical ranges) : (ranges.map Range.lo).Nodup :=
  List.pairwise_map.mpr (h.pairwise_lo.imp ne_of_lt)

/-- A canonical list is no longer than a list that has all its starts. -/
theorem length_le (h : Canonical ranges) {starts : List Int}
    (hstarts : ∀ r ∈ ranges, r.lo ∈ starts) : ranges.length ≤ starts.length := by
  have hsubset : ranges.map Range.lo ⊆ starts := List.forall_mem_map.mpr hstarts
  calc ranges.length = (ranges.map Range.lo).length := (List.length_map ..).symm
    _ ≤ starts.length := (h.nodup_lo.subperm hsubset).length_le

end Canonical

/-! ### The size of a canonical set -/

/-- The markers that are published for a definition, when its canonical set is rebuilt. -/
theorem Store.exists_rebuild_markersOf {s : Store} (hs : s.available = true) (metric : String)
    {definition : ThresholdDefinition} (hbuild : definition.build = .ok ranges) :
    ∃ s', s.rebuild metric definition = .ok (mergeOverlaps ranges, s') ∧
      s'.markersOf metric = .ok (Marker.index (markersFor (mergeOverlaps ranges))) := by
  let index := Marker.index (markersFor (mergeOverlaps ranges))
  refine ⟨{ s with markers := s.markers.insert (keyOf metric) index }, ?_, ?_⟩
  · have hpublish : s.publish metric (mergeOverlaps ranges) =
        .ok { s with markers := s.markers.insert (keyOf metric) index } := if_pos hs
    simp only [rebuild, hbuild, hpublish]
  · rw [markersOf, indexOf, Table.get?_insert_self]
    exact if_pos hs

/-- The canonical set of `n` proper ranges, of which there are some, has between one and `2 n - 1`
ranges. Each of them starts at a given lower bound or at the nudge of a given upper bound. The
index that is rebuilt from a definition has two markers for each range of the canonical set, so
with `n` ranges in the definition it has at most `4 n - 2`. -/
theorem mergeOverlaps_length_le (hproper : ∀ g ∈ ranges, g.isProper = true)
    (hne : ranges ≠ []) :
    1 ≤ (mergeOverlaps ranges).length ∧
    (mergeOverlaps ranges).length ≤ 2 * ranges.length - 1 ∧
    (∀ r ∈ mergeOverlaps ranges, ∃ g ∈ ranges,
      r.min.equals g.min = true ∨ r.min.equals (nudgeUp g.max) = true) ∧
    ∀ (s : Store) (metric : String) (definition : ThresholdDefinition),
      s.available = true → definition.build = .ok ranges →
      ∃ s' markers, s.rebuild metric definition = .ok (mergeOverlaps ranges, s') ∧
        s'.markersOf metric = .ok markers ∧
        markers.length = 2 * (mergeOverlaps ranges).length ∧
        markers.length ≤ 4 * definition.ranges.length - 2 := by
  have hsweep := sweeps_mergeOverlaps hproper
  have hqueue := Ordered.sort_perm Range.le ranges
  have hstarts : ∀ r ∈ mergeOverlaps ranges, r.lo ∈ startsOf ranges :=
    fun r hr => hsweep.lo_mem_startsOf hproper hqueue.subset hr
  have hlength : (mergeOverlaps ranges).length ≤ 2 * ranges.length - 1 :=
    (hsweep.canonical.length_le hstarts).trans (length_startsOf_le hne)
  refine ⟨?_, hlength, fun r hr => ?_, fun s metric definition hs hbuild => ?_⟩
  · refine List.length_pos_iff.mpr (hsweep.ne_nil fun hnil => hne ?_)
    exact List.perm_nil.mp (hnil ▸ hqueue.symm)
  · have hmin := Range.isNumber_min (hsweep.canonical.proper r hr)
    obtain ⟨g, hg, hlo | ⟨hlo, -⟩⟩ := mem_startsOf.mp (hstarts r hr)
    · exact ⟨g, hg, .inl ((equals_iff_place hmin (Range.isNumber_min (hproper g hg))).mpr hlo)⟩
    · have hnudge := isNumber_nudgeUp (Range.isFinite_max (hproper g hg))
      exact ⟨g, hg, .inr ((equals_iff_place hmin hnudge).mpr hlo)⟩
  · obtain ⟨s', hrebuild, hmarkers⟩ := s.exists_rebuild_markersOf hs metric hbuild
    have htwo : (Marker.index (markersFor (mergeOverlaps ranges))).length =
        2 * (mergeOverlaps ranges).length := by
      rw [(Marker.index_perm _).length_eq, length_markersFor]
    have hgiven : ranges.length = definition.ranges.length := by
      rw [(ThresholdDefinition.build_eq_ok_iff.mp hbuild).2]
      exact (Ordered.sort_perm _ _).length_eq
    refine ⟨s', _, hrebuild, hmarkers, htwo, ?_⟩
    omega

/-- Four ranges, each within the next lower one. -/
def nested : ThresholdDefinition where
  critical := some (ofNat 30, ofNat 40)
  warning := some (ofNat 20, ofNat 50)
  info := some (ofNat 10, ofNat 60)
  ok := some (zero, ofNat 70)

/-- The four ranges in order. -/
def nestedRanges : List Range :=
  [⟨.ok, zero, ofNat 70⟩, ⟨.info, ofNat 10, ofNat 60⟩, ⟨.warning, ofNat 20, ofNat 50⟩,
    ⟨.critical, ofNat 30, ofNat 40⟩]

/-- Ranges within one another leave as many ranges as there can be. -/
theorem mergeOverlaps_nested_length :
    (∀ g ∈ nestedRanges, g.isProper = true) ∧ nestedRanges ≠ [] ∧
    nested.build = .ok nestedRanges ∧
    (mergeOverlaps nestedRanges).length = 2 * nestedRanges.length - 1 ∧
    (mergeOverlaps nestedRanges).length ≤ 2 * nestedRanges.length - 1 ∧
    ∃ s' markers, Store.empty.rebuild "cpu" nested = .ok (mergeOverlaps nestedRanges, s') ∧
      s'.markersOf "cpu" = .ok markers ∧
      markers.length = 2 * (mergeOverlaps nestedRanges).length ∧ markers.length ≤ 14 := by
  have hproper : ∀ g ∈ nestedRanges, g.isProper = true := by decide +kernel
  have hbuild : nested.build = .ok nestedRanges := by decide +kernel
  have hne : nestedRanges ≠ [] := List.cons_ne_nil _ _
  obtain ⟨-, hlength, -, hrebuild⟩ := mergeOverlaps_length_le hproper hne
  exact ⟨hproper, hne, hbuild, by decide +kernel, hlength,
    hrebuild Store.empty "cpu" nested rfl hbuild⟩

end StatusBoard
