import StatusBoard.Proofs.Threshold.Trace
import Mathlib.Data.Finset.Max

/-!
# Which status a value gets

The canonical set gives a value to the highest status of the ranges that contain it, save for
the values that a nudge skips, which lie just above or just below a range of a higher status.
Just below such a range a value is lost. Just above it a value may be lost too, but a range of
a still lower status may also keep it: a nudge down need not lead back to where the nudge up
came from.

## Main results

* `mergeOverlaps_statusAt` — the values of the canonical set and their statuses
* `mergeOverlaps_highest_or_justAbove` — where a value may get a lower status
* `precedence_fails_across_binades` — such a value
-/

namespace StatusBoard

open Binary64

variable {ranges : List Range} {v : Binary64} {s : Status} {r : Range}

theorem exists_highestAt (h : ∃ g ∈ ranges, g.contains v = true) : ∃ s, HighestAt ranges v s := by
  obtain ⟨g, hg, hin⟩ := h
  have hne : (ranges.filter (·.contains v)).toFinset.Nonempty :=
    ⟨g, List.mem_toFinset.mpr (List.mem_filter.mpr ⟨hg, hin⟩)⟩
  obtain ⟨top, htop, hmax⟩ := Finset.exists_max_image _ Range.status hne
  simp only [List.mem_toFinset, List.mem_filter] at htop hmax
  exact ⟨top.status, ⟨top, htop.1, htop.2, rfl⟩, fun r hr hrin => hmax r ⟨hr, hrin⟩⟩

/-- A canonical list has a value in one place only. -/
theorem Canonical.filter_contains_eq (h : Canonical ranges) (hv : v.IsNumber) (hr : r ∈ ranges)
    (hin : r.contains v = true) : ranges.filter (·.contains v) = [r] := by
  induction ranges with
  | nil => simp at hr
  | cons first ranges ih =>
    have hapart : ∀ s ∈ ranges, first.contains v = true → s.contains v = false := by
      intro s hs hfirst
      rw [Range.contains_iff_place h.head hv] at hfirst
      have := h.head_hi_lt hs
      rw [Bool.eq_false_iff, Ne, Range.contains_iff_place (h.tail.proper s hs) hv]
      omega
    rcases List.mem_cons.mp hr with rfl | hr
    · have hnone : ranges.filter (·.contains v) = [] :=
        List.filter_eq_nil_iff.mpr fun s hs => by simp [hapart s hs hin]
      rw [List.filter_cons, if_pos hin, hnone]
    · have hfirst : ¬ first.contains v = true := fun hfirst => by
        simp [hapart r hr hfirst] at hin
      rw [List.filter_cons, if_neg hfirst, ih h.tail hr]

theorem exists_given_of_mem_mergeOverlaps (hproper : ∀ g ∈ ranges, g.isProper = true)
    (hv : v.IsNumber) (hr : r ∈ mergeOverlaps ranges) : Within ranges v r :=
  (sweeps_mergeOverlaps hproper).within hproper (Ordered.sort_perm Range.le ranges).subset hv r hr

theorem pending_sort (hclear : Clear ranges v s) :
    Pending ranges v s (-infinityRank) (Ordered.sort Range.le ranges) :=
  .of_perm hclear (Ordered.sort_perm Range.le ranges)

/-- The number before four, where the spacing of the numbers doubles. -/
def belowFour : Binary64 :=
  match ofNat 4 with
  | number negative rank rank_le => number negative (rank - 1) ((Nat.sub_le _ _).trans rank_le)
  | nan negative => nan negative

/-- Three ranges, the lowest of which starts within a nudge above the highest. -/
def crossing : List Range :=
  [⟨.critical, zero, belowFour⟩, ⟨.warning, zero, ofNat 10⟩, ⟨.info, ofNat 4, ofNat 10⟩]

/-- The canonical set has only values of the given ranges. It has a value in exactly one range,
with the highest status of the given ranges that contain the value, unless the value is just
above or just below a given range of a higher status. -/
theorem mergeOverlaps_statusAt (hproper : ∀ g ∈ ranges, g.isProper = true)
    (hv : v.isFinite = true) :
    ((∀ g ∈ ranges, g.contains v = false) → ∀ r ∈ mergeOverlaps ranges, r.contains v = false) ∧
    ∀ s, HighestAt ranges v s →
      (∀ g ∈ ranges, s < g.status → ¬ g.JustAbove v ∧ ¬ g.JustBelow v) →
      ∃ r, (mergeOverlaps ranges).filter (·.contains v) = [r] ∧ r.status = s := by
  have hnumber := isNumber_of_isFinite hv
  refine ⟨fun hnone r hr => ?_, fun s hs hbeside => ?_⟩
  · rw [Bool.eq_false_iff]
    intro hin
    obtain ⟨g, hg, -, hgin⟩ := exists_given_of_mem_mergeOverlaps hproper hnumber hr hin
    simp [hnone g hg] at hgin
  · have hclear : Clear ranges v s :=
      ⟨hproper, hnumber, hs, fun g hg hlt => (hbeside g hg hlt).1⟩
    have hsweep := sweeps_mergeOverlaps hproper
    obtain ⟨r, hr, hin⟩ := hsweep.exists_contains hclear
      (fun g hg hlt => (hbeside g hg hlt).2) (pending_sort hclear)
      (isFinite_iff_place.mp hv).2.1.le
    exact ⟨r, hsweep.canonical.filter_contains_eq hnumber hr hin,
      hsweep.status_eq hclear (pending_sort hclear) r hr hin⟩

theorem mergeOverlaps_crossing_statusAt_five :
    (∀ g ∈ crossing, g.isProper = true) ∧ (ofNat 5).isFinite = true ∧
    HighestAt crossing (ofNat 5) .warning ∧
    (∀ g ∈ crossing, Status.warning < g.status →
      ¬ g.JustAbove (ofNat 5) ∧ ¬ g.JustBelow (ofNat 5)) ∧
    ∃ r, (mergeOverlaps crossing).filter (·.contains (ofNat 5)) = [r] ∧ r.status = .warning := by
  have hproper : ∀ g ∈ crossing, g.isProper = true := by decide +kernel
  have hfinite : (ofNat 5).isFinite = true := by decide +kernel
  have hhighest : HighestAt crossing (ofNat 5) .warning :=
    ⟨by decide +kernel, by decide +kernel⟩
  have hbeside : ∀ g ∈ crossing, Status.warning < g.status →
      ¬ g.JustAbove (ofNat 5) ∧ ¬ g.JustBelow (ofNat 5) := by decide +kernel
  exact ⟨hproper, hfinite, hhighest, hbeside,
    (mergeOverlaps_statusAt hproper hfinite).2 .warning hhighest hbeside⟩

/-- A range of the canonical set has each of its values with the highest status of the given
ranges that contain the value, or the value is just above a given range of a status higher
still. -/
theorem mergeOverlaps_highest_or_justAbove (hproper : ∀ g ∈ ranges, g.isProper = true)
    (hv : v.isFinite = true) (hr : r ∈ mergeOverlaps ranges) (hin : r.contains v = true) :
    ∃ s, HighestAt ranges v s ∧
      (r.status = s ∨ r.status < s ∧ ∃ g ∈ ranges, s < g.status ∧ g.JustAbove v) := by
  have hnumber := isNumber_of_isFinite hv
  obtain ⟨g, hg, hstatus, hgin⟩ := exists_given_of_mem_mergeOverlaps hproper hnumber hr hin
  obtain ⟨s, hs⟩ := exists_highestAt ⟨g, hg, hgin⟩
  refine ⟨s, hs, or_iff_not_imp_left.mpr fun hne => ⟨?_, ?_⟩⟩
  · exact lt_of_le_of_ne (hstatus ▸ hs.highest g hg hgin) hne
  · by_contra hnone
    have hclear : Clear ranges v s :=
      ⟨hproper, hnumber, hs, fun g hg hlt habove => hnone ⟨g, hg, hlt, habove⟩⟩
    exact hne ((sweeps_mergeOverlaps hproper).status_eq hclear (pending_sort hclear) r hr hin)

theorem info_mem_mergeOverlaps_crossing :
    ⟨.info, ofNat 4, ofNat 4⟩ ∈ mergeOverlaps crossing := by decide +kernel

theorem mergeOverlaps_crossing_justAbove :
    (∀ g ∈ crossing, g.isProper = true) ∧ (ofNat 4).isFinite = true ∧
    ⟨.info, ofNat 4, ofNat 4⟩ ∈ mergeOverlaps crossing ∧
    (⟨.info, ofNat 4, ofNat 4⟩ : Range).contains (ofNat 4) = true ∧
    ∃ s, HighestAt crossing (ofNat 4) s ∧ (Status.info = s ∨
      Status.info < s ∧ ∃ g ∈ crossing, s < g.status ∧ g.JustAbove (ofNat 4)) := by
  have hproper : ∀ g ∈ crossing, g.isProper = true := by decide +kernel
  have hfinite : (ofNat 4).isFinite = true := by decide +kernel
  have hmem := info_mem_mergeOverlaps_crossing
  have hin : (⟨.info, ofNat 4, ofNat 4⟩ : Range).contains (ofNat 4) = true := by decide +kernel
  exact ⟨hproper, hfinite, hmem, hin, mergeOverlaps_highest_or_justAbove hproper hfinite hmem hin⟩

/-- The nudge up from the number before four leads to the second number after four, and the
nudge down from there to four: so four is left to the lowest of three ranges. -/
theorem precedence_fails_across_binades :
    (∀ g ∈ crossing, g.isProper = true) ∧ (ofNat 4).isFinite = true ∧
    ∃ r ∈ mergeOverlaps crossing, r.contains (ofNat 4) = true ∧
      HighestAt crossing (ofNat 4) .warning ∧ r.status = .info :=
  ⟨by decide +kernel, by decide +kernel, ⟨.info, ofNat 4, ofNat 4⟩,
    info_mem_mergeOverlaps_crossing, by decide +kernel, ⟨by decide +kernel, by decide +kernel⟩,
    rfl⟩

end StatusBoard
