import StatusBoard.Proofs.Threshold.Nearest
import Mathlib.Data.List.Forall2
import Mathlib.Data.List.Pairwise
import Mathlib.Data.List.Nodup

/-!
# The order of the given ranges

The queue is sorted by bounds only, so ranges with the same bounds and different statuses wait
in the order in which they were given. The canonical set of the same ranges in another order
has the same status at every value that is not just above a higher range, since what it keeps
there is read off the given ranges. Just above a higher range it may differ. It is the same
list, up to the sign of zeros, if no given bound lies just above a given range.

## Main definitions

* `Range.Agrees` — ranges with one status and numerically equal bounds
* `Spaced` — ranges none of which has a bound just above another one

## Main results

* `Canonical.forall₂_agrees` — a canonical list is determined by what it covers
* `mergeOverlaps_perm` — where the order of the given ranges does not matter
* `order_matters_across_binades` — where it does
-/

namespace StatusBoard

open Binary64

/-- The ranges have the same status and numerically equal bounds. -/
def Range.Agrees (r r' : Range) : Prop :=
  r.status = r'.status ∧ r.min.equals r'.min = true ∧ r.max.equals r'.max = true

/-- The status and the places of the bounds of a range. -/
def Range.extent (r : Range) : Status × Int × Int := (r.status, r.lo, r.hi)

theorem Range.agrees_of_extent_eq {r r' : Range} (hr : r.isProper = true)
    (hr' : r'.isProper = true) (h : r.extent = r'.extent) : r.Agrees r' := by
  obtain ⟨hstatus, hlo, hhi⟩ : r.status = r'.status ∧ r.lo = r'.lo ∧ r.hi = r'.hi := by
    simpa [extent] using h
  refine ⟨hstatus, ?_, ?_⟩
  · exact (equals_iff_place (isNumber_min hr) (isNumber_min hr')).mpr hlo
  · exact (equals_iff_place (isNumber_max hr) (isNumber_max hr')).mpr hhi

/-- No bound of a range of the list lies just above a range of it. -/
def Spaced (ranges : List Range) : Prop :=
  ∀ g ∈ ranges, ∀ k ∈ ranges, ¬ g.JustAbove k.min ∧ ¬ g.JustAbove k.max

instance (ranges : List Range) : Decidable (Spaced ranges) :=
  inferInstanceAs (Decidable (∀ g ∈ ranges, ∀ k ∈ ranges, _ ∧ _))

/-! ### Canonical lists that cover the same -/

namespace Canonical

variable {ranges ranges' : List Range} {r q : Range} {x : Int}

/-- Ranges of a canonical list that share a place are the same. -/
theorem eq_of_meet (h : Canonical ranges) (hr : r ∈ ranges) (hq : q ∈ ranges)
    (hrx : r.lo ≤ x ∧ x ≤ r.hi) (hqx : q.lo ≤ x ∧ x ≤ q.hi) : r = q := by
  by_contra hne
  have hsymm : Std.Symm fun r q : Range => r.hi < q.lo ∨ q.hi < r.lo := ⟨fun _ _ => Or.symm⟩
  have hapart : ranges.Pairwise fun r q => r.hi < q.lo ∨ q.hi < r.lo := h.apart.imp .inl
  have := hapart.forall hr hq hne
  omega

/-- Each range of a canonical list is a range of any canonical list that covers the same. -/
theorem extent_mem_of_covered_iff (h : Canonical ranges) (h' : Canonical ranges')
    (hsame : ∀ s x y, x ≤ y → y ≤ x + 1 → (Covered ranges s x y ↔ Covered ranges' s x y))
    (hr : r ∈ ranges) : r.extent ∈ ranges'.map Range.extent := by
  have hproper := Range.lo_le_hi (h.proper r hr)
  obtain ⟨q, hq, hstatus, hlo, hhi⟩ :=
    (hsame r.status r.lo r.lo le_rfl (by omega)).mp ⟨r, hr, rfl, le_rfl, hproper⟩
  -- If one range went on where the other ends, two places would be together in one list only.
  have hstart : q.lo = r.lo := by
    apply le_antisymm hlo
    by_contra hlt
    obtain ⟨p, hp, -, hplo, hphi⟩ := (hsame q.status (r.lo - 1) r.lo (by omega) (by omega)).mpr
      ⟨q, hq, rfl, by omega, hhi⟩
    obtain rfl := h.eq_of_meet (x := r.lo) hp hr ⟨by omega, hphi⟩ ⟨le_rfl, hproper⟩
    omega
  have hend : q.hi = r.hi := by
    apply le_antisymm
    · by_contra hlt
      obtain ⟨p, hp, -, hplo, hphi⟩ := (hsame q.status r.hi (r.hi + 1) (by omega) le_rfl).mpr
        ⟨q, hq, rfl, by omega, by omega⟩
      obtain rfl := h.eq_of_meet (x := r.hi) hp hr ⟨hplo, by omega⟩ ⟨hproper, le_rfl⟩
      omega
    · by_contra hlt
      obtain ⟨p, hp, -, hplo, hphi⟩ := (hsame r.status q.hi (q.hi + 1) (by omega) le_rfl).mp
        ⟨r, hr, rfl, by omega, by omega⟩
      obtain rfl := h'.eq_of_meet (x := q.hi) hp hq ⟨hplo, by omega⟩ ⟨by omega, le_rfl⟩
      omega
  exact List.mem_map.mpr ⟨q, hq, by rw [Range.extent, hstatus, hstart, hend]; rfl⟩

theorem pairwise_extent (h : Canonical ranges) :
    (ranges.map Range.extent).Pairwise fun a b => a.2.1 < b.2.1 :=
  List.pairwise_map.mpr h.pairwise_lo

theorem nodup_extent (h : Canonical ranges) : (ranges.map Range.extent).Nodup := by
  apply h.pairwise_extent.imp
  rintro a b hlt rfl
  exact lt_irrefl _ hlt

/-- A canonical list is determined by what its statuses cover. -/
theorem forall₂_agrees (h : Canonical ranges) (h' : Canonical ranges')
    (hsame : ∀ s x y, x ≤ y → y ≤ x + 1 → (Covered ranges s x y ↔ Covered ranges' s x y)) :
    List.Forall₂ Range.Agrees ranges ranges' := by
  have hmem : ∀ k, k ∈ ranges.map Range.extent ↔ k ∈ ranges'.map Range.extent := by
    intro k
    constructor
    · intro hk
      obtain ⟨r, hr, rfl⟩ := List.mem_map.mp hk
      exact h.extent_mem_of_covered_iff h' hsame hr
    · intro hk
      obtain ⟨r, hr, rfl⟩ := List.mem_map.mp hk
      exact h'.extent_mem_of_covered_iff h (fun s x y hle hnear => (hsame s x y hle hnear).symm) hr
  -- Both lists of extents are in strict order, so they are the same if their members are.
  have heq : ranges.map Range.extent = ranges'.map Range.extent := by
    apply List.Perm.eq_of_pairwise ?_ h.pairwise_extent h'.pairwise_extent
    · exact (List.perm_ext_iff_of_nodup h.nodup_extent h'.nodup_extent).mpr hmem
    · exact fun a b _ _ hab hba => absurd hab (lt_asymm hba)
  rw [← List.forall₂_eq_eq_eq, List.forall₂_map_left_iff, List.forall₂_map_right_iff] at heq
  rw [List.forall₂_iff_zip] at heq ⊢
  refine ⟨heq.1, fun {r q} hzip => ?_⟩
  obtain ⟨hr, hq⟩ := List.of_mem_zip hzip
  exact Range.agrees_of_extent_eq (h.proper r hr) (h'.proper q hq) (heq.2 hzip)

end Canonical

/-! ### Spaced ranges -/

namespace Spaced

variable {given : List Range} {v : Binary64} {g k r : Range}

theorem nudgeUp_le_lo (h : Spaced given) (hproper : ∀ g ∈ given, g.isProper = true)
    (hg : g ∈ given) (hk : k ∈ given) (hlt : g.hi < k.lo) : (nudgeUp g.max).place ≤ k.lo := by
  by_contra hbefore
  apply (h g hg k hk).1
  rw [Range.justAbove_iff_place (hproper g hg) (Range.isNumber_min (hproper k hk))]
  exact ⟨hlt, not_le.mp hbefore⟩

theorem nudgeUp_le_hi (h : Spaced given) (hproper : ∀ g ∈ given, g.isProper = true)
    (hg : g ∈ given) (hk : k ∈ given) (hlt : g.hi < k.hi) : (nudgeUp g.max).place ≤ k.hi := by
  by_contra hbefore
  apply (h g hg k hk).2
  rw [Range.justAbove_iff_place (hproper g hg) (Range.isNumber_max (hproper k hk))]
  exact ⟨hlt, not_le.mp hbefore⟩

/-- The end of a given range is clear. -/
theorem clear_max (h : Spaced given) (hproper : ∀ g ∈ given, g.isProper = true) (hg : g ∈ given)
    {s : Status} (hs : HighestAt given g.max s) : Clear given g.max s :=
  ⟨hproper, Range.isNumber_max (hproper g hg), hs, fun k hk _ => (h k hk g hg).2⟩

/-- Neither a given bound nor a nudged one lies between the end of a given range and a value
just above it, so a range that starts at such a bound and has the value has that end as well. -/
theorem lo_le_hi_of_justAbove (h : Spaced given) (hproper : ∀ g ∈ given, g.isProper = true)
    (hg : g ∈ given) (hv : v.IsNumber) (habove : g.JustAbove v) (hlo : r.lo ≤ v.place)
    (hstart : ∃ k ∈ given, r.lo = k.lo ∨ r.lo = (nudgeUp k.max).place) : r.lo ≤ g.hi := by
  have hbefore := ((Range.justAbove_iff_place (hproper g hg) hv).mp habove).2
  by_contra hlater
  obtain ⟨k, hk, hstart | hstart⟩ := hstart
  · have := h.nudgeUp_le_lo hproper hg hk (by omega)
    omega
  · have hnudge : k.hi < (nudgeUp k.max).place :=
      place_lt_nudgeUp (Range.isFinite_max (hproper k hk))
    rcases lt_trichotomy k.hi g.hi with hkg | hkg | hkg
    · have := h.nudgeUp_le_hi hproper hk hg hkg
      omega
    · have hsame := nudgeUp_congr (Range.isFinite_max (hproper k hk))
        (Range.isFinite_max (hproper g hg)) hkg
      rw [hsame] at hstart
      omega
    · have := h.nudgeUp_le_hi hproper hg hk hkg
      omega

end Spaced

/-! ### The same ranges in another order -/

section Orders

variable {given ranges ranges' : List Range} {v : Binary64} {s : Status} {r : Range} {x y : Int}

/-- If the given ranges are spaced, then a range of the result has none but clear values. -/
theorem clear_of_mem_mergeOverlaps (hproper : ∀ g ∈ given, g.isProper = true)
    (hspaced : Spaced given) (hperm : ranges.Perm given) (hv : v.IsNumber)
    (hr : r ∈ mergeOverlaps ranges) (hin : r.contains v = true) : Clear given v r.status := by
  have hsweep := sweeps_mergeOverlaps fun g hg => hproper g (hperm.mem_iff.mp hg)
  have hqueue := (Ordered.sort_perm Range.le ranges).trans hperm
  have hrproper := hsweep.canonical.proper r hr
  obtain ⟨hlo, hhi⟩ := (Range.contains_iff_place hrproper hv).mp hin
  have hbeside : ∀ g ∈ given, r.status < g.status → ¬ g.JustAbove v := by
    intro g hg hlt habove
    have hgmax := Range.contains_max (hproper g hg)
    have hnumber := Range.isNumber_max (hproper g hg)
    -- The range also has the end of the higher one, but not the status that is highest there.
    obtain ⟨t, ht⟩ := exists_highestAt ⟨g, hg, hgmax⟩
    have hclear := hspaced.clear_max hproper hg ht
    have hstart := hspaced.lo_le_hi_of_justAbove hproper hg hv habove hlo
      (hsweep.exists_start hproper hqueue.subset hr)
    have hend : g.hi < v.place :=
      ((Range.justAbove_iff_place (hproper g hg) hv).mp habove).1
    have hboth : r.contains g.max = true :=
      (Range.contains_iff_place hrproper hnumber).mpr ⟨hstart, (hend.trans_le hhi).le⟩
    have htop := hsweep.status_eq hclear (.of_perm hclear hqueue) r hr hboth
    exact not_le.mpr hlt (htop ▸ ht.highest g hg hgmax)
  -- Without a higher range just below, the status is the highest at the value itself.
  obtain ⟨g, hg, hstatus, hgin⟩ := hsweep.within hproper hqueue.subset hv r hr hin
  obtain ⟨s, hs⟩ := exists_highestAt ⟨g, hg, hgin⟩
  have hle : r.status ≤ s := hstatus ▸ hs.highest g hg hgin
  have hclear : Clear given v s :=
    ⟨hproper, hv, hs, fun g hg hlt => hbeside g hg (hle.trans_lt hlt)⟩
  have heq := hsweep.status_eq hclear (.of_perm hclear hqueue) r hr hin
  rwa [heq]

theorem exists_place_eq (hlow : -(infinityRank : Int) ≤ x) (hhigh : x ≤ infinityRank) :
    ∃ v : Binary64, v.IsNumber ∧ v.place = x := by
  refine ⟨number (decide (x < 0)) x.natAbs (by omega), isNumber_number _ _ _, ?_⟩
  rw [place_number]
  split_ifs with h <;> simp at h <;> omega

/-- What the canonical set of spaced ranges covers does not depend on their order. -/
theorem Covered.of_perm (hproper : ∀ g ∈ given, g.isProper = true) (hspaced : Spaced given)
    (hperm : ranges.Perm given) (hperm' : ranges'.Perm given) (hle : x ≤ y) (hnear : y ≤ x + 1)
    (h : Covered (mergeOverlaps ranges) s x y) : Covered (mergeOverlaps ranges') s x y := by
  have hsweep := sweeps_mergeOverlaps fun g hg => hproper g (hperm.mem_iff.mp hg)
  have hqueue := (Ordered.sort_perm Range.le ranges).trans hperm
  have hgiven := hsweep.covered_given hqueue.subset hnear h
  obtain ⟨r, hr, hstatus, hlo, hhi⟩ := h
  have hrproper := hsweep.canonical.proper r hr
  -- There is a number at the first of the two places, and it is clear.
  have hlow : -(infinityRank : Int) < r.lo :=
    (isFinite_iff_place.mp (Range.isFinite_min hrproper)).2.1
  have hhigh : r.hi < infinityRank := (isFinite_iff_place.mp (Range.isFinite_max hrproper)).2.2
  obtain ⟨v, hv, rfl⟩ := exists_place_eq (x := x) (by omega) (by omega)
  have hin : r.contains v = true :=
    (Range.contains_iff_place hrproper hv).mpr ⟨hlo, hle.trans hhi⟩
  have hclear : Clear given v s :=
    hstatus ▸ clear_of_mem_mergeOverlaps hproper hspaced hperm hv hr hin
  have hkept := (mergeOverlaps_covered_iff hperm hclear hle hnear hgiven).mp
    ⟨r, hr, hstatus, hlo, hhi⟩
  exact (mergeOverlaps_covered_iff hperm' hclear hle hnear hgiven).mpr hkept

/-- The canonical set has a clear value with its highest status, unless that gives way. -/
theorem statuses_mergeOverlaps (hperm : ranges.Perm given) (hclear : Clear given v s) :
    (Yields given v s v.place → (mergeOverlaps ranges).filter (·.contains v) = []) ∧
    (¬ Yields given v s v.place →
      ((mergeOverlaps ranges).filter (·.contains v)).map Range.status = [s]) := by
  have hv := hclear.isNumber
  have hsweep := sweeps_mergeOverlaps fun g hg => hclear.proper g (hperm.mem_iff.mp hg)
  have hqueue := (Ordered.sort_perm Range.le ranges).trans hperm
  obtain ⟨g, hg, hin, hstatus⟩ := hclear.highestAt.attained
  have hgiven : Covered given s v.place v.place :=
    (Covered.iff_contains hclear.proper hv).mpr ⟨g, hg, hstatus, hin⟩
  have hkept := mergeOverlaps_covered_iff hperm hclear le_rfl (by omega) hgiven
  rw [Covered.iff_contains hsweep.canonical.proper hv] at hkept
  constructor
  · intro hyields
    refine List.filter_eq_nil_iff.mpr fun r hr hrin => ?_
    have hrstatus := hsweep.status_eq hclear (.of_perm hclear hqueue) r hr hrin
    exact hkept.mp ⟨r, hr, hrstatus, hrin⟩ hyields
  · intro hyields
    obtain ⟨r, hr, hrstatus, hrin⟩ := hkept.mpr hyields
    rw [hsweep.canonical.filter_contains_eq hv hr hrin, List.map_singleton, hrstatus]

/-- The canonical set of the same ranges in another order has the same status at every value
that is not just above a range of a higher status. If no bound lies just above a range, it is
the same list with numerically equal bounds. -/
theorem mergeOverlaps_perm (hproper : ∀ r ∈ ranges, r.isProper = true)
    (hperm : ranges.Perm ranges') :
    (∀ v : Binary64, v.isFinite = true →
      (∀ s, HighestAt ranges v s → ∀ g ∈ ranges, s < g.status → ¬ g.JustAbove v) →
      ((mergeOverlaps ranges).filter (·.contains v)).map Range.status =
        ((mergeOverlaps ranges').filter (·.contains v)).map Range.status) ∧
    (Spaced ranges → List.Forall₂ Range.Agrees (mergeOverlaps ranges) (mergeOverlaps ranges')) := by
  have hproper' : ∀ r ∈ ranges', r.isProper = true := fun r hr =>
    hproper r (hperm.mem_iff.mpr hr)
  constructor
  · intro v hfinite hbeside
    have hv := isNumber_of_isFinite hfinite
    by_cases hnone : ∃ g ∈ ranges, g.contains v = true
    · obtain ⟨s, hs⟩ := exists_highestAt hnone
      have hclear : Clear ranges v s := ⟨hproper, hv, hs, hbeside s hs⟩
      have hstatuses := statuses_mergeOverlaps (.refl ranges) hclear
      have hstatuses' := statuses_mergeOverlaps hperm.symm hclear
      by_cases hyields : Yields ranges v s v.place
      · rw [hstatuses.1 hyields, hstatuses'.1 hyields]
      · rw [hstatuses.2 hyields, hstatuses'.2 hyields]
    · -- What no given range has is in neither result.
      have hempty : (mergeOverlaps ranges).filter (·.contains v) = [] := by
        refine List.filter_eq_nil_iff.mpr fun r hr hin => ?_
        obtain ⟨g, hg, -, hgin⟩ := exists_given_of_mem_mergeOverlaps hproper hv hr hin
        exact hnone ⟨g, hg, hgin⟩
      have hempty' : (mergeOverlaps ranges').filter (·.contains v) = [] := by
        refine List.filter_eq_nil_iff.mpr fun r hr hin => ?_
        obtain ⟨g, hg, -, hgin⟩ := exists_given_of_mem_mergeOverlaps hproper' hv hr hin
        exact hnone ⟨g, hperm.mem_iff.mpr hg, hgin⟩
      rw [hempty, hempty']
  · intro hspaced
    apply (canonical_mergeOverlaps hproper).forall₂_agrees (canonical_mergeOverlaps hproper')
    intro s x y hle hnear
    exact ⟨.of_perm hproper hspaced (.refl ranges) hperm.symm hle hnear,
      .of_perm hproper hspaced hperm.symm (.refl ranges) hle hnear⟩

end Orders

/-- Two ranges with the same bounds, and one of a higher status within them. -/
def ties : List Range :=
  [⟨.ok, ofNat 1, ofNat 10⟩, ⟨.warning, ofNat 1, ofNat 10⟩, ⟨.critical, ofNat 4, ofNat 5⟩]

theorem mergeOverlaps_ties_reverse :
    (∀ r ∈ ties, r.isProper = true) ∧ ties.Perm ties.reverse ∧ (ofNat 2).isFinite = true ∧
    (∀ s, HighestAt ties (ofNat 2) s → ∀ g ∈ ties, s < g.status → ¬ g.JustAbove (ofNat 2)) ∧
    Spaced ties ∧
    ((mergeOverlaps ties).filter (·.contains (ofNat 2))).map Range.status =
      ((mergeOverlaps ties.reverse).filter (·.contains (ofNat 2))).map Range.status ∧
    List.Forall₂ Range.Agrees (mergeOverlaps ties) (mergeOverlaps ties.reverse) := by
  have hproper : ∀ r ∈ ties, r.isProper = true := by decide +kernel
  have hperm : ties.Perm ties.reverse := (List.reverse_perm ties).symm
  have hfinite : (ofNat 2).isFinite = true := by decide +kernel
  have hbeside : ∀ g ∈ ties, ¬ g.JustAbove (ofNat 2) := by decide +kernel
  have hspaced : Spaced ties := by decide +kernel
  have hresult := mergeOverlaps_perm hproper hperm
  exact ⟨hproper, hperm, hfinite, fun _ _ g hg _ => hbeside g hg, hspaced,
    hresult.1 (ofNat 2) hfinite fun _ _ g hg _ => hbeside g hg, hresult.2 hspaced⟩

/-- The second number before four; the spacing of the numbers there is `2 ^ (-51)`. -/
def secondBelowFour : Binary64 := (ofNat 4).sub (one.div (ofNat (2 ^ 50)))

/-- Two ranges with the same bounds, and two higher ones that end just before four. -/
def tiesAcrossFour : List Range :=
  [⟨.ok, ofNat 1, ofNat 10⟩, ⟨.warning, ofNat 1, ofNat 10⟩, ⟨.info, zero, secondBelowFour⟩,
    ⟨.critical, ofNat 2, belowFour⟩]

/-- If the lowest range comes before the one with the same bounds, it is cut by the range that
starts at zero, and starts at four from then on. The other one is cut beyond four later, so four
is left to the lowest range. If it comes after the other one, that one takes it over. -/
theorem order_matters_across_binades :
    (∀ r ∈ tiesAcrossFour, r.isProper = true) ∧ tiesAcrossFour.Perm tiesAcrossFour.reverse ∧
    ⟨.ok, ofNat 4, ofNat 4⟩ ∈ mergeOverlaps tiesAcrossFour ∧
    (∀ r ∈ mergeOverlaps tiesAcrossFour.reverse, r.contains (ofNat 4) = false) ∧
    ¬ List.Forall₂ Range.Agrees (mergeOverlaps tiesAcrossFour)
      (mergeOverlaps tiesAcrossFour.reverse) := by
  refine ⟨by decide +kernel, (List.reverse_perm tiesAcrossFour).symm, by decide +kernel,
    by decide +kernel, fun h => ?_⟩
  have hlength := h.length_eq
  revert hlength
  decide +kernel

end StatusBoard
