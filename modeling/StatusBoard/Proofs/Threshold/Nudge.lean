import StatusBoard.Proofs.Threshold.Search

/-!
# How far a nudge goes

The step that is taken is about ten times one that changes nothing, and that one is at most half
a gap wide. So the step is at most five gaps wide, and a nudge passes less than ten numbers.

## Main results

* `magnitude_smallestStep_le` — the width of the smallest step
* `place_nudgeUp_le`, `le_place_nudgeDown` — how many places a nudge goes
* `smallestStep_and_nudges` — the account of the smallest step and of both nudges
-/

namespace StatusBoard

open Binary64

variable {v step : Binary64} {d : Direction} {k : Nat}

/-! ### Neighbouring steps -/

theorem IsStep.eq_zero (h : IsStep step) (hplace : step.place ≤ 0) : step = zero := by
  obtain ⟨rank, hrank, rfl⟩ := h
  rw [place_positive] at hplace
  obtain rfl : rank = 0 := by omega
  rfl

/-- What is at most half a power of two is at most five times that power when it is multiplied by
ten, since that is a magnitude. -/
theorem magnitude_mul_ten_le (h : IsStep step) (hfinite : step.isFinite = true)
    (hk : 2 * step.magnitude ≤ 2 ^ k) : (step.mul ten).magnitude ≤ 5 * 2 ^ k := by
  obtain ⟨rank, hrank, rfl⟩ := h
  rw [mul_ten_number hrank (of_decide_eq_true hfinite).ne]
  obtain ⟨bound, hbound⟩ := exists_unitsOfRank_eq (show 5 < 2 * binadeSize by decide) k
  have hround : nearestRank (unitsOfRank rank * (10 * unitsPerOne)) unitsPerOne ≤ bound := by
    refine nearestRank_le unitsPerOne_pos ?_
    rw [← Nat.mul_assoc, hbound]
    refine Nat.mul_le_mul_right _ ?_
    rw [magnitude] at hk
    omega
  rw [← hbound]
  exact (magnitude_ofRatio_le ..).trans (unitsOfRank_strictMono.monotone hround)

/-- What is at most half a power of two after a division by ten was at most five times that power,
unless it has been rounded down to the half. -/
theorem magnitude_le_of_div_ten (h : IsStep step) (hfinite : step.isFinite = true)
    (hk : 2 * (step.div ten).magnitude ≤ 2 ^ k)
    (hhalf : (step.div ten).magnitude.isPowerOfTwo →
      step.magnitude ≤ 10 * (step.div ten).magnitude) : step.magnitude ≤ 5 * 2 ^ k := by
  have hquotient := h.div_ten.isFinite_of_place_le (place_div_ten_le h) hfinite
  obtain ⟨rank, hrank, rfl⟩ := h
  rw [div_ten_number hrank (of_decide_eq_true hfinite).ne] at hquotient hk hhalf
  rw [magnitude_ofRatio hquotient] at hk hhalf
  rw [magnitude] at hhalf ⊢
  have hten : 0 < 10 * unitsPerOne := Nat.mul_pos (by decide) unitsPerOne_pos
  cases k with
  | zero =>
    -- The quotient is rounded to zero.
    have hround : nearestRank (unitsOfRank rank * unitsPerOne) (10 * unitsPerOne) ≤ 0 := by
      by_contra hpos
      have := unitsOfRank_pos (Nat.not_le.mp hpos)
      omega
    rw [nearestRank_le_iff hten] at hround
    have hmiddle : doubledMiddle 0 = 1 := by decide
    rw [hmiddle] at hround
    refine Nat.le_of_mul_le_mul_right ?_ unitsPerOne_pos
    omega
  | succ j =>
    -- A quotient above the half is rounded to the half at least, and so to the half itself.
    by_contra hlt
    obtain ⟨half, hhalfUnits⟩ := exists_unitsOfRank_eq (show 1 < 2 * binadeSize by decide) j
    have hround : half ≤ nearestRank (unitsOfRank rank * unitsPerOne) (10 * unitsPerOne) := by
      refine le_nearestRank hten ?_
      rw [← Nat.mul_assoc, hhalfUnits]
      refine Nat.mul_le_mul_right _ ?_
      rw [Nat.pow_succ] at hlt
      omega
    have hle := unitsOfRank_strictMono.monotone hround
    rw [hhalfUnits] at hle
    rw [Nat.pow_succ] at hk hlt
    have := hhalf ⟨j, by omega⟩
    omega

theorem magnitude_finerStep_le (n : Nat) (h : (finerStep (n + 1)).magnitude.isPowerOfTwo) :
    (finerStep n).magnitude ≤ 10 * (finerStep (n + 1)).magnitude := by
  rcases Nat.lt_or_ge (n + 1) 340 with hlisted | hbeyond
  · have hchain := finerSteps_isChain.1
    rw [finerSteps_eq] at hchain
    have hnext := List.isChain_iff_getElem.mp hchain n (by simpa using hlisted)
    rw [List.getElem_map, List.getElem_map, List.getElem_range, List.getElem_range] at hnext
    exact hnext h
  · -- Beyond the listed steps there are zeros only.
    have hplace := place_finerStep_anti (show 339 ≤ n + 1 by omega)
    rw [finerStep_end] at hplace
    rw [(isStep_finerStep (n + 1)).eq_zero hplace] at h
    exact absurd h (by decide)

/-- Next to the step that is taken is one that changes nothing, and the two are about tenfold
apart. -/
theorem Direction.Takes.exists_not_changes (h : d.Takes v step) (hv : v.isFinite = true) :
    ∃ smaller, IsStep smaller ∧ d.changes v smaller = false ∧
      ∀ k, 2 * smaller.magnitude ≤ 2 ^ k → step.magnitude ≤ 5 * 2 ^ k := by
  cases h with
  | @finer n hrun hstop =>
    refine ⟨_, isStep_finerStep (n + 1), hstop, fun k hk => ?_⟩
    have hfinite : (finerStep n).isFinite = true :=
      (isStep_finerStep n).isFinite_of_place_le (place_finerStep_le n) (by decide +kernel)
    have hhalf := magnitude_finerStep_le n
    rw [finerStep_succ] at hk hhalf
    exact magnitude_le_of_div_ten (isStep_finerStep n) hfinite hk hhalf
  | @coarser n hrun hstop =>
    refine ⟨_, isStep_coarserStep n, hrun n (Nat.le_refl n), fun k hk => ?_⟩
    have hfinite := d.isFinite_of_not_changes hv (isStep_coarserStep n) (hrun n (Nat.le_refl n))
    rw [coarserStep_succ]
    exact magnitude_mul_ten_le (isStep_coarserStep n) hfinite hk

/-! ### The width of a step -/

/-- The smallest step is at most five gaps wide. -/
theorem magnitude_smallestStep_le (hv : v.isFinite = true) (d : Direction) :
    (smallestStep v d).magnitude ≤ 5 * gapAbove (d.mirror v).place := by
  obtain ⟨smaller, hsmaller, hsame, hreach⟩ := (takes_smallestStep hv d).exists_not_changes hv
  exact hreach _ (Direction.two_mul_magnitude_le_of_not_changes hv hsmaller hsame)

theorem isFinite_smallestStep (hv : v.isFinite = true) (d : Direction) :
    (smallestStep v d).isFinite = true := by
  have hwidth := magnitude_smallestStep_le hv d
  have hgap := binadeSize_mul_gapAbove_le (natAbs_place_lt (d.isFinite_mirror hv))
  obtain ⟨rank, hrank, hstep⟩ := (takes_smallestStep hv d).isStep
  rw [hstep] at hwidth ⊢
  refine decide_eq_true (hrank.lt_of_ne fun hinfinite => ?_)
  rw [magnitude, hinfinite] at hwidth
  have hpos : 0 < gapAbove (d.mirror v).place := Nat.two_pow_pos _
  rw [binadeSize_eq] at hgap
  omega

theorem zero_below_smallestStep (hv : v.isFinite = true) (d : Direction) :
    zero.below (smallestStep v d) = true := by
  have htakes := takes_smallestStep hv d
  have hzero : zero.IsNumber := isNumber_number ..
  rw [below_iff_place hzero (isNumber_of_isFinite (isFinite_smallestStep hv d))]
  by_contra hle
  have hchanges := htakes.changes
  rw [htakes.isStep.eq_zero (Int.not_lt.mp hle), d.not_changes_zero hv] at hchanges
  exact Bool.false_ne_true hchanges

/-! ### The places a nudge goes -/

/-- A step of at most five gaps goes at most nine places, for the gaps after the first may be half
as wide. -/
theorem Direction.place_move_up_le (hv : v.isFinite = true) (hstep : IsStep step)
    (hfinite : step.isFinite = true) (hwidth : step.magnitude ≤ 5 * gapAbove v.place) :
    (up.move v step).place ≤ v.place + 9 := by
  obtain ⟨s, hmove⟩ := exists_move_up_eq hv hstep hfinite
  have hplace := isFinite_iff_place.mp hv
  have hgaps := le_unitsAt_add v.place (show 8 ≤ binadeSize by decide)
  rw [hmove]
  refine place_ofSignedUnits_le (by omega) ?_
  rw [show v.place + 1 + ((8 : Nat) : Int) = v.place + 9 by omega] at hgaps
  omega

theorem place_nudgeUp_le (hv : v.isFinite = true) : (nudgeUp v).place ≤ v.place + 9 :=
  Direction.place_move_up_le hv (smallestStep_spec hv .up).1 (isFinite_smallestStep hv .up)
    (magnitude_smallestStep_le hv .up)

theorem le_place_nudgeDown (hv : v.isFinite = true) : v.place ≤ (nudgeDown v).place + 9 := by
  have hstep := (smallestStep_spec hv .down).1
  have hup := Direction.place_move_up_le (isFinite_neg hv) hstep (isFinite_smallestStep hv .down)
    (magnitude_smallestStep_le hv .down)
  have hdown : (nudgeDown v).place = _ := Direction.place_move_down hv hstep
  rw [place_neg] at hup
  omega

/-- The search for the smallest step of a finite value ends, in either direction, with a finite
positive step that changes the value, and no smaller decimal step does. So the nudges are strict;
and fewer than ten values are passed, the zeros counted separately. -/
theorem smallestStep_and_nudges (hv : v.isFinite = true) :
    (∀ d : Direction, d.Takes v (smallestStep v d) ∧
      (smallestStep v d).isFinite = true ∧ zero.below (smallestStep v d) = true ∧
      d.changes v (smallestStep v d) = true ∧
      ∀ step ∈ decimalSteps, step.below (smallestStep v d) = true → d.changes v step = false) ∧
    v.below (nudgeUp v) = true ∧ (nudgeDown v).below v = true ∧
    {x : Binary64 | v.below x = true ∧ x.below (nudgeUp v) = true}.encard < 10 ∧
    {x : Binary64 | (nudgeDown v).below x = true ∧ x.below v = true}.encard < 10 := by
  have hnumber := isNumber_of_isFinite hv
  have hup := isNumber_nudgeUp hv
  have hdown := isNumber_nudgeDown hv
  refine ⟨fun d => ?_, (below_iff_place hnumber hup).mpr (place_lt_nudgeUp hv),
    (below_iff_place hdown hnumber).mpr (nudgeDown_place_lt hv),
    encard_between_lt hnumber hup (place_nudgeUp_le hv),
    encard_between_lt hdown hnumber (le_place_nudgeDown hv)⟩
  have htakes := takes_smallestStep hv d
  have hfinite := isFinite_smallestStep hv d
  refine ⟨htakes, hfinite, zero_below_smallestStep hv d, htakes.changes, fun step hmem hlt => ?_⟩
  obtain ⟨hstep, htaken⟩ := isNumber_of_below hlt
  exact htakes.least hv hmem ((below_iff_place hstep htaken).mp hlt)

/-- A number whose gap upward is twice as wide as the gaps after it. -/
def beyondBinade : Binary64 := (ofNat (2 ^ 63 + 2048)).neg

/-- A thousand is less than half the first gap, so the step is nearly five times that gap, and the
nudge goes as many places as there can be. -/
theorem smallestStep_and_nudges_beyondBinade :
    beyondBinade.isFinite = true ∧ Direction.up.Takes beyondBinade (ofNat 10000) ∧
    (nudgeUp beyondBinade).place = beyondBinade.place + 9 ∧
    {x : Binary64 | beyondBinade.below x = true ∧
      x.below (nudgeUp beyondBinade) = true}.encard < 10 := by
  have hfinite : beyondBinade.isFinite = true := by decide +kernel
  have hstep : smallestStep beyondBinade .up = ofNat 10000 := by decide +kernel
  obtain ⟨hsearch, -, -, hpassed, -⟩ := smallestStep_and_nudges hfinite
  exact ⟨hfinite, hstep ▸ (hsearch .up).1, by decide +kernel, hpassed⟩

end StatusBoard
