import StatusBoard.Proofs.Binary64.Spacing
import StatusBoard.Proofs.Threshold.Step
import Mathlib.Data.Nat.Find
import Mathlib.Logic.Function.Iterate

/-!
# The search for a step

The steps that are tried are two sequences without an end, of which a search goes through as
many as it needs. The finer steps become zero, which changes nothing, and the coarser ones grow
beyond the largest gap between numbers, so every search ends; and what a step does not change no
smaller step changes, so the one with which a search ends is the least decimal step that changes
the value.

## Main definitions

* `finerStep`, `coarserStep` — the two sequences
* `decimalSteps` — the steps of both
* `Direction.Takes` — the search, unbounded, ends with a step
* `Direction.mirror` — the value that moves up where the given one moves in the direction

## Main results

* `Direction.not_changes_mono` — what is not changed by a step is not changed by a smaller one
* `Direction.two_mul_magnitude_le_of_not_changes` — such a step is at most half a gap wide
* `takes_smallestStep` — the search ends with the smallest step
* `Direction.Takes.least` — no smaller decimal step changes the value
-/

namespace StatusBoard

open Binary64

/-! ### The two sequences -/

/-- The steps from a tenth downward. -/
def finerStep (n : Nat) : Binary64 := (·.div ten)^[n] tenth

/-- The steps from a tenth upward. -/
def coarserStep (n : Nat) : Binary64 := (·.mul ten)^[n] tenth

/-- The steps of both sequences. -/
def decimalSteps : Set Binary64 := Set.range finerStep ∪ Set.range coarserStep

theorem finerStep_zero : finerStep 0 = tenth := Function.iterate_zero_apply ..

theorem coarserStep_zero : coarserStep 0 = tenth := Function.iterate_zero_apply ..

theorem finerStep_succ (n : Nat) : finerStep (n + 1) = (finerStep n).div ten :=
  Function.iterate_succ_apply' ..

theorem coarserStep_succ (n : Nat) : coarserStep (n + 1) = (coarserStep n).mul ten :=
  Function.iterate_succ_apply' ..

theorem isStep_finerStep (n : Nat) : IsStep (finerStep n) := by
  induction n with
  | zero =>
    rw [finerStep_zero]
    exact isStep_tenth
  | succ n ih =>
    rw [finerStep_succ]
    exact ih.div_ten

theorem isStep_coarserStep (n : Nat) : IsStep (coarserStep n) := by
  induction n with
  | zero =>
    rw [coarserStep_zero]
    exact isStep_tenth
  | succ n ih =>
    rw [coarserStep_succ]
    exact ih.mul_ten

theorem stepsBy_eq_map (next : Binary64 → Binary64) (count : Nat) (first : Binary64) :
    stepsBy next count first = (List.range count).map fun n => next^[n] first := by
  induction count generalizing first with
  | zero => rfl
  | succ count ih =>
    rw [stepsBy, ih, List.range_succ_eq_map, List.map_cons, List.map_map]
    rfl

theorem finerSteps_eq : finerSteps = (List.range 340).map finerStep := stepsBy_eq_map ..

theorem coarserSteps_eq : coarserSteps = (List.range 320).map coarserStep := stepsBy_eq_map ..

/-! ### The order of the steps -/

section Rank

variable {rank : Nat} (h : rank ≤ infinityRank) (hfinite : rank ≠ infinityRank)
include hfinite

theorem div_ten_number : (number false rank h).div ten =
    ofRatio false (unitsOfRank rank * unitsPerOne) (10 * unitsPerOne) := by
  obtain ⟨tenRank, _, hten, hzero, hinfinity, hunits⟩ := exists_ten_eq
  rw [hten, div, if_neg hfinite, if_neg hinfinity, if_neg hzero, hunits]
  rfl

theorem mul_ten_number : (number false rank h).mul ten =
    ofRatio false (unitsOfRank rank * (10 * unitsPerOne)) unitsPerOne := by
  obtain ⟨tenRank, _, hten, hzero, hinfinity, hunits⟩ := exists_ten_eq
  rw [hten, mul, if_neg (not_or.mpr ⟨hfinite, hinfinity⟩), hunits]
  rfl

end Rank

theorem infinity_mul_ten : (infinity false).mul ten = infinity false := by
  obtain ⟨tenRank, _, hten, hzero, -⟩ := exists_ten_eq
  rw [hten, infinity, mul, if_pos (.inl rfl), if_neg (not_or.mpr ⟨by decide, hzero⟩)]
  rfl

theorem nearestRank_div_ten_le (rank : Nat) :
    nearestRank (unitsOfRank rank * unitsPerOne) (10 * unitsPerOne) ≤ rank :=
  nearestRank_le (Nat.mul_pos (by decide) unitsPerOne_pos)
    (Nat.mul_le_mul_left _ (Nat.le_mul_of_pos_left _ (by decide)))

theorem rank_le_nearestRank_mul_ten (rank : Nat) :
    rank ≤ nearestRank (unitsOfRank rank * (10 * unitsPerOne)) unitsPerOne :=
  le_nearestRank unitsPerOne_pos
    (Nat.mul_le_mul_left _ (Nat.le_mul_of_pos_left _ (by decide)))

theorem place_div_ten_le {step : Binary64} (h : IsStep step) :
    (step.div ten).place ≤ step.place := by
  obtain ⟨rank, hrank, rfl⟩ := h
  by_cases hfinite : rank = infinityRank
  · subst hfinite
    exact place_le_infinityRank _
  · have hround := nearestRank_div_ten_le rank
    rw [div_ten_number hrank hfinite, ofRatio, place_positive, place_positive]
    omega

theorem le_place_mul_ten {step : Binary64} (h : IsStep step) :
    step.place ≤ (step.mul ten).place := by
  obtain ⟨rank, hrank, rfl⟩ := h
  by_cases hfinite : rank = infinityRank
  · subst hfinite
    exact (congrArg place infinity_mul_ten).ge
  · have hround := rank_le_nearestRank_mul_ten rank
    rw [mul_ten_number hrank hfinite, ofRatio, place_positive, place_positive]
    omega

theorem IsStep.isFinite_of_place_le {step larger : Binary64} (h : IsStep step)
    (hle : step.place ≤ larger.place) (hfinite : larger.isFinite = true) :
    step.isFinite = true := by
  obtain ⟨rank, hrank, rfl⟩ := h
  have hlarger := (isFinite_iff_place.mp hfinite).2.2
  rw [place_positive] at hle
  exact decide_eq_true (by omega)

theorem place_finerStep_anti {i j : Nat} (h : i ≤ j) :
    (finerStep j).place ≤ (finerStep i).place := by
  induction h with
  | refl => exact Int.le_refl _
  | @step j _ ih =>
    rw [finerStep_succ]
    exact (place_div_ten_le (isStep_finerStep j)).trans ih

theorem place_coarserStep_mono {i j : Nat} (h : i ≤ j) :
    (coarserStep i).place ≤ (coarserStep j).place := by
  induction h with
  | refl => exact Int.le_refl _
  | @step j _ ih =>
    rw [coarserStep_succ]
    exact ih.trans (le_place_mul_ten (isStep_coarserStep j))

theorem place_finerStep_le (n : Nat) : (finerStep n).place ≤ tenth.place := by
  rw [← finerStep_zero]
  exact place_finerStep_anti (Nat.zero_le n)

theorem le_place_coarserStep (n : Nat) : tenth.place ≤ (coarserStep n).place := by
  rw [← coarserStep_zero]
  exact place_coarserStep_mono (Nat.zero_le n)

/-! ### Larger steps and smaller ones -/

namespace Direction

variable {v step larger : Binary64} {d : Direction}

/-- The value that moves up as the given one moves in the direction. -/
def mirror (d : Direction) (v : Binary64) : Binary64 :=
  match d with
  | .up => v
  | .down => v.neg

theorem isFinite_mirror (d : Direction) (hv : v.isFinite = true) :
    (d.mirror v).isFinite = true := by
  cases d with
  | up => exact hv
  | down => exact isFinite_neg hv

/-- A value moves down to where its opposite moves up. -/
theorem place_move_down (hv : v.isFinite = true) (hstep : IsStep step) :
    (down.move v step).place = -(up.move v.neg step).place := by
  obtain ⟨q, hq, rfl⟩ := hstep
  obtain ⟨s, r, hr, rfl, hfinite⟩ := exists_number_of_isFinite hv
  rw [neg, move_number down hr hq hfinite, move_number up hr hq hfinite]
  split
  · rfl
  · have hsum : signedUnits s r + signedUnits (decide (down = down)) q =
        -(signedUnits (!s) r + signedUnits (decide (up = down)) q) := by
      rw [signedUnits_not, show decide (down = down) = !decide (up = down) from rfl,
        signedUnits_not]
      omega
    rw [hsum, place_ofSignedUnits_neg]

theorem changes_mirror (hv : v.isFinite = true) (hstep : IsStep step) :
    d.changes v step = up.changes (d.mirror v) step := by
  cases d with
  | up => rfl
  | down =>
    rw [Bool.eq_iff_iff, changes_iff down hv hstep, mirror, changes_iff up (isFinite_neg hv) hstep,
      place_move_down hv hstep, place_neg]
    omega

/-- Moving up by units. -/
theorem exists_move_up_eq (hv : v.isFinite = true) (hstep : IsStep step)
    (hfinite : step.isFinite = true) :
    ∃ s, up.move v step = ofSignedUnits s (unitsAt v.place + step.magnitude) := by
  obtain ⟨q, hq, rfl⟩ := hstep
  obtain ⟨s, r, hr, rfl, hr'⟩ := exists_number_of_isFinite hv
  have hq' : q ≠ infinityRank := (of_decide_eq_true hfinite).ne
  rw [move_number up hr hq hr', if_neg hq', signedUnits_eq_unitsAt s hr]
  exact ⟨_, rfl⟩

theorem place_move_up_mono (hv : v.isFinite = true) (hstep : IsStep step) (hlarger : IsStep larger)
    (h : step.place ≤ larger.place) : (up.move v step).place ≤ (up.move v larger).place := by
  obtain ⟨q, hq, rfl⟩ := hstep
  obtain ⟨k, hk, rfl⟩ := hlarger
  obtain ⟨s, r, hr, rfl, hfinite⟩ := exists_number_of_isFinite hv
  have hqk : q ≤ k := Int.ofNat_le.mp h
  rw [move_number up hr hk hfinite]
  split
  · exact place_le_infinityRank _
  · have hunits := unitsOfRank_strictMono.monotone hqk
    rw [move_number up hr hq hfinite, if_neg (by omega)]
    exact place_ofSignedUnits_mono _ _ (Int.add_le_add_left (Int.ofNat_le.mpr hunits) _)

theorem not_changes_iff (hv : v.isFinite = true) (hstep : IsStep step) :
    d.changes v step = false ↔ (up.move (d.mirror v) step).place = (d.mirror v).place := by
  rw [changes_mirror hv hstep, ← Bool.not_eq_true, changes_iff up (isFinite_mirror d hv) hstep,
    not_not]

/-- If a step changes nothing, then a smaller one does not either. -/
theorem not_changes_mono (hv : v.isFinite = true) (hstep : IsStep step) (hlarger : IsStep larger)
    (h : step.place ≤ larger.place) (hsame : d.changes v larger = false) :
    d.changes v step = false := by
  rw [not_changes_iff hv hlarger] at hsame
  rw [not_changes_iff hv hstep]
  have hmirror := isFinite_mirror d hv
  refine le_antisymm ?_ (le_place_move_up hmirror hstep)
  exact (place_move_up_mono hmirror hstep hlarger h).trans hsame.le

theorem not_changes_zero (hv : v.isFinite = true) : d.changes v zero = false := by
  have hzero : IsStep zero := ⟨_, _, rfl⟩
  have hmirror := isFinite_mirror d hv
  obtain ⟨s, hmove⟩ := exists_move_up_eq hmirror hzero rfl
  have hunits : unitsAt (d.mirror v).place + zero.magnitude = unitsAt (d.mirror v).place := by
    simp [zero, magnitude]
  rw [not_changes_iff hv hzero, hmove, hunits]
  exact place_ofSignedUnits_unitsAt s (natAbs_place_lt hmirror).le

theorem isFinite_of_not_changes (hv : v.isFinite = true) (hstep : IsStep step)
    (h : d.changes v step = false) : step.isFinite = true := by
  by_contra hinfinite
  obtain ⟨q, hq, rfl⟩ := hstep
  obtain rfl : q = infinityRank := hq.antisymm (by simpa [isFinite] using hinfinite)
  exact Bool.false_ne_true (h.symm.trans (d.changes_infinity hv))

/-- A step that changes nothing is at most half a gap. -/
theorem two_mul_magnitude_le_of_not_changes (hv : v.isFinite = true) (hstep : IsStep step)
    (h : d.changes v step = false) : 2 * step.magnitude ≤ gapAbove (d.mirror v).place := by
  have hmirror := isFinite_mirror d hv
  obtain ⟨s, hmove⟩ := exists_move_up_eq hmirror hstep (isFinite_of_not_changes hv hstep h)
  rw [not_changes_iff hv hstep, hmove] at h
  have hmiddle := two_mul_le_of_place_le (natAbs_place_lt hmirror) h.le
  rw [unitsAt_succ] at hmiddle
  omega

end Direction

/-! ### The ends of the sequences -/

/-- The finer steps end with zero, and none of them is rounded down to a power of two. -/
theorem finerSteps_isChain :
    finerSteps.IsChain (fun step next =>
      next.magnitude.isPowerOfTwo → step.magnitude ≤ 10 * next.magnitude) ∧
    finerSteps.getLast? = some zero := by decide +kernel

theorem finerStep_end : finerStep 339 = zero := by
  have hlast := finerSteps_isChain.2
  rw [finerSteps_eq, List.range_succ, List.map_append, List.map_singleton,
    List.getLast?_concat] at hlast
  exact Option.some.inj hlast

/-- Ten times a magnitude rounds to at least nine times it, save for the least magnitudes. -/
theorem nine_mul_unitsOfRank_le {rank : Nat} (h : binadeSize ≤ rank) :
    9 * unitsOfRank rank ≤
      unitsOfRank (nearestRank (unitsOfRank rank * (10 * unitsPerOne)) unitsPerOne) := by
  have hround := rank_le_nearestRank_mul_ten rank
  have hmiddle := (nearestRank_le_iff unitsPerOne_pos).mp
    (Nat.le_refl (nearestRank (unitsOfRank rank * (10 * unitsPerOne)) unitsPerOne))
  generalize nearestRank (unitsOfRank rank * (10 * unitsPerOne)) unitsPerOne = rounded at *
  rw [doubledMiddle, unitsOfRank_succ] at hmiddle
  -- From the second binade on, a gap is at most an eighth of the magnitude below it.
  have hgap := (Nat.mul_le_mul_right _ (show 8 ≤ binadeSize by decide)).trans
    (binadeSize_mul_gap_le (h.trans hround))
  generalize 2 ^ (rounded / binadeSize - 1) = gap at *
  have hten : 20 * unitsOfRank rank ≤ unitsOfRank rounded + (unitsOfRank rounded + gap) := by
    refine Nat.le_of_mul_le_mul_right ?_ unitsPerOne_pos
    rw [show 20 * unitsOfRank rank * unitsPerOne =
      2 * (unitsOfRank rank * (10 * unitsPerOne)) by ring]
    exact hmiddle.elim Nat.le_of_lt fun h => h.1.le
  omega

/-- A normal number grows ninefold when it is multiplied by ten, unless it becomes infinite. -/
theorem nine_mul_magnitude_le {step : Binary64} (h : IsStep step)
    (hnormal : (binadeSize : Int) ≤ step.place) (hfinite : (step.mul ten).isFinite = true) :
    9 * step.magnitude ≤ (step.mul ten).magnitude := by
  have hstep := h.isFinite_of_place_le (le_place_mul_ten h) hfinite
  obtain ⟨rank, hrank, rfl⟩ := h
  rw [place_positive] at hnormal
  rw [mul_ten_number hrank (of_decide_eq_true hstep).ne] at hfinite ⊢
  rw [magnitude_ofRatio hfinite]
  exact nine_mul_unitsOfRank_le (by exact_mod_cast hnormal)

/-- The coarser steps grow ninefold each time for as long as they are finite. -/
theorem le_magnitude_coarserStep {n : Nat} (hfinite : (coarserStep n).isFinite = true) :
    9 ^ n * tenth.magnitude ≤ (coarserStep n).magnitude := by
  induction n with
  | zero => rw [coarserStep_zero, Nat.pow_zero, Nat.one_mul]
  | succ n ih =>
    have hbefore := (isStep_coarserStep n).isFinite_of_place_le
      (place_coarserStep_mono (Nat.le_succ n)) hfinite
    have hnormal : (binadeSize : Int) ≤ (coarserStep n).place :=
      le_trans (by decide +kernel) (le_place_coarserStep n)
    rw [coarserStep_succ] at hfinite ⊢
    calc 9 ^ (n + 1) * tenth.magnitude = 9 * (9 ^ n * tenth.magnitude) := by ring
      _ ≤ 9 * (coarserStep n).magnitude := Nat.mul_le_mul_left _ (ih hbefore)
      _ ≤ ((coarserStep n).mul ten).magnitude :=
        nine_mul_magnitude_le (isStep_coarserStep n) hnormal hfinite

/-- The last of the listed coarser steps changes every finite value: it is infinite, or wider than
the gap next to infinity. -/
theorem changes_coarserStep_end {v : Binary64} (hv : v.isFinite = true) (d : Direction) :
    d.changes v (coarserStep 319) = true := by
  by_contra hchanges
  have hsame := Bool.eq_false_of_not_eq_true hchanges
  have hstep := isStep_coarserStep 319
  have hlarge : unitsOfRank infinityRank <
      binadeSize * (2 * (9 ^ 319 * tenth.magnitude)) := by decide +kernel
  refine absurd ?_ hlarge.not_ge
  calc binadeSize * (2 * (9 ^ 319 * tenth.magnitude))
      ≤ binadeSize * (2 * (coarserStep 319).magnitude) :=
        Nat.mul_le_mul_left _ (Nat.mul_le_mul_left _
          (le_magnitude_coarserStep (d.isFinite_of_not_changes hv hstep hsame)))
    _ ≤ binadeSize * gapAbove (d.mirror v).place :=
        Nat.mul_le_mul_left _ (d.two_mul_magnitude_le_of_not_changes hv hstep hsame)
    _ ≤ unitsOfRank infinityRank :=
        binadeSize_mul_gapAbove_le (natAbs_place_lt (d.isFinite_mirror hv))

/-! ### The step that is taken -/

namespace Direction

variable {v step : Binary64} {d : Direction}

/-- The search, which goes on for as long as it has to, ends with a step: with the last of the
finer steps that change the value before one does not, or, if a tenth does not change it, with
the first of the coarser steps that does. -/
inductive Takes (d : Direction) (v : Binary64) : Binary64 → Prop where
  | finer {n : Nat} (hrun : ∀ i ≤ n, d.changes v (finerStep i) = true)
      (hstop : d.changes v (finerStep (n + 1)) = false) : Takes d v (finerStep n)
  | coarser {n : Nat} (hrun : ∀ i ≤ n, d.changes v (coarserStep i) = false)
      (hstop : d.changes v (coarserStep (n + 1)) = true) : Takes d v (coarserStep (n + 1))

namespace Takes

theorem isStep (h : d.Takes v step) : IsStep step := by
  cases h with
  | finer => exact isStep_finerStep _
  | coarser => exact isStep_coarserStep _

theorem changes (h : d.Takes v step) : d.changes v step = true := by
  cases h with
  | finer hrun => exact hrun _ (Nat.le_refl _)
  | coarser _ hstop => exact hstop

/-- No decimal step that is smaller changes the value. -/
theorem least (h : d.Takes v step) (hv : v.isFinite = true) {smaller : Binary64}
    (hmem : smaller ∈ decimalSteps) (hlt : smaller.place < step.place) :
    d.changes v smaller = false := by
  cases h with
  | @finer n hrun hstop =>
    rcases hmem with ⟨i, rfl⟩ | ⟨i, rfl⟩
    · -- What follows in the sequence is no larger than the step with which the run is broken.
      have hi : n < i := Nat.lt_of_not_le fun hle => hlt.not_ge (place_finerStep_anti hle)
      exact not_changes_mono hv (isStep_finerStep i) (isStep_finerStep (n + 1))
        (place_finerStep_anti hi) hstop
    · -- The coarser steps are at least a tenth, where the finer ones start.
      have hcoarser := le_place_coarserStep i
      have hfiner := place_finerStep_le n
      omega
  | @coarser n hrun hstop =>
    rcases hmem with ⟨i, rfl⟩ | ⟨i, rfl⟩
    · -- A tenth does not change the value, so nothing finer does.
      exact not_changes_mono hv (isStep_finerStep i) (isStep_coarserStep 0)
        ((place_finerStep_le i).trans (le_place_coarserStep 0)) (hrun 0 (Nat.zero_le n))
    · have hi : i < n + 1 := Nat.lt_of_not_le fun hle => hlt.not_ge (place_coarserStep_mono hle)
      exact hrun i (Nat.lt_succ_iff.mp hi)

end Takes

end Direction

theorem takeWhile_map_range {α : Type} {f : Nat → α} {p : α → Bool} {m count : Nat}
    (hrun : ∀ i < m, p (f i) = true) (hstop : p (f m) = false) (h : m < count) :
    ((List.range count).map f).takeWhile p = (List.range m).map f := by
  obtain ⟨rest, rfl⟩ := Nat.exists_eq_add_of_lt h
  have hprefix : ∀ x ∈ (List.range m).map f, p x = true :=
    List.forall_mem_map.mpr fun i hi => hrun i (List.mem_range.mp hi)
  rw [Nat.add_assoc, List.range_add, List.map_append, List.takeWhile_append_of_pos hprefix,
    List.range_succ_eq_map, List.map_cons, List.map_cons, List.takeWhile_cons, Nat.add_zero,
    if_neg (Bool.not_eq_true _ ▸ hstop), List.append_nil]

/-- A sequence that holds at some time but not at first starts to hold at some time. -/
theorem exists_first {p : Nat → Bool} {m : Nat} (hzero : p 0 = false) (hm : p m = true) :
    ∃ n < m, (∀ i ≤ n, p i = false) ∧ p (n + 1) = true := by
  have hex : ∃ m, p m = true := ⟨m, hm⟩
  obtain ⟨n, hn⟩ := Nat.exists_eq_succ_of_ne_zero fun hfirst : Nat.find hex = 0 =>
    Bool.false_ne_true (hzero.symm.trans (hfirst ▸ Nat.find_spec hex))
  have hspec := Nat.find_spec hex
  have hlt := Nat.find_min' hex hm
  rw [hn] at hspec hlt
  refine ⟨n, hlt, fun i hi => ?_, hspec⟩
  exact Bool.eq_false_of_not_eq_true (Nat.find_min hex (hn ▸ Nat.lt_succ_of_le hi))

/-- The search ends, and within the steps that are listed. -/
theorem takes_smallestStep {v : Binary64} (hv : v.isFinite = true) (d : Direction) :
    d.Takes v (smallestStep v d) := by
  unfold smallestStep
  rw [finerSteps_eq, coarserSteps_eq]
  by_cases htenth : d.changes v tenth = true
  · -- The run of finer steps is broken by zero at the latest.
    have hend : d.changes v (finerStep 339) = false := finerStep_end ▸ d.not_changes_zero hv
    obtain ⟨n, hn, hrun, hstop⟩ := exists_first (p := fun i => !d.changes v (finerStep i))
      (by rw [finerStep_zero, htenth]; rfl) (by rw [hend]; rfl)
    simp only [Bool.not_eq_false', Bool.not_eq_true'] at hrun hstop
    rw [takeWhile_map_range (fun i hi => hrun i (Nat.lt_succ_iff.mp hi)) hstop (by omega),
      List.range_succ, List.map_append, List.map_singleton, List.getLast?_concat]
    exact .finer hrun hstop
  · -- There is no run, and one of the coarser steps is found.
    have hsame := Bool.eq_false_of_not_eq_true htenth
    obtain ⟨n, hn, hrun, hstop⟩ := exists_first (p := fun i => d.changes v (coarserStep i))
      (by rw [coarserStep_zero, hsame]) (changes_coarserStep_end hv d)
    have hfound : (List.range 320).find? (d.changes v ∘ coarserStep) = some (n + 1) :=
      List.find?_range_eq_some.mpr ⟨hstop, List.mem_range.mpr (by omega), fun i hi => by
        rw [Function.comp_apply, hrun i (Nat.lt_succ_iff.mp hi)]
        rfl⟩
    rw [takeWhile_map_range (m := 0) (fun i hi => absurd hi (Nat.not_lt_zero i))
      (by rw [finerStep_zero, hsame]) (by omega), List.find?_map, hfound]
    exact .coarser hrun hstop

end StatusBoard
