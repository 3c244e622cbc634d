import StatusBoard.Proofs.Binary64.Place
import StatusBoard.Threshold.Step
import Mathlib.Data.List.Find
import Mathlib.Data.List.TakeWhile

/-!
# The smallest decimal step moves a value

Every step that is tried is a magnitude, so moving a finite value by it never goes the
wrong way; and the step that is taken changes the value, so a nudge is strict. A nudge
depends on the place of a value only, the two zeros being moved alike.

## Main definitions

* `IsStep` — zero, a positive number or infinity, without a negative sign

## Main results

* `smallestStep_spec` — the step that is taken is a magnitude that changes the value
* `place_lt_nudgeUp`, `nudgeDown_place_lt` — nudges are strict
* `nudgeUp_congr`, `nudgeDown_congr` — values at one place are nudged alike
-/

namespace StatusBoard

open Binary64

/-! ### The steps that are tried -/

/-- A magnitude without a negative sign. -/
def IsStep (step : Binary64) : Prop := ∃ rank h, step = .number false rank h

/-- Ten is a positive finite number, and it is exact. -/
theorem exists_ten_eq :
    ∃ rank h, ten = .number false rank h ∧ rank ≠ 0 ∧ rank ≠ infinityRank ∧
      unitsOfRank rank = 10 * unitsPerOne := by
  refine ⟨_, _, rfl, ?_, ?_, ?_⟩ <;> decide +kernel

theorem isStep_ofRatio (num den : Nat) : IsStep (ofRatio false num den) := ⟨_, _, rfl⟩

theorem IsStep.div_ten {step : Binary64} (h : IsStep step) : IsStep (step.div ten) := by
  obtain ⟨rank, hrank, rfl⟩ := h
  obtain ⟨tenRank, hle, hten, hzero, hinfinity, -⟩ := exists_ten_eq
  rw [hten]
  unfold div
  simp only [if_neg hzero, if_neg hinfinity]
  split
  · exact ⟨_, _, rfl⟩
  · exact isStep_ofRatio _ _

theorem IsStep.mul_ten {step : Binary64} (h : IsStep step) : IsStep (step.mul ten) := by
  obtain ⟨rank, hrank, rfl⟩ := h
  obtain ⟨tenRank, hle, hten, hzero, hinfinity, -⟩ := exists_ten_eq
  rw [hten]
  unfold mul
  simp only [hzero, hinfinity, or_false]
  split
  · rename_i hrank
    subst hrank
    rw [if_neg (by decide)]
    exact ⟨_, _, rfl⟩
  · exact isStep_ofRatio _ _

theorem isStep_of_mem_stepsBy {next : Binary64 → Binary64}
    (hnext : ∀ step, IsStep step → IsStep (next step)) {count : Nat} {first step : Binary64}
    (hfirst : IsStep first) (h : step ∈ stepsBy next count first) : IsStep step := by
  induction count generalizing first with
  | zero => simp [stepsBy] at h
  | succ count ih =>
    rcases List.mem_cons.mp h with rfl | h
    · exact hfirst
    · exact ih (hnext first hfirst) h

theorem isStep_tenth : IsStep tenth := IsStep.div_ten (isStep_ofRatio _ _)

theorem isStep_of_mem_finerSteps {step : Binary64} (h : step ∈ finerSteps) : IsStep step :=
  isStep_of_mem_stepsBy (fun _ => IsStep.div_ten) isStep_tenth h

theorem isStep_of_mem_coarserSteps {step : Binary64} (h : step ∈ coarserSteps) : IsStep step :=
  isStep_of_mem_stepsBy (fun _ => IsStep.mul_ten) isStep_tenth h

/-! ### Moving by a step -/

namespace Direction

/-- Moving down is adding a negative number. -/
theorem move_number (d : Direction) {s : Bool} {r q : Nat} (hr : r ≤ infinityRank)
    (hq : q ≤ infinityRank) (hfinite : r ≠ infinityRank) :
    d.move (.number s r hr) (.number false q hq) =
      if q = infinityRank then infinity (decide (d = down))
      else ofSignedUnits (s && decide (d = down))
        (signedUnits s r + signedUnits (decide (d = down)) q) := by
  cases d <;> simp [move, sub, neg, add, hfinite]

theorem isNumber_move {v step : Binary64} (d : Direction) (hv : v.isFinite = true)
    (hstep : IsStep step) : (d.move v step).IsNumber := by
  obtain ⟨q, hq, rfl⟩ := hstep
  obtain ⟨s, r, hr, rfl, hfinite⟩ := exists_number_of_isFinite hv
  rw [move_number d hr hq hfinite]
  split
  · exact isNumber_number _ _ _
  · exact isNumber_ofSignedUnits _ _

theorem le_place_move_up {v step : Binary64} (hv : v.isFinite = true) (hstep : IsStep step) :
    v.place ≤ (up.move v step).place := by
  obtain ⟨q, hq, rfl⟩ := hstep
  obtain ⟨s, r, hr, rfl, hfinite⟩ := exists_number_of_isFinite hv
  rw [move_number up hr hq hfinite]
  split
  · exact (isFinite_iff_place.mp hv).2.2.le
  · rw [← place_ofSignedUnits_signedUnits s s hr]
    exact place_ofSignedUnits_mono _ _ (by simp [signedUnits])

theorem place_move_down_le {v step : Binary64} (hv : v.isFinite = true) (hstep : IsStep step) :
    (down.move v step).place ≤ v.place := by
  obtain ⟨q, hq, rfl⟩ := hstep
  obtain ⟨s, r, hr, rfl, hfinite⟩ := exists_number_of_isFinite hv
  rw [move_number down hr hq hfinite]
  split
  · exact (isFinite_iff_place.mp hv).2.1.le
  · rw [← place_ofSignedUnits_signedUnits s s hr]
    exact place_ofSignedUnits_mono _ _ (by simp [signedUnits])

theorem changes_iff {v step : Binary64} (d : Direction) (hv : v.isFinite = true)
    (hstep : IsStep step) : d.changes v step = true ↔ (d.move v step).place ≠ v.place := by
  have := equals_iff_place (isNumber_move d hv hstep) (isNumber_of_isFinite hv)
  simp [changes, ← this]

/-- Infinity changes every finite value. -/
theorem changes_infinity {v : Binary64} (hv : v.isFinite = true) (d : Direction) :
    d.changes v (infinity false) = true := by
  have hinfinity : IsStep (infinity false) := ⟨_, _, rfl⟩
  refine (d.changes_iff hv hinfinity).mpr ?_
  obtain ⟨-, hlow, hhigh⟩ := isFinite_iff_place.mp hv
  obtain ⟨s, r, hr, rfl, hfinite⟩ := exists_number_of_isFinite hv
  rw [infinity, d.move_number hr (Nat.le_refl _) hfinite, if_pos rfl, infinity, place_number]
  split <;> omega

end Direction

/-! ### The step that is taken -/

/-- The smallest step is a magnitude, and it changes the value. -/
theorem smallestStep_spec {v : Binary64} (hv : v.isFinite = true) (d : Direction) :
    IsStep (smallestStep v d) ∧ d.changes v (smallestStep v d) = true := by
  unfold smallestStep
  split
  · rename_i step hstep
    have hmem := List.mem_of_getLast? hstep
    exact ⟨isStep_of_mem_finerSteps (List.takeWhile_subset _ hmem),
      List.mem_takeWhile_imp hmem⟩
  · cases hfound : coarserSteps.find? (d.changes v) with
    | some step =>
      exact ⟨isStep_of_mem_coarserSteps (List.mem_of_find?_eq_some hfound),
        List.find?_some hfound⟩
    | none => exact ⟨⟨_, _, rfl⟩, d.changes_infinity hv⟩

theorem isNumber_nudgeUp {v : Binary64} (hv : v.isFinite = true) : (nudgeUp v).IsNumber :=
  Direction.up.isNumber_move hv (smallestStep_spec hv .up).1

theorem isNumber_nudgeDown {v : Binary64} (hv : v.isFinite = true) : (nudgeDown v).IsNumber :=
  Direction.down.isNumber_move hv (smallestStep_spec hv .down).1

theorem place_lt_nudgeUp {v : Binary64} (hv : v.isFinite = true) :
    v.place < (nudgeUp v).place := by
  obtain ⟨hstep, hchanges⟩ := smallestStep_spec hv .up
  have hne := (Direction.up.changes_iff hv hstep).mp hchanges
  exact lt_of_le_of_ne (Direction.le_place_move_up hv hstep) hne.symm

theorem nudgeDown_place_lt {v : Binary64} (hv : v.isFinite = true) :
    (nudgeDown v).place < v.place := by
  obtain ⟨hstep, hchanges⟩ := smallestStep_spec hv .down
  have hne := (Direction.down.changes_iff hv hstep).mp hchanges
  exact lt_of_le_of_ne (Direction.place_move_down_le hv hstep) hne

/-! ### The two zeros -/

section Zeros

variable (s t : Bool) (d : Direction)

private theorem changes_zero {step : Binary64} (hstep : IsStep step) :
    d.changes (.number s 0 (Nat.zero_le _)) step =
      d.changes (.number t 0 (Nat.zero_le _)) step := by
  rw [Bool.eq_iff_iff, d.changes_iff (isFinite_zero s) hstep,
    d.changes_iff (isFinite_zero t) hstep]
  obtain ⟨q, hq, rfl⟩ := hstep
  rw [d.move_number _ hq (by decide), d.move_number _ hq (by decide)]
  split
  · simp [place_number]
  · simp [place_ofSignedUnits, place_number, signedUnits]

private theorem takeWhile_congr {α : Type} {p q : α → Bool} {l : List α}
    (h : ∀ x ∈ l, p x = q x) : l.takeWhile p = l.takeWhile q := by
  induction l with
  | nil => rfl
  | cons x l ih =>
    rw [List.takeWhile_cons, List.takeWhile_cons, h x List.mem_cons_self,
      ih fun y hy => h y (List.mem_cons_of_mem x hy)]

private theorem smallestStep_zero :
    smallestStep (.number s 0 (Nat.zero_le _)) d =
      smallestStep (.number t 0 (Nat.zero_le _)) d := by
  unfold smallestStep
  rw [takeWhile_congr fun _ h => changes_zero s t d (isStep_of_mem_finerSteps h),
    List.find?_congr fun _ h => changes_zero s t d (isStep_of_mem_coarserSteps h)]

/-- The step of a zero is not zero, so the sign of the zero leaves no trace. -/
private theorem move_smallestStep_zero :
    d.move (.number s 0 (Nat.zero_le _)) (smallestStep (.number s 0 (Nat.zero_le _)) d) =
      d.move (.number t 0 (Nat.zero_le _)) (smallestStep (.number t 0 (Nat.zero_le _)) d) := by
  rw [smallestStep_zero s t d]
  obtain ⟨hstep, hchanges⟩ := smallestStep_spec (isFinite_zero t) d
  have hne := (d.changes_iff (isFinite_zero t) hstep).mp hchanges
  generalize smallestStep (.number t 0 (Nat.zero_le _)) d = step at *
  obtain ⟨q, hq, rfl⟩ := hstep
  rw [d.move_number _ hq (by decide)] at hne ⊢
  rw [d.move_number _ hq (by decide)]
  split
  · rfl
  · rw [if_neg ‹_›] at hne
    have hzero : ∀ u, signedUnits u 0 = 0 := fun u => by cases u <;> simp [signedUnits]
    rw [hzero, Int.zero_add] at hne ⊢
    rw [hzero, Int.zero_add]
    refine ofSignedUnits_congr (fun hunits => hne ?_) _ _
    rw [hunits, ← hzero true, place_ofSignedUnits_signedUnits _ _ (Nat.zero_le _)]
    simp [place_number]

end Zeros

private theorem move_smallestStep_congr {v w : Binary64} (hv : v.isFinite = true)
    (hw : w.isFinite = true) (h : v.place = w.place) (d : Direction) :
    d.move v (smallestStep v d) = d.move w (smallestStep w d) := by
  rcases eq_or_zeros_of_place_eq (isNumber_of_isFinite hv) (isNumber_of_isFinite hw) h with
    rfl | ⟨s, t, rfl, rfl⟩
  · rfl
  · exact move_smallestStep_zero s t d

theorem nudgeUp_congr {v w : Binary64} (hv : v.isFinite = true) (hw : w.isFinite = true)
    (h : v.place = w.place) : nudgeUp v = nudgeUp w :=
  move_smallestStep_congr hv hw h .up

theorem nudgeDown_congr {v w : Binary64} (hv : v.isFinite = true) (hw : w.isFinite = true)
    (h : v.place = w.place) : nudgeDown v = nudgeDown w :=
  move_smallestStep_congr hv hw h .down

end StatusBoard
