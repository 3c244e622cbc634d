import StatusBoard.Binary64.Arithmetic
import Mathlib.Order.Monotone.Basic
import Mathlib.Tactic.Ring

/-!
# Rounding to the nearest rank

The magnitudes grow with the rank, so every quotient lies between two neighbouring
magnitudes, and the rank it rounds to is decided by the middle between them. A quotient
rounds to at most a rank exactly if it lies below the middle above that rank, or on it
when the rank is even; this one fact gives both that rounding keeps order and that it
keeps every magnitude of the format.

## Main results

* `unitsOfRank_succ`, `unitsOfRank_strictMono` — neighbouring magnitudes and their order
* `unitsOfRank_floorRank_le`, `lt_unitsOfRank_floorRank_succ` — the rank below a whole number
* `nearestRank_le_iff` — which quotients round to at most a given rank
* `nearestRank_mono`, `nearestRank_unitsOfRank` — rounding keeps order and magnitudes
* `nearestRank_le`, `le_nearestRank` — rounding does not pass a magnitude
-/

namespace StatusBoard.Binary64

theorem binadeSize_eq : binadeSize = 2 ^ 52 := rfl

theorem binadeSize_pos : 0 < binadeSize := by decide

theorem unitsPerOne_pos : 0 < unitsPerOne := by decide +kernel

/-! ### Magnitudes -/

/-- The gap above a rank doubles with each binade after the second. -/
theorem unitsOfRank_succ (rank : Nat) :
    unitsOfRank (rank + 1) = unitsOfRank rank + 2 ^ (rank / binadeSize - 1) := by
  have hstep : (rank + 1) / binadeSize = rank / binadeSize ∨
      (rank + 1) / binadeSize = rank / binadeSize + 1 ∧
        rank + 1 = (rank / binadeSize + 1) * binadeSize := by
    rw [binadeSize_eq]
    omega
  have hbelow : rank / binadeSize * binadeSize ≤ rank := Nat.div_mul_le_self _ _
  simp only [unitsOfRank, Nat.pow_eq]
  rcases hstep with hsame | ⟨hnext, hrank⟩
  · have hle : (rank / binadeSize - 1) * binadeSize ≤ rank :=
      (Nat.mul_le_mul_right _ (Nat.sub_le _ _)).trans hbelow
    rw [hsame, Nat.sub_add_comm hle, Nat.add_mul, Nat.one_mul]
  · rw [hnext]
    cases hbinade : rank / binadeSize with
    | zero =>
      simp
    | succ b =>
      -- The last rank of a binade: the next magnitude starts a binade of twice the spacing.
      rw [hbinade] at hrank hbelow
      have hnow : rank - b * binadeSize + 1 = 2 * binadeSize := by
        simp only [binadeSize_eq] at *
        omega
      have hthen : rank + 1 - (b + 1) * binadeSize = binadeSize := by
        simp only [binadeSize_eq] at *
        omega
      calc (rank + 1 - (b + 1 + 1 - 1) * binadeSize) * 2 ^ (b + 1 + 1 - 1)
          = binadeSize * 2 ^ (b + 1) := by simp only [Nat.add_sub_cancel, hthen]
        _ = (rank - b * binadeSize + 1) * 2 ^ b := by rw [hnow]; ring
        _ = (rank - (b + 1 - 1) * binadeSize) * 2 ^ (b + 1 - 1) + 2 ^ (b + 1 - 1) := by
          rw [Nat.add_sub_cancel]
          ring

theorem unitsOfRank_strictMono : StrictMono unitsOfRank :=
  strictMono_nat_of_lt_succ fun rank => by
    rw [unitsOfRank_succ]
    exact Nat.lt_add_of_pos_right (Nat.two_pow_pos _)

@[simp] theorem unitsOfRank_zero : unitsOfRank 0 = 0 := by decide

theorem unitsOfRank_pos {rank : Nat} (h : 0 < rank) : 0 < unitsOfRank rank :=
  unitsOfRank_zero ▸ unitsOfRank_strictMono h

/-! ### The rank below a whole number -/

/-- Within the first two binades a magnitude is its rank. -/
theorem unitsOfRank_of_lt {rank : Nat} (h : rank < 2 * binadeSize) : unitsOfRank rank = rank := by
  have hbinade : rank / binadeSize - 1 = 0 := by
    simp only [binadeSize_eq] at *
    omega
  simp [unitsOfRank, hbinade]

theorem binade_mul_add_div {binade place : Nat} (hlow : binadeSize ≤ place)
    (hhigh : place < 2 * binadeSize) :
    (binade * binadeSize + place) / binadeSize = binade + 1 := by
  rw [Nat.add_comm, Nat.add_mul_div_right _ _ binadeSize_pos]
  simp only [binadeSize_eq] at *
  omega

/-- A later magnitude by its binade and its place there. -/
theorem unitsOfRank_binade {binade place : Nat} (hlow : binadeSize ≤ place)
    (hhigh : place < 2 * binadeSize) :
    unitsOfRank (binade * binadeSize + place) = place * 2 ^ binade := by
  simp [unitsOfRank, binade_mul_add_div hlow hhigh]

theorem floorRank_of_lt {units : Nat} (h : units < 2 * binadeSize) : floorRank units = units := by
  have hlog : units.log2 - 52 = 0 := by
    rcases Nat.eq_zero_or_pos units with rfl | hpos
    · decide
    · have : units.log2 < 53 := (Nat.log2_lt hpos.ne').mpr (by rw [binadeSize_eq] at h; omega)
      omega
  simp [floorRank, hlog]

/-- The rank below a later whole number by its binade and its place there. -/
theorem exists_floorRank_eq {units : Nat} (h : 2 * binadeSize ≤ units) :
    ∃ binade, binadeSize ≤ units / 2 ^ binade ∧ units / 2 ^ binade < 2 * binadeSize ∧
      floorRank units = binade * binadeSize + units / 2 ^ binade := by
  have hne : units ≠ 0 := by
    have := binadeSize_pos
    omega
  have hlog : 53 ≤ units.log2 := (Nat.le_log2 hne).mpr (by rw [binadeSize_eq] at h; omega)
  obtain ⟨binade, hbinade⟩ : ∃ b, units.log2 = b + 52 := ⟨units.log2 - 52, by omega⟩
  have hpow : 0 < 2 ^ binade := Nat.two_pow_pos _
  refine ⟨binade, ?_, ?_, by simp [floorRank, hbinade]⟩
  · rw [Nat.le_div_iff_mul_le hpow, binadeSize_eq, ← Nat.pow_add, Nat.add_comm, ← hbinade]
    exact Nat.log2_self_le hne
  · rw [Nat.div_lt_iff_lt_mul hpow, binadeSize_eq, ← Nat.pow_succ', ← Nat.pow_add]
    have := Nat.lt_log2_self (n := units)
    rwa [hbinade, show binade + 52 + 1 = Nat.succ 52 + binade by omega] at this

/-- The rank below a whole number, and the gap above that rank holds the number. -/
private theorem floorRank_bounds (units : Nat) :
    unitsOfRank (floorRank units) ≤ units ∧ units < unitsOfRank (floorRank units + 1) := by
  rw [unitsOfRank_succ]
  rcases Nat.lt_or_ge units (2 * binadeSize) with hsmall | hlarge
  · rw [floorRank_of_lt hsmall, unitsOfRank_of_lt hsmall]
    exact ⟨Nat.le_refl _, Nat.lt_add_of_pos_right (Nat.two_pow_pos _)⟩
  · obtain ⟨binade, hlow, hhigh, hrank⟩ := exists_floorRank_eq hlarge
    rw [hrank, unitsOfRank_binade hlow hhigh, binade_mul_add_div hlow hhigh, Nat.add_sub_cancel]
    exact ⟨Nat.div_mul_le_self _ _, Nat.lt_div_mul_add (Nat.two_pow_pos _)⟩

theorem unitsOfRank_floorRank_le (units : Nat) : unitsOfRank (floorRank units) ≤ units :=
  (floorRank_bounds units).1

theorem lt_unitsOfRank_floorRank_succ (units : Nat) :
    units < unitsOfRank (floorRank units + 1) :=
  (floorRank_bounds units).2

/-! ### The nearest rank -/

/-- Twice the middle of the gap above a rank. -/
def doubledMiddle (rank : Nat) : Nat := unitsOfRank rank + unitsOfRank (rank + 1)

theorem doubledMiddle_lt {low high : Nat} (h : low < high) :
    doubledMiddle low < 2 * unitsOfRank high := by
  have hlow := unitsOfRank_strictMono h
  have hsucc : unitsOfRank (low + 1) ≤ unitsOfRank high := unitsOfRank_strictMono.monotone h
  unfold doubledMiddle
  omega

theorem lt_doubledMiddle {low high : Nat} (h : low ≤ high) :
    2 * unitsOfRank low < doubledMiddle high := by
  have hlow := unitsOfRank_strictMono.monotone h
  have hsucc : unitsOfRank high < unitsOfRank (high + 1) := unitsOfRank_strictMono (by omega)
  unfold doubledMiddle
  omega

/-- A quotient rounds to at most a rank iff it is below the middle above that rank, or on it
and the rank is even. -/
theorem nearestRank_le_iff {num den rank : Nat} (hden : 0 < den) :
    nearestRank num den ≤ rank ↔
      2 * num < doubledMiddle rank * den ∨
        2 * num = doubledMiddle rank * den ∧ rank % 2 = 0 := by
  have hfloor : unitsOfRank (floorRank (num / den)) * den ≤ num :=
    (Nat.le_div_iff_mul_le hden).mp (unitsOfRank_floorRank_le _)
  have hceil : num < unitsOfRank (floorRank (num / den) + 1) * den :=
    (Nat.div_lt_iff_lt_mul hden).mp (lt_unitsOfRank_floorRank_succ _)
  have hdef : nearestRank num den =
      if 2 * num < doubledMiddle (floorRank (num / den)) * den then floorRank (num / den)
      else if doubledMiddle (floorRank (num / den)) * den < 2 * num then
        floorRank (num / den) + 1
      else if floorRank (num / den) % 2 = 0 then floorRank (num / den)
      else floorRank (num / den) + 1 := rfl
  generalize floorRank (num / den) = low at *
  have hlow : low ≤ nearestRank num den := by rw [hdef]; split_ifs <;> omega
  have hhigh : nearestRank num den ≤ low + 1 := by rw [hdef]; split_ifs <;> omega
  rcases Nat.lt_trichotomy rank low with hlt | rfl | hgt
  · -- The middle above a smaller rank is below the quotient.
    have hmiddle : doubledMiddle rank * den < 2 * unitsOfRank low * den :=
      Nat.mul_lt_mul_of_pos_right (doubledMiddle_lt hlt) hden
    rw [Nat.mul_assoc] at hmiddle
    omega
  · rw [hdef]
    split_ifs <;> omega
  · -- The middle above a larger rank is above the quotient.
    have hmiddle : 2 * unitsOfRank (low + 1) * den < doubledMiddle rank * den :=
      Nat.mul_lt_mul_of_pos_right (lt_doubledMiddle hgt) hden
    rw [Nat.mul_assoc] at hmiddle
    omega

theorem nearestRank_mono {num num' den : Nat} (hden : 0 < den) (h : num ≤ num') :
    nearestRank num den ≤ nearestRank num' den := by
  rw [nearestRank_le_iff hden]
  rcases (nearestRank_le_iff hden).mp (Nat.le_refl (nearestRank num' den)) with hlt | ⟨heq, heven⟩
  · exact Or.inl (by omega)
  · by_cases hsame : num = num'
    · exact Or.inr ⟨by omega, heven⟩
    · exact Or.inl (by omega)

/-- What is at most a magnitude does not round above its rank. -/
theorem nearestRank_le {num den rank : Nat} (hden : 0 < den) (h : num ≤ unitsOfRank rank * den) :
    nearestRank num den ≤ rank := by
  have hmiddle := Nat.mul_lt_mul_of_pos_right (lt_doubledMiddle (Nat.le_refl rank)) hden
  rw [Nat.mul_assoc] at hmiddle
  exact (nearestRank_le_iff hden).mpr (Or.inl (by omega))

/-- What is at least a magnitude does not round below its rank. -/
theorem le_nearestRank {num den rank : Nat} (hden : 0 < den) (h : unitsOfRank rank * den ≤ num) :
    rank ≤ nearestRank num den := by
  by_contra hlt
  have hle : nearestRank num den ≤ rank - 1 := by omega
  have hless : rank - 1 < rank := by omega
  have hmiddle := Nat.mul_lt_mul_of_pos_right (doubledMiddle_lt hless) hden
  rw [Nat.mul_assoc] at hmiddle
  rw [nearestRank_le_iff hden] at hle
  omega

/-- A magnitude of the format rounds to its own rank. -/
@[simp] theorem nearestRank_unitsOfRank (rank : Nat) : nearestRank (unitsOfRank rank) 1 = rank :=
  Nat.le_antisymm (nearestRank_le Nat.one_pos (Nat.mul_one _).ge)
    (le_nearestRank Nat.one_pos (Nat.mul_one _).le)

end StatusBoard.Binary64
