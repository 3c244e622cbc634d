import StatusBoard.Proofs.Binary64.Place
import Mathlib.Data.Set.Card
import Mathlib.Data.Int.Interval

/-!
# The spacing of numbers

Neighbouring places are a power of two apart. The gap doubles from one binade to the next
further from zero, so within a few places it at most doubles or halves. A sum that rounds to
its first term, or to a lower one, is at most half a gap above that term.

## Main definitions

* `unitsAt` — the units at a place
* `gapAbove` — the units from a place to the next
* `magnitude` — the units in the magnitude of a number

## Main results

* `unitsAt_succ`, `le_unitsAt_add` — the width of one gap and of several
* `two_mul_le_of_place_le` — the sums that round to a place or to a lower one
* `place_ofSignedUnits_le` — the sums that round to no more than a place
* `encard_between_lt` — how many numbers there are between two places
-/

namespace StatusBoard.Binary64

/-! ### Gaps -/

/-- The units at a place. -/
def unitsAt (place : Int) : Int := signedUnits (decide (place < 0)) place.natAbs

/-- The units from a place to the next one. Above a negative place the gap is that of the rank
next to zero. -/
def gapAbove (place : Int) : Nat :=
  2 ^ ((max place (-place - 1)).toNat / binadeSize - 1)

variable {place : Int}

@[simp] theorem unitsAt_natCast (rank : Nat) : unitsAt rank = unitsOfRank rank := by
  simp [unitsAt, signedUnits]

@[simp] theorem unitsAt_neg (place : Int) : unitsAt (-place) = -unitsAt place := by
  rcases Int.lt_trichotomy place 0 with hneg | rfl | hpos
  · simp [unitsAt, signedUnits, hneg, hneg.le]
  · rfl
  · simp [unitsAt, signedUnits, hpos, hpos.le]

theorem signedUnits_eq_unitsAt (s : Bool) {rank : Nat} (h : rank ≤ infinityRank) :
    signedUnits s rank = unitsAt (number s rank h).place := by
  rw [place_number]
  cases s <;> simp [signedUnits]

theorem unitsAt_succ (place : Int) : unitsAt (place + 1) = unitsAt place + gapAbove place := by
  rcases Int.lt_or_le place 0 with hneg | hnonneg
  · obtain ⟨rank, rfl⟩ : ∃ rank : Nat, place = -((rank + 1 : Nat) : Int) :=
      ⟨(-place - 1).toNat, by omega⟩
    have hnext : -((rank + 1 : Nat) : Int) + 1 = -(rank : Int) := by omega
    have hgap :
        (max (-((rank + 1 : Nat) : Int)) (- -((rank + 1 : Nat) : Int) - 1)).toNat = rank := by
      omega
    rw [hnext, gapAbove, hgap, unitsAt_neg, unitsAt_neg, unitsAt_natCast, unitsAt_natCast,
      unitsOfRank_succ]
    omega
  · obtain ⟨rank, rfl⟩ := Int.eq_ofNat_of_zero_le hnonneg
    have hgap : (max (rank : Int) (-rank - 1)).toNat = rank := by omega
    rw [gapAbove, hgap, ← Nat.cast_add_one, unitsAt_natCast, unitsAt_natCast, unitsOfRank_succ]
    omega

/-- Within a binade's number of places the gap is at most halved. -/
theorem gapAbove_le_two_mul (place : Int) {n : Nat} (h : n ≤ binadeSize) :
    gapAbove place ≤ 2 * gapAbove (place + n) := by
  rw [gapAbove, gapAbove, ← Nat.pow_succ']
  refine Nat.pow_le_pow_right Nat.two_pos ?_
  have hrank : (max place (-place - 1)).toNat ≤
      (max (place + n) (-(place + n) - 1)).toNat + binadeSize := by omega
  have hbinade := Nat.div_le_div_right (c := binadeSize) hrank
  rw [Nat.add_div_right _ binadeSize_pos] at hbinade
  omega

/-- After the first gap each further one is at least half of it. -/
theorem le_unitsAt_add (place : Int) {n : Nat} (h : n ≤ binadeSize) :
    2 * unitsAt place + (n + 2) * gapAbove place ≤ 2 * unitsAt (place + 1 + n) := by
  induction n with
  | zero =>
    rw [Nat.cast_zero, Int.add_zero, unitsAt_succ]
    omega
  | succ n ih =>
    have hgap := gapAbove_le_two_mul place h
    have hnext : place + 1 + ((n + 1 : Nat) : Int) = place + 1 + n + 1 := by omega
    have hsame : place + ((n + 1 : Nat) : Int) = place + 1 + n := by omega
    rw [hsame] at hgap
    have := ih (by omega)
    rw [hnext, unitsAt_succ, Nat.cast_succ, show ((n : Int) + 1 + 2) * gapAbove place =
      (n + 2) * gapAbove place + gapAbove place by ring]
    omega

/-- From the second binade on a magnitude is many times the gap above it. -/
theorem binadeSize_mul_gap_le {rank : Nat} (h : binadeSize ≤ rank) :
    binadeSize * 2 ^ (rank / binadeSize - 1) ≤ unitsOfRank rank := by
  refine Nat.mul_le_mul_right _ ?_
  have hbinade : 1 ≤ rank / binadeSize := (Nat.one_le_div_iff binadeSize_pos).mpr h
  have hbelow : rank / binadeSize * binadeSize ≤ rank := Nat.div_mul_le_self _ _
  rw [Nat.sub_mul, Nat.one_mul]
  omega

/-- No gap between numbers is wider than that next to infinity. -/
theorem binadeSize_mul_gapAbove_le (h : place.natAbs < infinityRank) :
    binadeSize * gapAbove place ≤ unitsOfRank infinityRank := by
  have hrank : (max place (-place - 1)).toNat ≤ infinityRank := by omega
  have hbinade := Nat.div_le_div_right (c := binadeSize) hrank
  calc binadeSize * gapAbove place
      ≤ binadeSize * 2 ^ (infinityRank / binadeSize - 1) :=
        Nat.mul_le_mul_left _ (Nat.pow_le_pow_right Nat.two_pos (by omega))
    _ ≤ unitsOfRank infinityRank := binadeSize_mul_gap_le (by decide)

/-- A number of few bits times a power of two is a magnitude. -/
theorem exists_unitsOfRank_eq {bits : Nat} (h : bits < 2 * binadeSize) (exponent : Nat) :
    ∃ rank, unitsOfRank rank = bits * 2 ^ exponent := by
  induction exponent generalizing bits with
  | zero => exact ⟨bits, by rw [unitsOfRank_of_lt h, Nat.pow_zero, Nat.mul_one]⟩
  | succ exponent ih =>
    rcases Nat.lt_or_ge bits binadeSize with hsmall | hlarge
    · obtain ⟨rank, hrank⟩ := ih (show 2 * bits < 2 * binadeSize by omega)
      exact ⟨rank, by rw [hrank]; ring⟩
    · exact ⟨_, unitsOfRank_binade hlarge h⟩

/-! ### Rounding at a place -/

/-- What rounds to a place or to a lower one is at most in the middle of the gap above. -/
theorem two_mul_le_of_place_le {s : Bool} {units : Int} (hfinite : place.natAbs < infinityRank)
    (h : (ofSignedUnits s units).place ≤ place) :
    2 * units ≤ unitsAt place + unitsAt (place + 1) := by
  rw [place_ofSignedUnits] at h
  rcases Int.lt_or_le place 0 with hneg | hnonneg
  · obtain ⟨rank, rfl⟩ : ∃ rank : Nat, place = -((rank + 1 : Nat) : Int) :=
      ⟨(-place - 1).toNat, by omega⟩
    -- The magnitude rounds to more than the rank next to zero.
    have hunits : units < 0 := by by_contra hunits; rw [if_neg hunits] at h; omega
    rw [if_pos hunits] at h
    have hrank : ¬nearestRank units.natAbs 1 ≤ rank := by omega
    rw [nearestRank_le_iff Nat.one_pos, doubledMiddle] at hrank
    have hnext : -((rank + 1 : Nat) : Int) + 1 = -(rank : Int) := by omega
    rw [hnext, unitsAt_neg, unitsAt_neg, unitsAt_natCast, unitsAt_natCast]
    omega
  · obtain ⟨rank, rfl⟩ := Int.eq_ofNat_of_zero_le hnonneg
    rw [← Nat.cast_add_one, unitsAt_natCast, unitsAt_natCast]
    rcases Int.lt_or_le units 0 with hunits | hunits
    · omega
    · rw [if_neg (by omega)] at h
      have hrank : nearestRank units.natAbs 1 ≤ rank := by omega
      rw [nearestRank_le_iff Nat.one_pos, doubledMiddle] at hrank
      omega

theorem place_le_infinityRank (x : Binary64) : x.place ≤ infinityRank := by
  cases x with
  | number s rank h => rw [place_number]; split <;> omega
  | nan s => exact Int.natCast_nonneg _

/-- What has the units at a place rounds to that place. -/
theorem place_ofSignedUnits_unitsAt (s : Bool) (h : place.natAbs ≤ infinityRank) :
    (ofSignedUnits s (unitsAt place)).place = place := by
  rw [unitsAt, place_ofSignedUnits_signedUnits s _ h, place_number]
  split_ifs with hneg
  · have := of_decide_eq_true hneg
    omega
  · have := of_decide_eq_false (Bool.eq_false_of_not_eq_true hneg)
    omega

/-- What is at most at a place does not round above it. -/
theorem place_ofSignedUnits_le {s : Bool} {units : Int} (hlow : -(infinityRank : Int) ≤ place)
    (h : units ≤ unitsAt place) : (ofSignedUnits s units).place ≤ place := by
  rcases Int.lt_or_le infinityRank place with hbeyond | hwithin
  · exact (place_le_infinityRank _).trans hbeyond.le
  · exact (place_ofSignedUnits_mono s s h).trans (place_ofSignedUnits_unitsAt s (by omega)).le

/-! ### Magnitudes -/

/-- The units in the magnitude of a number. -/
def magnitude : Binary64 → Nat
  | number _ rank _ => unitsOfRank rank
  | nan _ => 0

theorem magnitude_ofRatio_le (s : Bool) (num den : Nat) :
    (ofRatio s num den).magnitude ≤ unitsOfRank (nearestRank num den) :=
  unitsOfRank_strictMono.monotone (Nat.min_le_left _ _)

theorem magnitude_ofRatio {s : Bool} {num den : Nat} (h : (ofRatio s num den).isFinite = true) :
    (ofRatio s num den).magnitude = unitsOfRank (nearestRank num den) := by
  have hrank : min (nearestRank num den) infinityRank < infinityRank := of_decide_eq_true h
  have hfinite := (min_lt_iff.mp hrank).resolve_right (lt_irrefl _)
  rw [ofRatio, magnitude, Nat.min_eq_left hfinite.le]

/-! ### Opposite numbers -/

@[simp] theorem place_neg (x : Binary64) : x.neg.place = -x.place := by
  cases x with
  | number s rank h => cases s <;> simp [neg, place_number]
  | nan s => rfl

theorem isFinite_neg {x : Binary64} (h : x.isFinite = true) : x.neg.isFinite = true := by
  cases x with
  | number s rank hrank => exact h
  | nan s => exact h

@[simp] theorem signedUnits_not (s : Bool) (rank : Nat) :
    signedUnits (!s) rank = -signedUnits s rank := by
  cases s <;> simp [signedUnits]

/-- Opposite sums round to opposite places. -/
theorem place_ofSignedUnits_neg (s t : Bool) (units : Int) :
    (ofSignedUnits s (-units)).place = -(ofSignedUnits t units).place := by
  rw [place_ofSignedUnits, place_ofSignedUnits, Int.natAbs_neg]
  rcases Int.lt_trichotomy units 0 with hneg | rfl | hpos
  · rw [if_neg (by omega), if_pos hneg, Int.neg_neg]
  · have hzero : nearestRank 0 1 = 0 := nearestRank_unitsOfRank 0
    simp [hzero]
  · rw [if_pos (by omega), if_neg (by omega)]

/-! ### Counting -/

/-- Between two places there is one value for each place, and a second zero. -/
theorem encard_between_lt {x y : Binary64} (hx : x.IsNumber) (hy : y.IsNumber) {n : Nat}
    (h : y.place ≤ x.place + (n + 1 : Nat)) :
    {z : Binary64 | x.below z = true ∧ z.below y = true}.encard < (n + 2 : Nat) := by
  have hmaps : Set.MapsTo totalKey {z : Binary64 | x.below z = true ∧ z.below y = true}
      (Finset.Icc x.place (x.place + n)) := by
    rintro z ⟨hlow, hhigh⟩
    have hz := (isNumber_of_below hlow).2
    rw [below_iff_place hx hz] at hlow
    rw [below_iff_place hz hy] at hhigh
    rw [Finset.mem_coe, Finset.mem_Icc]
    -- A negative number comes one key below its place, which makes room for the second zero.
    cases z with
    | number s rank hrank => cases s <;> simp [totalKey, place_number] at hlow hhigh ⊢ <;> omega
    | nan s => exact absurd hz (by simp [IsNumber, key?])
  calc {z : Binary64 | x.below z = true ∧ z.below y = true}.encard
      ≤ (Finset.Icc x.place (x.place + n) : Set Int).encard :=
        Set.encard_le_encard_of_injOn hmaps fun _ _ _ _ => totalKey_injective
    _ = (n + 1 : Nat) := by
        rw [Set.encard_coe_eq_coe_finsetCard, Int.card_Icc]
        congr 1
        omega
    _ < (n + 2 : Nat) := by exact_mod_cast Nat.lt_succ_self _

end StatusBoard.Binary64
