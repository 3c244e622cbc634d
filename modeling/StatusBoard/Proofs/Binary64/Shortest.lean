import StatusBoard.Binary64.Writer
import StatusBoard.Proofs.Binary64.Rounding

/-!
# The shortest decimal

The interval that the writer looks into holds exactly the values that round to the number, so
whatever point of a decimal grid it takes is read as that number. A grid of at most half a unit
has a point in the interval of every number, since the next magnitudes are a unit away at
least; the finest grid that is looked at is as fine as that, so the search always ends.

## Main definitions

* `gridStep`, `gridScale` — the distance of the points of a grid, as a quotient in units

## Main results

* `roundsTo_iff` — the interval of a rank as the values that round to it
* `exists_gridPoint?_eq` — a fine grid has a point in the interval of every rank
* `ofDecimal_shortest` — the shortest decimal rounds to its number
-/

namespace StatusBoard.Binary64

variable {rank num den digits : Nat} {exponent : Int}

/-- The interval of a positive rank has the values that round to the rank. -/
theorem roundsTo_iff (hrank : 0 < rank) (hden : 0 < den) :
    roundsTo rank num den = true ↔ nearestRank num den = rank := by
  obtain ⟨low, rfl⟩ : ∃ low, rank = low + 1 := ⟨rank - 1, by omega⟩
  have hbetween : nearestRank num den = low + 1 ↔
      nearestRank num den ≤ low + 1 ∧ ¬nearestRank num den ≤ low := by omega
  have hinterval : roundsTo (low + 1) num den =
      if (low + 1) % 2 = 0 then
        decide (doubledMiddle low * den ≤ 2 * num) &&
          decide (2 * num ≤ doubledMiddle (low + 1) * den)
      else
        decide (doubledMiddle low * den < 2 * num) &&
          decide (2 * num < doubledMiddle (low + 1) * den) := rfl
  rw [hbetween, nearestRank_le_iff hden, nearestRank_le_iff hden, hinterval]
  -- Of two neighbouring ranks one is even, and it has the middle between them.
  split_ifs <;> simp only [Bool.and_eq_true, decide_eq_true_eq] <;> omega

/-! ### Points of a grid -/

/-- The numerator of the distance between the points of a decimal grid, in units. -/
def gridStep (exponent : Int) : Nat :=
  if 0 ≤ exponent then Nat.pow 10 exponent.toNat * unitsPerOne else unitsPerOne

/-- The denominator of the distance between the points of a decimal grid, in units. -/
def gridScale (exponent : Int) : Nat :=
  if 0 ≤ exponent then 1 else Nat.pow 10 (-exponent).toNat

theorem gridStep_pos (exponent : Int) : 0 < gridStep exponent := by
  unfold gridStep
  split
  · exact Nat.mul_pos (Nat.pow_pos (by decide)) unitsPerOne_pos
  · exact unitsPerOne_pos

theorem gridScale_pos (exponent : Int) : 0 < gridScale exponent := by
  unfold gridScale
  split
  · exact Nat.one_pos
  · exact Nat.pow_pos (by decide)

/-- A decimal is a point of the grid of its exponent. -/
theorem ofDecimal_eq (negative : Bool) (digits : Nat) (exponent : Int) :
    ofDecimal negative digits exponent =
      ofRatio negative (digits * gridStep exponent) (gridScale exponent) := by
  unfold ofDecimal gridStep gridScale
  split_ifs
  · rw [Nat.mul_assoc]
  · rfl

/-- The point of a grid below the magnitude of a rank. -/
def lowerPoint (rank : Nat) (exponent : Int) : Nat :=
  unitsOfRank rank * gridScale exponent / gridStep exponent

theorem gridPoint?_eq (rank : Nat) (exponent : Int) :
    gridPoint? rank exponent =
      if roundsTo rank (lowerPoint rank exponent * gridStep exponent) (gridScale exponent) then
        if roundsTo rank ((lowerPoint rank exponent + 1) * gridStep exponent)
              (gridScale exponent) &&
            decide ((lowerPoint rank exponent + (lowerPoint rank exponent + 1)) *
              gridStep exponent ≤ 2 * (unitsOfRank rank * gridScale exponent)) then
          some (lowerPoint rank exponent + 1)
        else some (lowerPoint rank exponent)
      else if roundsTo rank ((lowerPoint rank exponent + 1) * gridStep exponent)
          (gridScale exponent) then
        some (lowerPoint rank exponent + 1)
      else none := rfl

/-- A point that is found lies in the interval. -/
theorem roundsTo_of_gridPoint? (h : gridPoint? rank exponent = some digits) :
    roundsTo rank (digits * gridStep exponent) (gridScale exponent) = true := by
  rw [gridPoint?_eq] at h
  split_ifs at h with hlower hupper hupper
  · obtain rfl := Option.some.inj h
    exact (Bool.and_eq_true_iff.mp hupper).1
  · obtain rfl := Option.some.inj h
    exact hlower
  · obtain rfl := Option.some.inj h
    exact hupper

/-- A point is found if the one below the magnitude lies in the interval. -/
theorem exists_gridPoint?_eq_of_roundsTo
    (h : roundsTo rank (lowerPoint rank exponent * gridStep exponent) (gridScale exponent) = true) :
    ∃ digits, gridPoint? rank exponent = some digits := by
  rw [gridPoint?_eq, if_pos h]
  split
  · exact ⟨_, rfl⟩
  · exact ⟨_, rfl⟩

/-- A grid of at most half a unit has a point in the interval of every rank. -/
theorem exists_gridPoint?_eq (hrank : 0 < rank)
    (hfine : 2 * gridStep exponent ≤ gridScale exponent) :
    ∃ digits, gridPoint? rank exponent = some digits := by
  refine exists_gridPoint?_eq_of_roundsTo ?_
  have hscale := gridScale_pos exponent
  have hbelow : lowerPoint rank exponent * gridStep exponent ≤
      unitsOfRank rank * gridScale exponent := Nat.div_mul_le_self _ _
  have habove : unitsOfRank rank * gridScale exponent <
      lowerPoint rank exponent * gridStep exponent + gridStep exponent :=
    Nat.lt_div_mul_add (gridStep_pos exponent)
  rw [roundsTo_iff hrank hscale]
  refine Nat.le_antisymm (nearestRank_le hscale hbelow) ?_
  -- The point is less than half a unit below the magnitude, and the rank before is one unit below.
  by_contra hlt
  have hle : nearestRank (lowerPoint rank exponent * gridStep exponent) (gridScale exponent) ≤
      rank - 1 := by omega
  rw [nearestRank_le_iff hscale, doubledMiddle, Nat.sub_add_cancel hrank] at hle
  have hunit : unitsOfRank (rank - 1) + 1 ≤ unitsOfRank rank := unitsOfRank_strictMono (by omega)
  have hmiddle := Nat.mul_le_mul_right (gridScale exponent) hunit
  rw [Nat.add_mul] at hle hmiddle
  omega

/-! ### The search -/

theorem mem_gridExponents : -324 ∈ gridExponents :=
  List.mem_map.mpr ⟨633, List.mem_range.mpr (by decide), rfl⟩

/-- The finest grid that is looked at is fine enough. -/
theorem two_mul_gridStep_le : 2 * gridStep (-324) ≤ gridScale (-324) := by decide +kernel

/-- The shortest decimal is the point that is found on its grid. -/
theorem gridPoint?_shortest (hrank : 0 < rank) :
    gridPoint? rank (shortest rank).2 = some (shortest rank).1 := by
  have hfound : (gridExponents.findSome? fun e =>
      (gridPoint? rank e).map fun n => (n, e)).isSome := by
    -- The search comes to the finest grid at the latest.
    obtain ⟨digits, hdigits⟩ := exists_gridPoint?_eq hrank two_mul_gridStep_le
    refine List.findSome?_isSome_iff.mpr ⟨-324, mem_gridExponents, ?_⟩
    rw [hdigits]
    rfl
  obtain ⟨⟨digits, exponent⟩, hsome⟩ := Option.isSome_iff_exists.mp hfound
  have hshortest : shortest rank = (digits, exponent) := by rw [shortest, hsome]; rfl
  obtain ⟨e, -, he⟩ := List.exists_of_findSome?_eq_some hsome
  obtain ⟨n, hn, heq⟩ := Option.map_eq_some_iff.mp he
  rw [hshortest, ← heq]
  exact hn

/-- The shortest decimal rounds to its number. -/
theorem ofDecimal_shortest (negative : Bool) (hrank : 0 < rank) (h : rank < infinityRank) :
    ofDecimal negative (shortest rank).1 (shortest rank).2 = number negative rank h.le := by
  have hnearest := (roundsTo_iff hrank (gridScale_pos _)).mp
    (roundsTo_of_gridPoint? (gridPoint?_shortest hrank))
  simp only [ofDecimal_eq, ofRatio, hnearest, Nat.min_eq_left h.le]

end StatusBoard.Binary64
