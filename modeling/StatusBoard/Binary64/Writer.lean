import StatusBoard.Binary64.Arithmetic

/-!
# Writing a binary64 number as text

A finite number is written in plain positional notation with the fewest significant
digits that still round to it. Such digits are a point of the coarsest decimal grid that
meets the interval of values rounding to the number; of two such points the nearer one
is taken, and a tie goes away from zero.

## Main definitions

* `Binary64.roundsTo` — membership in the interval of values that round to a rank
* `Binary64.gridPoint?` — the point of one decimal grid in that interval
* `Binary64.shortest` — digits and exponent of the shortest decimal
* `Binary64.toText` — the written form
-/

namespace StatusBoard.Binary64

/-- Whether `num / den` units round to a positive rank: they lie between the middles of the
two gaps beside it, a middle itself rounding to an even rank. -/
def roundsTo (rank num den : Nat) : Bool :=
  let low := (unitsOfRank (rank - 1) + unitsOfRank rank) * den
  let high := (unitsOfRank rank + unitsOfRank (rank + 1)) * den
  if rank % 2 = 0 then decide (low ≤ 2 * num) && decide (2 * num ≤ high)
  else decide (low < 2 * num) && decide (2 * num < high)

/-- The digits `n` for which `n · 10 ^ exponent` is a neighbour of the given rank on that
grid and rounds to it. -/
def gridPoint? (rank : Nat) (exponent : Int) : Option Nat :=
  let step := if 0 ≤ exponent then Nat.pow 10 exponent.toNat * unitsPerOne else unitsPerOne
  let scale := if 0 ≤ exponent then 1 else Nat.pow 10 (-exponent).toNat
  let value := unitsOfRank rank * scale
  -- The two neighbours of the value on the grid are the only candidates.
  let lower := value / step
  let upper := lower + 1
  if roundsTo rank (lower * step) scale then
    -- Both round to the rank: the nearer one is taken, the upper one if they are equally near.
    if roundsTo rank (upper * step) scale && decide ((lower + upper) * step ≤ 2 * value) then
      some upper
    else some lower
  else if roundsTo rank (upper * step) scale then some upper
  else none

/-- The decimal grids that can hold a shortest form, from the coarsest. -/
def gridExponents : List Int := (List.range 634).map fun (i : Nat) => 309 - (i : Int)

/-- The digits and the power of ten of the shortest decimal for a positive finite rank. -/
def shortest (rank : Nat) : Nat × Int :=
  (gridExponents.findSome? fun e => (gridPoint? rank e).map fun n => (n, e)).getD (0, 0)

/-- Writes `digits · 10 ^ exponent` without an exponent. -/
def positional (digits : Nat) (exponent : Int) : List Char :=
  if 0 ≤ exponent then Nat.toDigits 10 digits ++ List.replicate exponent.toNat '0'
  else
    let places := (-exponent).toNat
    let written := Nat.toDigits 10 digits
    -- At least one digit stands before the point.
    let padded := List.replicate (places + 1 - written.length) '0' ++ written
    padded.take (padded.length - places) ++ '.' :: padded.drop (padded.length - places)

/-- Writes a magnitude. -/
def writeRank (rank : Nat) : List Char :=
  if rank = 0 then ['0']
  else if rank = infinityRank then "inf".toList
  else positional (shortest rank).1 (shortest rank).2

/-- The characters of a number; a value that is not a number shows no sign. -/
def toChars : Binary64 → List Char
  | number true rank _ => '-' :: writeRank rank
  | number false rank _ => writeRank rank
  | nan _ => "NaN".toList

/-- The written form of a number. -/
def toText (x : Binary64) : String := String.ofList x.toChars

end StatusBoard.Binary64
