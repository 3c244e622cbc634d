import StatusBoard.Binary64.Basic

/-!
# Binary64 arithmetic

Every finite magnitude is a whole number of *units* of `2 ^ -1074`, so a sum is an
integer sum, and a product or quotient is a quotient of naturals. An exact result is
rounded once, to the nearer of the two neighbouring magnitudes, a tie going to the even
rank; what lies beyond the middle of the last gap becomes infinity.

## Main definitions

* `Binary64.unitsOfRank` — the magnitude of a rank, in units
* `Binary64.nearestRank` — rounding of a quotient of naturals, in units
* `Binary64.add`, `Binary64.mul`, `Binary64.div` — the rounded operations
* `Binary64.ofDecimal` — the number nearest to `digits · 10 ^ exponent`
-/

namespace StatusBoard.Binary64

/-- The magnitude of a rank in units. The first two binades have a spacing of one unit;
each later binade doubles it. -/
def unitsOfRank (rank : Nat) : Nat :=
  let binade := rank / binadeSize - 1
  (rank - binade * binadeSize) * Nat.pow 2 binade

/-- The units in the number one. -/
def unitsPerOne : Nat := Nat.pow 2 1074

/-- The largest rank whose magnitude is at most `units`. -/
def floorRank (units : Nat) : Nat :=
  let binade := units.log2 - 52
  binade * binadeSize + units / Nat.pow 2 binade

/-- The rank nearest to `num / den` units; a tie goes to the even rank. -/
def nearestRank (num den : Nat) : Nat :=
  let low := floorRank (num / den)
  -- The middle of the gap above `low`, doubled and scaled by `den`.
  let middle := (unitsOfRank low + unitsOfRank (low + 1)) * den
  if 2 * num < middle then low
  else if middle < 2 * num then low + 1
  else if low % 2 = 0 then low else low + 1

/-- The number nearest to `num / den` units with the given sign. -/
def ofRatio (negative : Bool) (num den : Nat) : Binary64 :=
  number negative (min (nearestRank num den) infinityRank) (Nat.min_le_right _ _)

/-- The signed magnitude in units; infinity counts as the magnitude after the last. -/
def signedUnits (negative : Bool) (rank : Nat) : Int :=
  if negative then -(unitsOfRank rank : Int) else unitsOfRank rank

/-- The number nearest to an integer count of units; `negativeZero` is the sign of zero. -/
def ofSignedUnits (negativeZero : Bool) (units : Int) : Binary64 :=
  ofRatio (if units = 0 then negativeZero else decide (units < 0)) units.natAbs 1

/-- The number nearest to a natural number. -/
def ofNat (n : Nat) : Binary64 := ofRatio false (n * unitsPerOne) 1

/-- The number one. -/
def one : Binary64 := ofNat 1

/-- The rounded sum. A sum of opposite numbers is positive zero. -/
def add : Binary64 → Binary64 → Binary64
  | nan s, _ => nan s
  | number _ _ _, nan t => nan t
  | number s r _, number t q _ =>
    if r = infinityRank then
      if q = infinityRank ∧ s ≠ t then nan true else infinity s
    else if q = infinityRank then infinity t
    else ofSignedUnits (s && t) (signedUnits s r + signedUnits t q)

/-- The rounded product. -/
def mul : Binary64 → Binary64 → Binary64
  | nan s, _ => nan s
  | number _ _ _, nan t => nan t
  | number s r _, number t q _ =>
    if r = infinityRank ∨ q = infinityRank then
      -- Zero times infinity has no value.
      if r = 0 ∨ q = 0 then nan true else infinity (s != t)
    else ofRatio (s != t) (unitsOfRank r * unitsOfRank q) unitsPerOne

/-- The rounded quotient. -/
def div : Binary64 → Binary64 → Binary64
  | nan s, _ => nan s
  | number _ _ _, nan t => nan t
  | number s r _, number t q _ =>
    if r = infinityRank then
      if q = infinityRank then nan true else infinity (s != t)
    else if q = infinityRank then number (s != t) 0 (Nat.zero_le _)
    else if q = 0 then
      if r = 0 then nan true else infinity (s != t)
    else ofRatio (s != t) (unitsOfRank r * unitsPerOne) (unitsOfRank q)

/-- The rounded difference. -/
def sub (x y : Binary64) : Binary64 := x.add y.neg

/-- The number nearest to `digits · 10 ^ exponent`, with the given sign. -/
def ofDecimal (negative : Bool) (digits : Nat) (exponent : Int) : Binary64 :=
  -- A power of ten divides if the exponent is negative, so the quotient stays exact.
  if 0 ≤ exponent then ofRatio negative (digits * Nat.pow 10 exponent.toNat * unitsPerOne) 1
  else ofRatio negative (digits * unitsPerOne) (Nat.pow 10 (-exponent).toNat)

end StatusBoard.Binary64
