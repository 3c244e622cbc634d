import StatusBoard.Json.Basic
import StatusBoard.Binary64.Arithmetic
import StatusBoard.Text.Numeral

/-!
# Numbers of JSON as binary64 numbers

The digits of a number are gathered into a significand of 64 bits. Once a digit of the
whole part does not fit, this and all later whole digits only raise the power of ten; once
a digit of the fraction does not fit, it and all later ones are dropped. The significand,
rounded, is then multiplied or divided by the power of ten, which rounds again.

## Main definitions

* `Json.Number.significand` — the significand and the power of ten before the exponent
* `Json.scaled?` — scaling by a power of ten, which refuses an infinite result
* `Json.Number.toBinary64?` — the number as a binary64 number
* `Json.Number.toUnsigned?` — the number as an integer of 64 bits without sign
-/

namespace StatusBoard.Json

open Text (wordSize)

/-- The value of a decimal digit. -/
def digitValue (c : Char) : Nat := c.toNat - '0'.toNat

/-- One more whole digit: a significand and the count of digits that did not fit. -/
def pushWhole (state : Nat × Nat) (c : Char) : Nat × Nat :=
  let (significand, dropped) := state
  let next := 10 * significand + digitValue c
  if dropped = 0 ∧ next < wordSize then (next, 0) else (significand, dropped + 1)

/-- One more digit of the fraction: a significand, the count of digits in it, and whether it
is full. -/
def pushFraction (state : Nat × Nat × Bool) (c : Char) : Nat × Nat × Bool :=
  let (significand, places, full) := state
  let next := 10 * significand + digitValue c
  if !full && decide (next < wordSize) then (next, places + 1, false)
  else (significand, places, true)

/-- The significand of a number and the power of ten that its digits leave. -/
def Number.significand (n : Number) : Nat × Int :=
  let (whole, dropped) := n.whole.foldl pushWhole (0, 0)
  let (significand, places, _) := n.fraction.foldl pushFraction (whole, 0, false)
  (significand, (dropped : Int) - places)

/-- The binary64 number nearest to a power of ten. -/
def powerOfTen (n : Nat) : Binary64 := .ofDecimal false 1 n

/-- The largest power of ten below infinity. -/
def maxPower : Nat := 308

/-- Division by a power of ten, the largest power at a time while the value is not zero. -/
def divideByPower (x : Binary64) (n : Nat) : Binary64 :=
  if n ≤ maxPower then x.div (powerOfTen n)
  else if x.equals .zero then x
  else divideByPower (x.div (powerOfTen maxPower)) (n - maxPower)
termination_by n
decreasing_by simp only [maxPower] at *; omega

/-- A nonnegative number scaled by a power of ten, unless the result is infinite. -/
def scaled? (x : Binary64) (exponent : Int) : Option Binary64 :=
  if 0 ≤ exponent then
    if exponent.toNat ≤ maxPower then
      let y := x.mul (powerOfTen exponent.toNat)
      if y.isFinite then some y else none
    else if x.equals .zero then some x
    else none
  else some (divideByPower x (-exponent).toNat)

/-- The largest exponent that is taken at its value. -/
def maxExponent : Nat := Nat.pow 2 31 - 1

/-- The magnitude of a number. An exponent beyond the largest one gives zero if it is
negative or if the significand is zero, and no number otherwise. -/
def Number.magnitude? (n : Number) : Option Binary64 :=
  let (significand, power) := n.significand
  match n.exponent with
  | none => scaled? (.ofNat significand) power
  | some (negative, digits) =>
    let size := Nat.ofDigitChars 10 digits 0
    -- Beyond the largest exponent only zero is certain.
    if maxExponent < size then
      if significand = 0 ∨ negative then some .zero else none
    else scaled? (.ofNat significand) (if negative then power - size else power + size)

/-- The number as a binary64 number, unless it is too large. -/
def Number.toBinary64? (n : Number) : Option Binary64 :=
  n.magnitude?.map fun x => if n.negative then x.neg else x

/-- The number as an integer of 64 bits without sign. Only an integer literal is one. -/
def Number.toUnsigned? (n : Number) : Option Nat :=
  if n.isInteger && !n.negative then Text.digits? n.whole else none

end StatusBoard.Json
