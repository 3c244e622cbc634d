import StatusBoard.Binary64.Arithmetic

/-!
# Reading a binary64 number from text

A number is an optional sign followed by a decimal or by one of the words `inf`,
`infinity` and `nan` in any letter case. A decimal is digits with at most one point and
at least one digit, and an optional power of ten. The value is the binary64 number
nearest to the decimal.

## Main definitions

* `Binary64.Decimal` — digits as a whole number, with a power of ten
* `Binary64.Decimal.ofChars?` — the reader of a decimal without sign
* `Binary64.ofText?` — the reader of a number
-/

namespace StatusBoard.Binary64

/-- The value `digits · 10 ^ exponent`. -/
structure Decimal where
  digits : Nat
  exponent : Int
deriving DecidableEq

namespace Decimal

/-- The size of a written power of ten. It stops growing once it has reached 65536, where
every decimal of fewer digits is already zero or infinite. -/
def exponentSize (digits : List Char) : Nat :=
  digits.foldl (fun size c => if size < 65536 then 10 * size + (c.toNat - '0'.toNat) else size) 0

/-- Digits alone, at least one. -/
def exponentDigits? (cs : List Char) : Option Nat :=
  if cs ≠ [] ∧ cs.all Char.isDigit then some (exponentSize cs) else none

/-- The power of ten that ends a decimal: nothing, or `e` and an integer. -/
def exponent? : List Char → Option Int
  | [] => some 0
  | c :: cs =>
    if c = 'e' ∨ c = 'E' then
      match cs with
      | '-' :: ds => (exponentDigits? ds).map fun n => -(n : Int)
      | '+' :: ds => (exponentDigits? ds).map fun n => (n : Int)
      | ds => (exponentDigits? ds).map fun n => (n : Int)
    else none

/-- The digits after a point, if there is one, and the text that follows. -/
def fractionPart : List Char → List Char × List Char
  | '.' :: cs => (cs.takeWhile Char.isDigit, cs.dropWhile Char.isDigit)
  | cs => ([], cs)

/-- Reads a decimal without sign. -/
def ofChars? (cs : List Char) : Option Decimal :=
  let whole := cs.takeWhile Char.isDigit
  -- Digits are needed before or after the point, not on both sides.
  let (fraction, rest) := fractionPart (cs.dropWhile Char.isDigit)
  if whole = [] ∧ fraction = [] then none
  else (exponent? rest).map fun exponent =>
    ⟨Nat.ofDigitChars 10 (whole ++ fraction) 0, exponent - fraction.length⟩

end Decimal

/-- The words for values that have no digits. -/
def ofWord? (negative : Bool) (cs : List Char) : Option Binary64 :=
  let word := cs.map Char.toLower
  if word = "inf".toList ∨ word = "infinity".toList then some (infinity negative)
  else if word = "nan".toList then some (nan negative)
  else none

/-- Reads what follows the sign. -/
def ofUnsigned? (negative : Bool) (cs : List Char) : Option Binary64 :=
  match Decimal.ofChars? cs with
  | some d => some (ofDecimal negative d.digits d.exponent)
  | none => ofWord? negative cs

/-- Reads a number from the characters of a text. -/
def ofChars? : List Char → Option Binary64
  | '-' :: cs => ofUnsigned? true cs
  | '+' :: cs => ofUnsigned? false cs
  | cs => ofUnsigned? false cs

/-- Reads a number from the whole of a text. -/
def ofText? (text : String) : Option Binary64 := ofChars? text.toList

end StatusBoard.Binary64
