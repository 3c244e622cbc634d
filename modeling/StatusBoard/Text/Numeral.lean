/-!
# Unsigned numerals

An unsigned numeral is at least one decimal digit with an optional plus sign, and its
value fits 64 bits.

## Main definitions

* `Text.unsignedOfChars?`, `Text.unsigned?` — the readers
* `Text.padded` — a number with leading zeros up to a width
-/

namespace StatusBoard.Text

/-- The number of values of a 64-bit word. -/
def wordSize : Nat := Nat.pow 2 64

/-- Reads decimal digits, at least one, whose value fits 64 bits. -/
def digits? (cs : List Char) : Option Nat :=
  if cs ≠ [] ∧ cs.all Char.isDigit then
    let value := Nat.ofDigitChars 10 cs 0
    if value < wordSize then some value else none
  else none

/-- Reads an unsigned numeral. -/
def unsignedOfChars? : List Char → Option Nat
  | '+' :: cs => digits? cs
  | cs => digits? cs

/-- Reads an unsigned numeral from the whole of a text. -/
def unsigned? (text : String) : Option Nat := unsignedOfChars? text.toList

/-- The decimal digits of a number, with zeros in front up to the given width. -/
def padded (width n : Nat) : List Char :=
  let digits := Nat.toDigits 10 n
  List.replicate (width - digits.length) '0' ++ digits

end StatusBoard.Text
