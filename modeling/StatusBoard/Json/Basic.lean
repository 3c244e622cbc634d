/-!
# JSON values

A value keeps what its text said: the digits of a number as written, the members of an
object in order and with repeated names, and a string only if its escapes denote
characters.

## Main definitions

* `Json.Number` — a number as written
* `Json` — a value
-/

namespace StatusBoard

/-- A number as written: the digits before the point, those after it, and the sign and
digits of the exponent. There is no point if there are no digits after it. -/
structure Json.Number where
  negative : Bool
  whole : List Char
  fraction : List Char
  exponent : Option (Bool × List Char)
deriving DecidableEq

/-- A JSON value. A string whose escapes leave half of a surrogate pair has no text. -/
inductive Json where
  | null
  | bool (value : Bool)
  | number (value : Json.Number)
  | text (value : Option String)
  | array (items : List Json)
  | object (members : List (Option String × Json))

namespace Json

/-- The number has neither a point nor an exponent. -/
def Number.isInteger (n : Number) : Bool := n.fraction.isEmpty && n.exponent.isNone

end Json

end StatusBoard
