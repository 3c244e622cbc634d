/-!
# Strings in JSON

Inside the quotes of a string a character stands for itself, save the quote, the backslash
and the control characters, which are escaped. An escape with four hexadecimal digits
gives a 16-bit unit; two of them make up a character beyond the first 65536, and half of
such a pair denotes nothing.

## Main definitions

* `Json.Piece` — a character or a 16-bit unit
* `Json.scanString` — the pieces of a string and the text after its closing quote
* `Json.joinPieces?` — the characters that the pieces denote
* `Json.writeString` — the written form of a text
-/

namespace StatusBoard.Json

/-- What a string is made of: characters, and units from escapes. -/
inductive Piece where
  | char (c : Char)
  | unit (code : Nat)
deriving DecidableEq

/-- The value of a hexadecimal digit. -/
def hexDigit? (c : Char) : Option Nat :=
  if '0' ≤ c ∧ c ≤ '9' then some (c.toNat - '0'.toNat)
  else if 'a' ≤ c ∧ c ≤ 'f' then some (c.toNat - 'a'.toNat + 10)
  else if 'A' ≤ c ∧ c ≤ 'F' then some (c.toNat - 'A'.toNat + 10)
  else none

/-- The unit written with four hexadecimal digits. -/
def hexUnit? (a b c d : Char) : Option Nat := do
  return (((← hexDigit? a) * 16 + (← hexDigit? b)) * 16 + (← hexDigit? c)) * 16 + (← hexDigit? d)

/-- The character that an escape of two characters stands for. -/
def escaped? (c : Char) : Option Char :=
  if c = '"' ∨ c = '\\' ∨ c = '/' then some c
  else if c = 'b' then some '\x08'
  else if c = 'f' then some '\x0c'
  else if c = 'n' then some '\n'
  else if c = 'r' then some '\r'
  else if c = 't' then some '\t'
  else none

/-- The pieces of a string up to its closing quote, and the text after that. -/
def scanString : List Char → Option (List Piece × List Char)
  | [] => none
  | '"' :: cs => some ([], cs)
  | '\\' :: 'u' :: a :: b :: c :: d :: cs =>
    match hexUnit? a b c d, scanString cs with
    | some code, some (pieces, rest) => some (.unit code :: pieces, rest)
    | _, _ => none
  | '\\' :: c :: cs =>
    match escaped? c, scanString cs with
    | some e, some (pieces, rest) => some (.char e :: pieces, rest)
    | _, _ => none
  | c :: cs =>
    if c = '\\' ∨ c.toNat < 0x20 then none
    else (scanString cs).map fun (pieces, rest) => (.char c :: pieces, rest)

/-- The unit is the first half of a pair. -/
def isLead (code : Nat) : Bool := decide (0xD800 ≤ code ∧ code ≤ 0xDBFF)

/-- The unit is the second half of a pair. -/
def isTrail (code : Nat) : Bool := decide (0xDC00 ≤ code ∧ code ≤ 0xDFFF)

/-- The characters that the pieces denote, unless half of a pair stands alone. -/
def joinPieces? : List Piece → Option (List Char)
  | [] => some []
  | .char c :: ps => (joinPieces? ps).map (c :: ·)
  | .unit lead :: .unit trail :: ps =>
    if isLead lead then
      if isTrail trail then
        (joinPieces? ps).map
          (Char.ofNat (0x10000 + (lead - 0xD800) * 0x400 + (trail - 0xDC00)) :: ·)
      else none
    else if isTrail lead then none
    else (joinPieces? (.unit trail :: ps)).map (Char.ofNat lead :: ·)
  | .unit code :: ps =>
    if isLead code || isTrail code then none else (joinPieces? ps).map (Char.ofNat code :: ·)

/-- A hexadecimal digit in small letters. -/
def hexChar (n : Nat) : Char := Nat.digitChar n

/-- The written form of a character inside a string. -/
def writeChar (c : Char) : List Char :=
  if c = '"' then ['\\', '"']
  else if c = '\\' then ['\\', '\\']
  else if c = '\x08' then ['\\', 'b']
  else if c = '\x0c' then ['\\', 'f']
  else if c = '\n' then ['\\', 'n']
  else if c = '\r' then ['\\', 'r']
  else if c = '\t' then ['\\', 't']
  else if c.toNat < 0x20 then ['\\', 'u', '0', '0', hexChar (c.toNat / 16), hexChar (c.toNat % 16)]
  else [c]

/-- The written form of a text, with its quotes. -/
def writeString (text : String) : List Char :=
  '"' :: text.toList.flatMap writeChar ++ ['"']

end StatusBoard.Json
