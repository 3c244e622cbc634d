import StatusBoard.Text.Unprinted

/-!
# Quoted texts for messages

A quoted text stands between double quotes. The quote, the backslash and five control
characters have escapes of two characters; any other character that is not shown is
written by its code point in hexadecimal digits between braces.

## Main definitions

* `Text.quotedChar` — the written form of one character
* `Text.quoted` — the written form of a text
* `Text.quotedOption` — the written form of a text that may be absent
-/

namespace StatusBoard.Text

/-- The written form of a character inside a quoted text. -/
def quotedChar (c : Char) : List Char :=
  if c = '"' then ['\\', '"']
  else if c = '\\' then ['\\', '\\']
  else if c = '\n' then ['\\', 'n']
  else if c = '\r' then ['\\', 'r']
  else if c = '\t' then ['\\', 't']
  else if c = '\x00' then ['\\', '0']
  else if isUnprinted c then
    ['\\', 'u', '\x7b'] ++ Nat.toDigits 16 c.toNat ++ ['\x7d']
  else [c]

/-- The written form of a text. -/
def quoted (text : String) : String :=
  String.ofList ('"' :: text.toList.flatMap quotedChar ++ ['"'])

/-- The written form of a text that may be absent. -/
def quotedOption : Option String → String
  | none => "None"
  | some text => "Some(" ++ quoted text ++ ")"

end StatusBoard.Text
