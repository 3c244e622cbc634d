import StatusBoard.Text.CaseMapping
import StatusBoard.Text.CaseContext

/-!
# Lowercase form of a text

Characters are mapped one by one, with two exceptions: the capital I with a dot keeps its
dot as a combining mark, and a capital sigma at the end of a word becomes the final small
sigma. A sigma ends a word if a cased letter stands before it and none after it,
case-ignorable characters being looked through on both sides.

## Main definitions

* `Text.besideCased` — the nearest character that is not looked through is cased
* `Text.lowerChars` — the lowercase form of a list of characters
* `Text.lowercase` — the lowercase form of a text
-/

namespace StatusBoard.Text

/-- The first character that is not looked through is cased. -/
def besideCased : List Char → Bool
  | [] => false
  | c :: cs => if isCaseIgnorable c then besideCased cs else isPlainlyCased c

/-- The lowercase form of a character between the text before it, nearest first, and the
text after it. -/
def lowerInContext (before : List Char) (c : Char) (after : List Char) : List Char :=
  -- Two forms of the small sigma; all other letters have one.
  if c = 'Σ' then [if besideCased before && !besideCased after then 'ς' else 'σ']
  else if c = 'İ' then ['i', '\u0307']
  else [lowerChar c]

/-- The lowercase form of the characters that follow `before`, nearest first. -/
def lowerCharsAfter (before : List Char) : List Char → List Char
  | [] => []
  | c :: cs => lowerInContext before c cs ++ lowerCharsAfter (c :: before) cs

/-- The lowercase form of a list of characters. -/
def lowerChars (cs : List Char) : List Char := lowerCharsAfter [] cs

/-- The lowercase form of a text. -/
def lowercase (text : String) : String := String.ofList (lowerChars text.toList)

end StatusBoard.Text
