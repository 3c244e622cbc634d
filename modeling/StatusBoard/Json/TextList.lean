import StatusBoard.Json.Decoder

/-!
# Lists of texts in JSON

## Main definitions

* `Json.TextList.write` — an array of strings without blanks
* `Json.TextList.read?` — the texts of an array of strings
-/

namespace StatusBoard.Json.TextList

/-- The written items, with a comma before each. -/
def writeRest : List String → List Char
  | [] => []
  | t :: ts => ',' :: writeString t ++ writeRest ts

/-- The characters of an array of strings. -/
def writeChars : List String → List Char
  | [] => ['[', ']']
  | t :: ts => '[' :: writeString t ++ writeRest ts ++ [']']

/-- The written form of a list of texts. -/
def write (texts : List String) : String := String.ofList (writeChars texts)

/-- Reads a list of texts. -/
def read? (text : String) : Option (List String) := decode? (Decoder.list Decoder.text) text

end StatusBoard.Json.TextList
