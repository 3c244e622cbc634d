import StatusBoard.Json.Reader
import StatusBoard.Json.Number

/-!
# Decoding JSON values

A decoder turns a value into data or refuses it. It is told how many levels of arrays and
objects it may still enter. A record is an object, of which unknown members are ignored
and known ones may not repeat, or an array of its fields in their order.

## Main definitions

* `Json.Decoder` — a partial map from values, bounded in depth
* `Json.Decoder.list`, `nullable`, `choice` — decoders for arrays, optional values and names
* `Json.Slots`, `Json.slots?` — the fields of a record that are present
* `Json.decode?` — decoding of a whole text
-/

namespace StatusBoard.Json

/-- A decoder: the first argument is the number of levels that may still be entered. -/
abbrev Decoder (α : Type) := Nat → Json → Option α

/-- The levels of arrays and objects that a decoded text may have. -/
def maxLevels : Nat := 127

namespace Decoder

variable {α : Type}

/-- Strings that denote a text. -/
def text : Decoder String
  | _, .text value => value
  | _, _ => none

/-- Numbers that are not too large. -/
def binary64 : Decoder Binary64
  | _, .number n => n.toBinary64?
  | _, _ => none

/-- Integers of 64 bits without sign. -/
def unsigned : Decoder Nat
  | _, .number n => n.toUnsigned?
  | _, _ => none

/-- A value or `null`. -/
def nullable (decoder : Decoder α) : Decoder (Option α)
  | _, .null => some none
  | levels, value => (decoder levels value).map some

/-- Arrays. -/
def list (decoder : Decoder α) : Decoder (List α)
  | levels + 1, .array items => items.mapM (decoder levels)
  | _, _ => none

/-- Names: a string, or an object whose one member has that name and holds `null`. -/
def choice : Decoder String
  | _, .text value => value
  | _ + 1, .object [(name, .null)] => name
  | _, _ => none

end Decoder

/-- A field of a record. An array may end before fields that all have a default. -/
structure Field where
  name : String
  hasDefault : Bool := false

/-- The fields of a record that are present, by name. -/
abbrev Slots := List (String × Json)

/-- The known members of an object, in order; refused if the name of any member is no text
or if a known one repeats. -/
def knownMembers? (names : List String) : List (Option String × Json) → Option Slots
  | [] => some []
  | (none, _) :: _ => none
  | (some name, value) :: rest => do
    let slots ← knownMembers? names rest
    -- Unknown members are passed over, whatever they hold.
    if name ∈ names then
      if (slots.lookup name).isSome then none else some ((name, value) :: slots)
    else some slots

/-- The fields of a record and the levels that they may enter. -/
def slots? (fields : List Field) : Decoder (Slots × Nat)
  | levels + 1, .object members =>
    (knownMembers? (fields.map (·.name)) members).map (·, levels)
  | levels + 1, .array items =>
    if items.length ≤ fields.length ∧ (fields.drop items.length).all (·.hasDefault) then
      some ((fields.map (·.name)).zip items, levels)
    else none
  | _, _ => none

/-- The field of a record, or what stands for it when it is absent. -/
def Slots.field {α : Type} (slots : Slots) (name : String) (absent : Option α)
    (decode : Json → Option α) : Option α :=
  match List.lookup name slots with
  | some value => decode value
  | none => absent

/-- Decodes the value of a whole text. -/
def decode? {α : Type} (decoder : Decoder α) (text : String) : Option α :=
  (ofText? text).bind (decoder maxLevels)

end StatusBoard.Json
