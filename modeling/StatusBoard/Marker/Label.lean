import StatusBoard.Binary64.Reader
import StatusBoard.Fault
import StatusBoard.Text.Cut
import StatusBoard.Text.Numeral

/-!
# Marker labels

The label of a marker packs the place of the marker in its set, the kind of bound, the
status of the range and the bound, with colons between them. The place has six digits at
least, so that labels of equal bounds are in the order of their places.

## Main definitions

* `MarkerKind` — lower or upper bound
* `MarkerLabel` — what a label packs
* `MarkerLabel.encode`, `MarkerLabel.decode?` — the text of a label, and back
-/

namespace StatusBoard

/-- The bound of a range at which a marker stands. -/
inductive MarkerKind where
  | min
  | max
deriving DecidableEq

namespace MarkerKind

/-- The name of a kind. -/
def name : MarkerKind → String
  | min => "min"
  | max => "max"

/-- The kind with exactly this name. -/
def ofName? (text : String) : Option MarkerKind := [min, max].find? fun k => k.name = text

end MarkerKind

/-- What the label of a marker packs. -/
structure MarkerLabel where
  order : Nat
  kind : MarkerKind
  status : Status
  score : Binary64
deriving DecidableEq

namespace MarkerLabel

/-- The least number of digits of the order. -/
def orderWidth : Nat := 6

/-- The characters of a label. -/
def encodeChars (label : MarkerLabel) : List Char :=
  Text.padded orderWidth label.order ++ ':' :: label.kind.name.toList ++
    ':' :: label.status.name.toList ++ ':' :: label.score.toChars

/-- The text of a label. -/
def encode (label : MarkerLabel) : String := String.ofList label.encodeChars

/-- What the characters of a label pack. The score is all that follows the third colon. -/
def decodeChars? (cs : List Char) : Option MarkerLabel := do
  let (order, cs) ← Text.cutFirst? ':' cs
  let (kind, cs) ← Text.cutFirst? ':' cs
  let (status, score) ← Text.cutFirst? ':' cs
  return {
    order := ← Text.unsignedOfChars? order
    kind := ← MarkerKind.ofName? (String.ofList kind)
    status := ← Status.ofText? (String.ofList status)
    score := ← Binary64.ofChars? score
  }

/-- What a label packs. -/
def decode? (label : String) : Option MarkerLabel := decodeChars? label.toList

/-- What a label packs, or the fault of a text that is no label. -/
def decode (label : String) : Except Fault MarkerLabel :=
  match decode? label with
  | some packed => .ok packed
  | none => .error (.badRecord (.markerLabel label))

end MarkerLabel

end StatusBoard
