import StatusBoard.Binary64.Reader
import StatusBoard.Severity.Basic
import StatusBoard.Text.Blank
import StatusBoard.Text.Quoted

/-!
# Raw readings

A reading arrives as text, or not at all. It is a finite number, a truth value counted as
one or zero, or the word that stands for a reading that did not come in time.

## Main definitions

* `ReadingFault` — why a reading is no number
* `Reading.prepare` — the number of a reading
* `ReadingFault.severity` — how such a reading is classified
-/

namespace StatusBoard

/-- Why a reading is no number. -/
inductive ReadingFault where
  /-- There is no text, or the text is no finite number. -/
  | invalidValue (raw : Option String)
  /-- The reading did not come in time. -/
  | timeout
deriving DecidableEq

namespace ReadingFault

/-- The wording of a fault. -/
def message : ReadingFault → String
  | invalidValue raw => "Invalid reading value: " ++ Text.quotedOption raw
  | timeout => "Reading timed out"

/-- The severity of a reading with this fault. -/
def severity : ReadingFault → Severity
  | invalidValue _ => .invalid
  | timeout => .timeout

end ReadingFault

namespace Reading

/-- The word of a reading that did not come in time. -/
def timeoutWord : String := "Timeout"

/-- The finite number that a text holds between blanks. -/
def finite? (text : String) : Option Binary64 :=
  (Binary64.ofChars? (Text.trimChars text.toList)).filter Binary64.isFinite

/-- The number of a reading. -/
def prepare : Option String → Except ReadingFault Binary64
  | none => .error (.invalidValue none)
  | some raw =>
    if raw = "" then .error (.invalidValue (some raw))
    else if raw = timeoutWord then .error .timeout
    else if Text.sameIgnoringCase raw "true" then .ok .one
    else if Text.sameIgnoringCase raw "false" then .ok .zero
    else match finite? raw with
      | some value => .ok value
      | none => .error (.invalidValue (some raw))

end Reading

end StatusBoard
