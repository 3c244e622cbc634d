import StatusBoard.Fault

/-!
# Reading severities from text

## Main definitions

* `Status.read`, `Severity.read` — the named status or severity, or the fault
-/

namespace StatusBoard

/-- The status that a text names in any case of its letters. -/
def Status.read (text : String) : Except Fault Status :=
  match Status.ofText? text with
  | some status => .ok status
  | none => .error (.unknownStatus text)

/-- The severity that a text names in any case of its letters. -/
def Severity.read (text : String) : Except Fault Severity :=
  match Severity.ofText? text with
  | some severity => .ok severity
  | none => .error (.unknownSeverity text)

end StatusBoard
