import StatusBoard.Ordered
import StatusBoard.Text.CaseFold

/-!
# Severities

A threshold range carries a status, and the statuses are ordered by precedence. A
classified reading has a severity: a status, or one of two outcomes for readings that have
none.

## Main definitions

* `Status`, `Status.precedence` — what a range carries, and its order
* `Status.sort` — statuses from the lowest
* `Severity` — what a reading is classified as
* `Status.ofName?`, `Severity.ofName?` — the exact names
* `Status.ofText?`, `Severity.ofText?` — the names in any case of their letters
-/

namespace StatusBoard

/-- What a threshold range carries. -/
inductive Status where
  | ok
  | info
  | warning
  | critical
deriving DecidableEq

namespace Status

/-- The statuses, from the highest. -/
def all : List Status := [critical, warning, info, ok]

/-- The rank of a status; where two ranges meet the higher one prevails. -/
def precedence : Status → Nat
  | ok => 0
  | info => 1
  | warning => 2
  | critical => 3

instance : LT Status := ⟨fun a b => a.precedence < b.precedence⟩

instance : LE Status := ⟨fun a b => a.precedence ≤ b.precedence⟩

instance (a b : Status) : Decidable (a < b) :=
  inferInstanceAs (Decidable (a.precedence < b.precedence))

instance (a b : Status) : Decidable (a ≤ b) :=
  inferInstanceAs (Decidable (a.precedence ≤ b.precedence))

theorem precedence_injective {a b : Status} (h : a.precedence = b.precedence) : a = b := by
  cases a <;> cases b <;> simp_all [precedence]

/-- The statuses of a list from the lowest. -/
def sort (statuses : List Status) : List Status := Ordered.sort (fun a b => decide (a ≤ b)) statuses

/-- The name of a status. -/
def name : Status → String
  | ok => "OK"
  | info => "Info"
  | warning => "Warning"
  | critical => "Critical"

/-- The status with exactly this name. -/
def ofName? (text : String) : Option Status := all.find? fun s => s.name = text

/-- The status with this name in any case of its letters. -/
def ofText? (text : String) : Option Status :=
  all.find? fun s => Text.sameIgnoringCase s.name text

end Status

/-- What a reading is classified as: a status, `invalid` if it is no number or lies in no
range, or `timeout` if there was none in time. -/
inductive Severity where
  | ofStatus (status : Status)
  | invalid
  | timeout
deriving DecidableEq

namespace Severity

/-- The severities, those of a status first, from the highest. -/
def all : List Severity := Status.all.map ofStatus ++ [invalid, timeout]

/-- The name of a severity. -/
def name : Severity → String
  | ofStatus status => status.name
  | invalid => "Invalid"
  | timeout => "Timeout"

/-- The severity with exactly this name. -/
def ofName? (text : String) : Option Severity := all.find? fun s => s.name = text

/-- The severity with this name in any case of its letters. -/
def ofText? (text : String) : Option Severity :=
  all.find? fun s => Text.sameIgnoringCase s.name text

end Severity

end StatusBoard
