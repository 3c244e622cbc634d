import StatusBoard.Fault
import StatusBoard.Text.Blank
import StatusBoard.Text.Numeral

/-!
# Depth limits

A query may ask how deep its answer goes. A policy bounds what may be asked for, and may
say what holds when nothing is asked.

## Main definitions

* `DepthPolicy` — the bound and the standard depth
* `DepthPolicy.ofSettings` — the policy of named settings
* `DepthPolicy.effective` — the depth that a query gets
-/

namespace StatusBoard

/-- How deep answers go. -/
structure DepthPolicy where
  /-- No answer goes deeper. -/
  maxDepth : Nat
  /-- The depth of an answer when none is asked for. -/
  defaultDepth : Option Nat
deriving DecidableEq

namespace DepthPolicy

/-- The bound when none is set. -/
def standardMaxDepth : Nat := 64

/-- The policy without settings. -/
def standard : DepthPolicy := ⟨standardMaxDepth, none⟩

/-- A setting as an unsigned integer between blanks. -/
def readSetting (lookup : String → Option String) (key : String) : Except Fault (Option Nat) :=
  match lookup key with
  | none => .ok none
  | some text =>
    match Text.unsignedOfChars? (Text.trimChars text.toList) with
    | some n => .ok (some n)
    | none => .error (.depthSetting key text)

/-- The policy of named settings. -/
def ofSettings (lookup : String → Option String) : Except Fault DepthPolicy := do
  let maxDepth ← readSetting lookup "HIERARCHY_MAX_DEPTH"
  let defaultDepth ← readSetting lookup "HIERARCHY_DEFAULT_DEPTH"
  return ⟨maxDepth.getD standardMaxDepth, defaultDepth⟩

/-- The depth that a query gets: the one asked for, or else the default, within the bound. -/
def effective (p : DepthPolicy) (requested : Option Nat) : Option Nat :=
  (requested.or p.defaultDepth).map (min · p.maxDepth)

end DepthPolicy

end StatusBoard
