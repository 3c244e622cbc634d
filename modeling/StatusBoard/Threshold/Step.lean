import StatusBoard.Binary64.Arithmetic

/-!
# The smallest decimal step

A bound that gives way to a neighbour moves by the smallest decimal step that still
changes it. Steps are tried from a tenth: smaller ones, each a tenth of the one before, as
long as they change the value; or, if a tenth is already lost in rounding, larger ones, each
ten times the one before, until one changes it.

## Main definitions

* `Direction` — up or down
* `finerSteps`, `coarserSteps` — the steps that are tried
* `smallestStep` — the step for a value and a direction
* `nudgeUp`, `nudgeDown`, `Direction.nudge` — a value moved by its smallest step
-/

namespace StatusBoard

/-- The direction in which a value is moved. -/
inductive Direction where
  | up
  | down
deriving DecidableEq

/-- The value moved by a step. -/
def Direction.move (d : Direction) (value step : Binary64) : Binary64 :=
  match d with
  | .up => value.add step
  | .down => value.sub step

/-- The step changes the value. -/
def Direction.changes (d : Direction) (value step : Binary64) : Bool :=
  !(d.move value step).equals value

/-- The number ten. -/
def ten : Binary64 := .ofNat 10

/-- The number nearest to a tenth. -/
def tenth : Binary64 := Binary64.one.div ten

/-- The first `count` of the steps that follow one another by `next`. -/
def stepsBy (next : Binary64 → Binary64) : Nat → Binary64 → List Binary64
  | 0, _ => []
  | count + 1, step => step :: stepsBy next count (next step)

/-- The steps from a tenth downward; the last ones are zero. -/
def finerSteps : List Binary64 := stepsBy (·.div ten) 340 tenth

/-- The steps from a tenth upward; the last one is infinite. -/
def coarserSteps : List Binary64 := stepsBy (·.mul ten) 320 tenth

/-- The smallest decimal step that changes a value in a direction. -/
def smallestStep (value : Binary64) (d : Direction) : Binary64 :=
  -- The last step of the unbroken run is the smallest; without a run a tenth is too small.
  match (finerSteps.takeWhile (d.changes value)).getLast? with
  | some step => step
  | none => (coarserSteps.find? (d.changes value)).getD (.infinity false)

/-- The value moved up by its smallest decimal step. -/
def nudgeUp (value : Binary64) : Binary64 := value.add (smallestStep value .up)

/-- The value moved down by its smallest decimal step. -/
def nudgeDown (value : Binary64) : Binary64 := value.sub (smallestStep value .down)

/-- The value moved by its smallest decimal step in a direction. -/
def Direction.nudge : Direction → Binary64 → Binary64
  | .up => nudgeUp
  | .down => nudgeDown

end StatusBoard
