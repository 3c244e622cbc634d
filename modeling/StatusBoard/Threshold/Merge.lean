import StatusBoard.Ordered
import StatusBoard.Threshold.Range
import StatusBoard.Threshold.Step

/-!
# The canonical set of ranges

Overlapping ranges are merged into ranges that share no point. Of two that meet, the one of
the higher status stays whole. Ranges wait in a queue in order of their bounds. The first
two are compared: if they are apart the first is final; otherwise they are resolved into
at most three pieces without common points, which join the queue again.

The pieces are computed in a monad, through which alone a bound is nudged. So the one computation
gives the pieces and also, in another monad, tells what it nudges.

## Main definitions

* `Range.resolveBy` — the pieces of two ranges that meet, by a way to nudge
* `Range.resolve` — the pieces themselves
* `mergeQueue?` — the work on the queue, by fuel
* `mergeOverlaps` — the canonical set of a list of ranges
-/

namespace StatusBoard

namespace Range

section Pieces

variable {m : Type → Type} [Monad m] (nudge : Direction → Binary64 → m Binary64)

/-- The pieces of a range and of one with another status that lies within it. The outer
range stays whole if it is higher; otherwise it keeps what lies beside the inner one. -/
def carveBy (outer inner : Range) : m (List Range) := do
  if inner.status < outer.status then return [outer]
  else
    let high ← nudge .down inner.min
    let low ← nudge .up inner.max
    -- A side that would end before it starts is dropped.
    return (bounded? outer.status outer.min high).toList ++ inner ::
      (bounded? outer.status low outer.max).toList

/-- The pieces of two ranges of different status that touch. The lower one gives up the
common point, and goes if it has no other. -/
def resolveTouchingBy (first second : Range) : m (List Range) := do
  if second.status < first.status then
    if second.isDegenerate then return [first]
    else
      let low ← nudge .up second.min
      return first :: (bounded? second.status low second.max).toList
  else
    if first.isDegenerate then return [second]
    else
      let high ← nudge .down first.max
      return (bounded? first.status first.min high).toList ++ [second]

/-- The pieces of two ranges of different status that overlap. The lower one gives up what
the higher one covers. -/
def resolveOverlappingBy (first second : Range) : m (List Range) := do
  if second.status < first.status then
    let low ← nudge .up first.max
    return first :: (bounded? second.status low second.max).toList
  else
    let high ← nudge .down second.min
    return (bounded? first.status first.min high).toList ++ [second]

/-- The pieces of two ranges in the given relation. Ranges of one status become one. -/
def resolveBy (relation : Relation) (first second : Range) : m (List Range) := do
  if first.status = second.status then
    return [⟨first.status, first.min, first.max.larger second.max⟩]
  else match relation with
    | .disjoint => return [first, second]
    | .touching => resolveTouchingBy nudge first second
    | .overlapping => resolveOverlappingBy nudge first second
    | .firstContainsSecond => carveBy nudge first second
    | .secondContainsFirst => carveBy nudge second first

end Pieces

/-- The pieces of two ranges in the given relation. -/
def resolve (relation : Relation) (first second : Range) : List Range :=
  Id.run (resolveBy (fun d v => pure (d.nudge v)) relation first second)

/-- The numbers of binary64 from the lower to the upper bound, the two zeros being one. -/
def width (r : Range) : Nat :=
  match r.min.key?, r.max.key? with
  | some a, some b => (b - a).toNat + 1
  | _, _ => 1

end Range

/-- Puts pieces into a queue in order of their bounds. -/
def requeue (pieces queue : List Range) : List Range :=
  pieces.foldl (fun q piece => Ordered.insert Range.le piece q) queue

/-- Works on a queue in order of the bounds until at most one range is left in it; without
an answer if the fuel does not last. -/
def mergeQueue? : Nat → List Range → Option (List Range)
  | _, [] => some []
  | _, [last] => some [last]
  | 0, _ :: _ :: _ => none
  | fuel + 1, first :: second :: rest =>
    let relation := Relation.between first second
    if relation = .disjoint then
      -- Nothing that comes later in the queue starts before the second range.
      (mergeQueue? fuel (second :: rest)).map (first :: ·)
    else mergeQueue? fuel (requeue (Range.resolve relation first second) rest)

/-- The sum of the widths of ranges. -/
def totalWidth : List Range → Nat
  | [] => 0
  | r :: rest => r.width + totalWidth rest

/-- The canonical set of ranges with proper bounds. Every step of the work makes the sum of
the widths smaller, so that sum is fuel enough. -/
def mergeOverlaps (ranges : List Range) : List Range :=
  (mergeQueue? (totalWidth ranges) (Ordered.sort Range.le ranges)).getD []

end StatusBoard
