/-!
# Binary64 numbers

A binary64 number is a sign and a *rank*: its place among the magnitudes that the
format can hold, where zero has rank `0`, the least subnormal rank `1`, and infinity
the last rank. Neighbouring ranks are neighbouring magnitudes, so comparing two
numbers is comparing two integers.

## Main definitions

* `Binary64` — a signed rank, or a value that is not a number
* `Binary64.key?` — the numeric order; both zeros share a key, and a value that is not
  a number has none
* `Binary64.totalKey` — the total order, which also tells the zeros apart
* `below`, `atMost`, `equals` — the numeric comparisons, false for what is not a number

## Main results

* `totalKey_injective` — the total order separates all values
* `below_iff`, `atMost_iff` — the order through `key?`
-/

namespace StatusBoard

namespace Binary64

/-- The number of magnitudes per binade. -/
def binadeSize : Nat := Nat.pow 2 52

/-- The rank of infinity. -/
def infinityRank : Nat := 2047 * binadeSize

end Binary64

/-- A binary64 value: a signed magnitude given by its rank, or not a number. -/
inductive Binary64 where
  | number (negative : Bool) (rank : Nat) (rank_le : rank ≤ Binary64.infinityRank)
  | nan (negative : Bool)
deriving DecidableEq

namespace Binary64

/-- Positive zero. -/
def zero : Binary64 := number false 0 (Nat.zero_le _)

/-- Infinity of the given sign. -/
def infinity (negative : Bool) : Binary64 := number negative infinityRank (Nat.le_refl _)

/-- The value is a number and not an infinity. -/
def isFinite : Binary64 → Bool
  | number _ rank _ => decide (rank < infinityRank)
  | nan _ => false

/-! ### Order -/

/-- The place of a number in the numeric order; both zeros are at `0`. -/
def key? : Binary64 → Option Int
  | number false rank _ => some rank
  | number true rank _ => some (-rank)
  | nan _ => none

/-- The place of a value in the total order: negative zero is just below positive zero,
and the values that are not numbers are at the two ends. -/
def totalKey : Binary64 → Int
  | number false rank _ => rank
  | number true rank _ => -rank - 1
  | nan false => infinityRank + 1
  | nan true => -infinityRank - 2

theorem totalKey_injective {x y : Binary64} (h : x.totalKey = y.totalKey) : x = y := by
  cases x with
  | number s r hr => cases y with
    | number t q hq => cases s <;> cases t <;> simp [totalKey] at h ⊢ <;> omega
    | nan t => cases s <;> cases t <;> simp [totalKey] at h <;> omega
  | nan s => cases y with
    | number t q hq => cases s <;> cases t <;> simp [totalKey] at h <;> omega
    | nan t => cases s <;> cases t <;> simp [totalKey] at h ⊢ <;> omega

/-- Numerically less. -/
def below (x y : Binary64) : Bool :=
  match x.key?, y.key? with
  | some a, some b => decide (a < b)
  | _, _ => false

/-- Numerically less or equal. -/
def atMost (x y : Binary64) : Bool :=
  match x.key?, y.key? with
  | some a, some b => decide (a ≤ b)
  | _, _ => false

/-- Numerically equal. -/
def equals (x y : Binary64) : Bool :=
  match x.key?, y.key? with
  | some a, some b => decide (a = b)
  | _, _ => false

theorem below_iff {x y : Binary64} :
    x.below y = true ↔ ∃ a b, x.key? = some a ∧ y.key? = some b ∧ a < b := by
  unfold below
  cases x.key? <;> cases y.key? <;> simp

theorem atMost_iff {x y : Binary64} :
    x.atMost y = true ↔ ∃ a b, x.key? = some a ∧ y.key? = some b ∧ a ≤ b := by
  unfold atMost
  cases x.key? <;> cases y.key? <;> simp

/-- The numerically larger of two numbers; of two equal ones, which may be zeros of either
sign, the second. -/
def larger (x y : Binary64) : Binary64 := if y.below x then x else y

/-- The value with the opposite sign. -/
def neg : Binary64 → Binary64
  | number negative rank rank_le => number (!negative) rank rank_le
  | nan negative => nan (!negative)

end Binary64

end StatusBoard
