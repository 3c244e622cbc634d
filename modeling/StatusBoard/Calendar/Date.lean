/-!
# Calendar dates

Dates of the Gregorian calendar, extended to all years.

## Main definitions

* `Date` — a year, a month and a day that exists in it
* `Date.next`, `Date.previous` — the neighbouring days
-/

namespace StatusBoard

/-- The year has a 29th of February. -/
def isLeapYear (year : Int) : Bool :=
  decide (year % 4 = 0 ∧ (year % 100 ≠ 0 ∨ year % 400 = 0))

/-- The number of days in a month. -/
def daysInMonth (year : Int) (month : Nat) : Nat :=
  if month = 2 then if isLeapYear year then 29 else 28
  else if month = 4 ∨ month = 6 ∨ month = 9 ∨ month = 11 then 30
  else 31

theorem daysInMonth_pos (year : Int) (month : Nat) : 0 < daysInMonth year month := by
  unfold daysInMonth
  repeat' split
  all_goals decide

/-- A day of the calendar. -/
structure Date where
  year : Int
  month : Nat
  day : Nat
  month_pos : 1 ≤ month
  month_le : month ≤ 12
  day_pos : 1 ≤ day
  day_le : day ≤ daysInMonth year month
deriving DecidableEq

namespace Date

/-- The date with these numbers, if there is one. -/
def of? (year : Int) (month day : Nat) : Option Date :=
  if h : (1 ≤ month ∧ month ≤ 12) ∧ 1 ≤ day ∧ day ≤ daysInMonth year month then
    some ⟨year, month, day, h.1.1, h.1.2, h.2.1, h.2.2⟩
  else none

/-- The day after. -/
def next (d : Date) : Date :=
  if h : d.day < daysInMonth d.year d.month then
    { d with day := d.day + 1, day_pos := Nat.le_add_left .., day_le := h }
  else if h : d.month < 12 then
    ⟨d.year, d.month + 1, 1, Nat.le_add_left .., h, Nat.le_refl _, daysInMonth_pos _ _⟩
  else ⟨d.year + 1, 1, 1, Nat.le_refl _, by decide, Nat.le_refl _, daysInMonth_pos _ _⟩

/-- The last day of a month. -/
def lastOf (year : Int) (month : Nat) (pos : 1 ≤ month) (le : month ≤ 12) : Date :=
  ⟨year, month, daysInMonth year month, pos, le, daysInMonth_pos _ _, Nat.le_refl _⟩

/-- The day before. -/
def previous (d : Date) : Date :=
  if h : 1 < d.day then
    { d with
      day := d.day - 1
      day_pos := by omega
      day_le := Nat.le_trans (Nat.sub_le ..) d.day_le }
  else if h : 1 < d.month then
    lastOf d.year (d.month - 1) (by omega) (Nat.le_trans (Nat.sub_le ..) d.month_le)
  else lastOf (d.year - 1) 12 (by decide) (by decide)

theorem of?_self (d : Date) : of? d.year d.month d.day = some d := by
  simp [of?, d.month_pos, d.month_le, d.day_pos, d.day_le]

end Date

end StatusBoard
