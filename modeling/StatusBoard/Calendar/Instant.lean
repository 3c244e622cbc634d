import StatusBoard.Calendar.Date

/-!
# Instants

An instant is a day and a time of day in universal time, to the nanosecond. In a leap second the
nanoseconds of the second before go on counting, beyond one second. Nothing ties a leap second to
the end of a minute. Clocks show the second that comes next, which is second 60 at the end of a
minute.

## Main definitions

* `Instant` — a day and a time of day
* `Instant.shownSecond`, `Instant.shownNanos` — the second and its fraction as clocks show them
* `Instant.ofShown?` — the instant at which clocks show a time
* `Instant.ofLocal` — the instant of a local time with its offset from universal time
-/

namespace StatusBoard

/-- The nanoseconds of a second. -/
def nanosPerSecond : Nat := 1000000000

/-- A moment in universal time. In a leap second the nanoseconds go on from the second before. -/
structure Instant where
  date : Date
  hour : Nat
  minute : Nat
  second : Nat
  nanos : Nat
  hour_lt : hour < 24
  minute_lt : minute < 60
  second_lt : second < 60
  nanos_lt : nanos < 2 * nanosPerSecond
deriving DecidableEq

namespace Instant

/-- The minutes of a day. -/
def minutesPerDay : Nat := 24 * 60

/-- The second that clocks show. -/
def shownSecond (t : Instant) : Nat := t.second + t.nanos / nanosPerSecond

/-- The nanoseconds that clocks show. -/
def shownNanos (t : Instant) : Nat := t.nanos % nanosPerSecond

/-- The instant at which clocks show a time of a day. Second 60 is the leap second after
second 59; any other second is taken for itself. -/
def ofShown? (date : Date) (hour minute second nanos : Nat) : Option Instant :=
  if h : (hour < 24 ∧ minute < 60) ∧ second ≤ 60 ∧ nanos < nanosPerSecond then
    if hlt : second < 60 then
      some ⟨date, hour, minute, second, nanos, h.1.1, h.1.2, hlt,
        Nat.lt_of_lt_of_le h.2.2 (Nat.le_mul_of_pos_left _ (by decide))⟩
    else
      some ⟨date, hour, minute, 59, nanosPerSecond + nanos, h.1.1, h.1.2, by decide,
        by rw [Nat.two_mul]; exact Nat.add_lt_add_left h.2.2 _⟩
  else none

/-- The instant at a minute of a day, counted from midnight; a count outside the day belongs
to the day before or after. -/
def atMinute (date : Date) (minutes : Int) (second nanos : Nat)
    (second_lt : second < 60) (nanos_lt : nanos < 2 * nanosPerSecond) : Instant :=
  let day := if minutes < 0 then date.previous
    else if (minutesPerDay : Int) ≤ minutes then date.next else date
  -- The remainder is never negative, so it counts from midnight of that day.
  let ofDay := (minutes % minutesPerDay).toNat
  have ofDay_lt : ofDay < 24 * 60 := by
    have h := Int.emod_lt_of_pos minutes (b := minutesPerDay) (by decide)
    have : (minutesPerDay : Int) = 24 * 60 := rfl
    omega
  ⟨day, ofDay / 60, ofDay % 60, second, nanos,
    by omega, Nat.mod_lt _ (by decide), second_lt, nanos_lt⟩

/-- The instant of a local time that is ahead of universal time by `offset` minutes. The
offset does not change the seconds. -/
def ofLocal (localTime : Instant) (offset : Int) : Instant :=
  atMinute localTime.date ((localTime.hour * 60 + localTime.minute : Nat) - offset)
    localTime.second localTime.nanos localTime.second_lt localTime.nanos_lt

end Instant

end StatusBoard
