import StatusBoard.Calendar.Instant
import StatusBoard.Text.Numeral

/-!
# Written times

A written time is a date of ten characters, a separator, a time of day with an optional
fraction of a second, and an offset. The time of day is the one that clocks show. It is written
with the fewest of 0, 3, 6 or 9 digits for the fraction that lose nothing.

## Main definitions

* `Timestamp.read?` — the instant of a written time
* `Timestamp.write` — the written time of an instant, with a given text for the offset
* `Timestamp.utcOffset`, `Timestamp.utcLetter` — the two forms of the offset zero
-/

namespace StatusBoard.Timestamp

/-! ### Reading -/

/-- A number of exactly `width` digits and the text after it. -/
def readDigits (width : Nat) (cs : List Char) : Option (Nat × List Char) :=
  let digits := cs.take width
  if digits.length = width ∧ digits.all Char.isDigit then
    some (Nat.ofDigitChars 10 digits 0, cs.drop width)
  else none

/-- The text after a required character. -/
def skip (c : Char) : List Char → Option (List Char)
  | [] => none
  | d :: cs => if d = c then some cs else none

/-- The text after the character between date and time. -/
def skipSeparator : List Char → Option (List Char)
  | [] => none
  | c :: cs => if c = 'T' ∨ c = 't' ∨ c = ' ' then some cs else none

/-- The nanoseconds of the digits of a fraction; digits after the ninth are left out. -/
def nanosOfFraction (digits : List Char) : Nat :=
  let kept := digits.take 9
  Nat.ofDigitChars 10 kept 0 * Nat.pow 10 (9 - kept.length)

/-- The nanoseconds of an optional fraction. -/
def readFraction : List Char → Option (Nat × List Char)
  | '.' :: cs =>
    let digits := cs.takeWhile Char.isDigit
    if digits = [] then none else some (nanosOfFraction digits, cs.dropWhile Char.isDigit)
  | cs => some (0, cs)

/-- The hours and minutes that make up the whole of a text, in minutes. -/
def readOffsetSize (cs : List Char) : Option Nat := do
  let (hours, cs) ← readDigits 2 cs
  let cs ← skip ':' cs
  let (minutes, cs) ← readDigits 2 cs
  if cs = [] ∧ hours < 24 ∧ minutes < 60 then some (hours * 60 + minutes) else none

/-- An offset from universal time that makes up the whole of a text, in minutes. -/
def readOffset : List Char → Option Int
  | [] => none
  | c :: cs =>
    if c = 'Z' ∨ c = 'z' then if cs = [] then some 0 else none
    else if c = '+' then (readOffsetSize cs).map fun n => (n : Int)
    -- The minus sign of typography is as good as the hyphen.
    else if c = '-' ∨ c = '\u2212' then (readOffsetSize cs).map fun n => -(n : Int)
    else none

/-- The date at the front of a text. -/
def readDate (cs : List Char) : Option (Date × List Char) := do
  let (year, cs) ← readDigits 4 cs
  let (month, cs) ← readDigits 2 (← skip '-' cs)
  let (day, cs) ← readDigits 2 (← skip '-' cs)
  let date ← Date.of? year month day
  return (date, cs)

/-- The time of day at the front of a text, on a given day. -/
def readTime (date : Date) (cs : List Char) : Option (Instant × List Char) := do
  let (hour, cs) ← readDigits 2 cs
  let (minute, cs) ← readDigits 2 (← skip ':' cs)
  let (second, cs) ← readDigits 2 (← skip ':' cs)
  let (nanos, cs) ← readFraction cs
  let time ← Instant.ofShown? date hour minute second nanos
  return (time, cs)

/-- The instant of the characters of a written time. -/
def ofChars? (cs : List Char) : Option Instant := do
  let (date, cs) ← readDate cs
  let (localTime, cs) ← readTime date (← skipSeparator cs)
  let offset ← readOffset cs
  return localTime.ofLocal offset

/-- The instant of a written time. -/
def read? (text : String) : Option Instant := ofChars? text.toList

/-! ### Writing -/

/-- The offset zero in digits. -/
def utcOffset : List Char := "+00:00".toList

/-- The offset zero as a letter. -/
def utcLetter : List Char := ['Z']

/-- A year, in four digits, or with a sign if it does not have four digits. -/
def writeYear (year : Int) : List Char :=
  if 0 ≤ year ∧ year ≤ 9999 then Text.padded 4 year.toNat
  else (if year < 0 then '-' else '+') :: Text.padded 4 year.natAbs

/-- The fraction of a second. -/
def writeFraction (nanos : Nat) : List Char :=
  if nanos = 0 then []
  else if nanos % 1000000 = 0 then '.' :: Text.padded 3 (nanos / 1000000)
  else if nanos % 1000 = 0 then '.' :: Text.padded 6 (nanos / 1000)
  else '.' :: Text.padded 9 nanos

/-- The characters of the written time of an instant. -/
def writeChars (offset : List Char) (t : Instant) : List Char :=
  writeYear t.date.year ++ '-' :: Text.padded 2 t.date.month ++ '-' :: Text.padded 2 t.date.day ++
    'T' :: Text.padded 2 t.hour ++ ':' :: Text.padded 2 t.minute ++
    ':' :: Text.padded 2 t.shownSecond ++ writeFraction t.shownNanos ++ offset

/-- The written time of an instant. -/
def write (offset : List Char) (t : Instant) : String := String.ofList (writeChars offset t)

end StatusBoard.Timestamp
