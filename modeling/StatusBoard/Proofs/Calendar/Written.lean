import StatusBoard.Calendar.Timestamp
import StatusBoard.Proofs.Text.Numeral
import Mathlib.Data.List.TakeWhile
import Mathlib.Data.String.Basic

/-!
# Reading written times

Every part of a written time has a fixed width but for the fraction, which ends where the
offset starts. So the time that clocks show is read back part by part. The one part that may not
fit its width is the year: with a sign in front it is not read. What clocks show tells the instant,
unless it is in a leap second within a minute, which is read as the second that follows.

## Main definitions

* `Instant.LeapEndsMinute` — a leap second, if any, is the last second of its minute
* `Instant.reread` — the instant that is read from what clocks show

## Main results

* `Instant.reread_eq_self_iff` — which instants are told by what clocks show
* `Timestamp.readFraction_writeFraction` — a fraction is read back to the nanosecond
* `Timestamp.read?_write` — what a written time is read as, iff its year has four digits
-/

namespace StatusBoard

/-! ### What clocks show -/

namespace Instant

variable (t : Instant)

/-- The instant is in no leap second, or in one at the end of a minute. -/
def LeapEndsMinute : Prop := t.nanos < nanosPerSecond ∨ t.second = 59

instance : Decidable t.LeapEndsMinute :=
  inferInstanceAs (Decidable (t.nanos < nanosPerSecond ∨ t.second = 59))

theorem shownSecond_of_lt (h : t.nanos < nanosPerSecond) : t.shownSecond = t.second := by
  rw [shownSecond, Nat.div_eq_of_lt h, Nat.add_zero]

theorem shownNanos_of_lt (h : t.nanos < nanosPerSecond) : t.shownNanos = t.nanos :=
  Nat.mod_eq_of_lt h

theorem shownSecond_of_le (h : nanosPerSecond ≤ t.nanos) : t.shownSecond = t.second + 1 := by
  rw [shownSecond, Nat.div_eq_of_lt_le (by omega) t.nanos_lt]

theorem shownNanos_of_le (h : nanosPerSecond ≤ t.nanos) :
    nanosPerSecond + t.shownNanos = t.nanos := by
  have := t.nanos_lt
  rw [shownNanos, Nat.mod_eq_sub_mod h, Nat.mod_eq_of_lt (by omega)]
  omega

theorem shownNanos_lt : t.shownNanos < nanosPerSecond := Nat.mod_lt _ (by decide)

theorem shownSecond_le : t.shownSecond ≤ t.second + 1 := by
  rcases Nat.lt_or_ge t.nanos nanosPerSecond with h | h
  · rw [t.shownSecond_of_lt h]
    exact Nat.le_succ _
  · exact (t.shownSecond_of_le h).le

/-- The instant that is read from what clocks show at an instant: the same one at the end of a
minute, and within a minute the one without a leap second. -/
def reread : Instant :=
  if h : t.second = 59 then t
  else
    { t with
      second := t.shownSecond
      nanos := t.shownNanos
      second_lt := by have := t.second_lt; have := t.shownSecond_le; omega
      nanos_lt := by have := t.shownNanos_lt; omega }

/-- What clocks show is taken for the instant that is read. -/
theorem ofShown?_shown :
    ofShown? t.date t.hour t.minute t.shownSecond t.shownNanos = some t.reread := by
  have hsecond := t.second_lt
  have hle := t.shownSecond_le
  rw [ofShown?, dif_pos ⟨⟨t.hour_lt, t.minute_lt⟩, by omega, t.shownNanos_lt⟩]
  by_cases h59 : t.second = 59
  · -- At the end of a minute the second that is shown tells whether a leap second is on.
    rw [reread, dif_pos h59]
    obtain hnanos | hnanos := Nat.lt_or_ge t.nanos nanosPerSecond
    · have hshown := t.shownSecond_of_lt hnanos
      rw [dif_pos (by omega)]
      simp only [hshown, t.shownNanos_of_lt hnanos]
    · have hshown := t.shownSecond_of_le hnanos
      rw [dif_neg (by omega)]
      simp only [t.shownNanos_of_le hnanos, ← h59]
  · rw [reread, dif_neg h59, dif_pos (by omega)]

/-- What clocks show tells the instant, but for a leap second within a minute. -/
theorem reread_eq_self_iff : t.reread = t ↔ t.LeapEndsMinute := by
  unfold LeapEndsMinute
  by_cases h59 : t.second = 59
  · rw [reread, dif_pos h59]
    exact iff_of_true rfl (.inr h59)
  rw [or_iff_left h59, reread, dif_neg h59]
  constructor
  · intro h
    exact (congrArg nanos h) ▸ t.shownNanos_lt
  · intro h
    simp only [t.shownSecond_of_lt h, t.shownNanos_of_lt h]

/-- The instant of a local time with no offset. -/
theorem ofLocal_zero : t.ofLocal 0 = t := by
  have hhour := t.hour_lt
  have hminute := t.minute_lt
  have hday : ¬ ((t.hour * 60 + t.minute : Nat) : Int) < 0 := by omega
  have hday' : ¬ (minutesPerDay : Int) ≤ (t.hour * 60 + t.minute : Nat) := by
    simp only [minutesPerDay]
    omega
  have hofDay : (((t.hour * 60 + t.minute : Nat) : Int) % minutesPerDay).toNat =
      t.hour * 60 + t.minute := by
    simp only [minutesPerDay]
    omega
  simp only [ofLocal, atMinute, Int.sub_zero, if_neg hday, if_neg hday', hofDay]
  obtain ⟨date, hour, minute, second, nanos, -, -, -, -⟩ := t
  congr 1
  · change (hour * 60 + minute) / 60 = hour
    omega
  · change (hour * 60 + minute) % 60 = minute
    omega

end Instant

namespace Timestamp

variable {width n : Nat} {c : Char} {rest : List Char}

/-! ### Numbers of a given width -/

theorem readDigits_padded (hwidth : 0 < width) (h : n < 10 ^ width) (rest : List Char) :
    readDigits width (Text.padded width n ++ rest) = some (n, rest) := by
  have hlength := Text.length_padded hwidth h
  have hall : (Text.padded width n).all Char.isDigit = true :=
    List.all_eq_true.mpr fun _ hc => Text.isDigit_of_mem_padded hc
  rw [readDigits, List.take_left' hlength, List.drop_left' hlength, if_pos ⟨hlength, hall⟩,
    Text.ofDigitChars_padded]

theorem readDigits_cons_eq_none (hdigit : c.isDigit = false) (cs : List Char) :
    readDigits (width + 1) (c :: cs) = none := by
  simp [readDigits, hdigit]

/-! ### The fraction -/

/-- Up to nine digits behind a point count tenths, hundredths and so on. -/
theorem readFraction_padded (hwidth : 0 < width) (hnine : width ≤ 9) (h : n < 10 ^ width)
    (hrest : ∀ c ∈ rest.head?, c.isDigit = false) :
    readFraction ('.' :: (Text.padded width n ++ rest)) = some (n * 10 ^ (9 - width), rest) := by
  have hlength := Text.length_padded hwidth h
  have hdigits : ∀ c ∈ Text.padded width n, c.isDigit = true :=
    fun _ hc => Text.isDigit_of_mem_padded hc
  have htake : rest.takeWhile Char.isDigit = [] := by cases rest <;> simp_all
  have hdrop : rest.dropWhile Char.isDigit = rest := by cases rest <;> simp_all
  have hkept : (Text.padded width n).take 9 = Text.padded width n :=
    List.take_of_length_le (hlength.trans_le hnine)
  rw [readFraction, List.takeWhile_append_of_pos hdigits, List.dropWhile_append_of_pos hdigits,
    htake, hdrop, List.append_nil, if_neg Text.padded_ne_nil, nanosOfFraction, hkept, hlength,
    Text.ofDigitChars_padded]
  rfl

/-- A fraction is read back, in front of what is neither a digit nor a point. -/
theorem readFraction_writeFraction {nanos : Nat} (h : nanos < 1000000000)
    (hrest : ∀ c ∈ rest.head?, c.isDigit = false ∧ c ≠ '.') :
    readFraction (writeFraction nanos ++ rest) = some (nanos, rest) := by
  have hdigit : ∀ c ∈ rest.head?, c.isDigit = false := fun c hc => (hrest c hc).1
  unfold writeFraction
  split_ifs with hzero hmillis hmicros
  · subst hzero
    unfold readFraction
    split
    · rename_i cs heq
      exact absurd rfl (hrest '.' (by rw [List.nil_append] at heq; simp [heq])).2
    · rfl
  -- What is left are three, six and nine digits.
  all_goals
    rw [List.cons_append, readFraction_padded (by decide) (by decide) (by omega) hdigit]
    congr 2
    omega

/-! ### Dates, times of day and whole times -/

/-- A date whose year has four digits is read back. -/
theorem readDate_write {date : Date} (hlow : 0 ≤ date.year) (hhigh : date.year ≤ 9999)
    (rest : List Char) :
    readDate (Text.padded 4 date.year.toNat ++ '-' :: (Text.padded 2 date.month ++
      '-' :: (Text.padded 2 date.day ++ rest))) = some (date, rest) := by
  have hyear : ((date.year.toNat : Nat) : Int) = date.year := Int.toNat_of_nonneg hlow
  have hmonth := date.month_le
  have hday : date.day ≤ 31 := date.day_le.trans (by unfold daysInMonth; split_ifs <;> decide)
  simp [readDate, readDigits_padded, skip, hyear, Date.of?_self,
    show date.year.toNat < 10000 by omega, show date.month < 100 by omega,
    show date.day < 100 by omega]

/-- A time of day is read from what clocks show, in front of what is neither a digit nor a
point. -/
theorem readTime_write (t : Instant) (hrest : ∀ c ∈ rest.head?, c.isDigit = false ∧ c ≠ '.') :
    readTime t.date (Text.padded 2 t.hour ++ ':' :: (Text.padded 2 t.minute ++
      ':' :: (Text.padded 2 t.shownSecond ++ (writeFraction t.shownNanos ++ rest)))) =
        some (t.reread, rest) := by
  have hhour := t.hour_lt
  have hminute := t.minute_lt
  have hsecond := t.shownSecond_le.trans t.second_lt
  simp [readTime, readDigits_padded, skip, readFraction_writeFraction t.shownNanos_lt hrest,
    t.ofShown?_shown, show t.hour < 100 by omega, show t.minute < 100 by omega,
    show t.shownSecond < 100 by omega]

/-- A written time is read if its year has four digits, and is not read otherwise. -/
theorem read?_write (t : Instant) :
    read? (write utcOffset t) =
      if 0 ≤ t.date.year ∧ t.date.year ≤ 9999 then some t.reread else none := by
  have hform : writeChars utcOffset t =
      writeYear t.date.year ++ '-' :: (Text.padded 2 t.date.month ++
        '-' :: (Text.padded 2 t.date.day ++ 'T' :: (Text.padded 2 t.hour ++
          ':' :: (Text.padded 2 t.minute ++ ':' :: (Text.padded 2 t.shownSecond ++
            (writeFraction t.shownNanos ++ utcOffset)))))) := by
    simp [writeChars]
  rw [read?, write, String.toList_ofList, hform, writeYear]
  split_ifs with hyear hnegative
  · have hoffset : readOffset utcOffset = some 0 := rfl
    have hrest : ∀ c ∈ utcOffset.head?, c.isDigit = false ∧ c ≠ '.' := by
      rintro c ⟨⟩
      decide
    rw [ofChars?, readDate_write hyear.1 hyear.2]
    simp [skipSeparator, readTime_write t hrest, hoffset, Instant.ofLocal_zero]
  -- A sign in front of the year is no digit.
  · simp [ofChars?, readDate, readDigits_cons_eq_none]
  · simp [ofChars?, readDate, readDigits_cons_eq_none]

end Timestamp

end StatusBoard
