import StatusBoard.Binary64.Reader
import StatusBoard.Proofs.Binary64.Place
import StatusBoard.Proofs.Binary64.Shortest
import StatusBoard.Proofs.Text.Numeral
import Mathlib.Data.List.TakeWhile

/-!
# Reading written numbers

The positional text of a decimal is read back as that decimal. The shortest decimal rounds to its
number, and zeros and infinities have texts of their own, so every number is read back as it was
written, with its sign. The word for what is not a number is read as well.

## Main results

* `Decimal.ofChars?_positional` — the decimal that a positional text gives
* `ofChars?_toChars` — a number is read back
* `exists_ofChars?_toChars` — every written value is read
-/

namespace StatusBoard.Binary64

variable {whole fraction : List Char}

theorem ofDigitChars_append_zeros (cs : List Char) (k : Nat) :
    Nat.ofDigitChars 10 (cs ++ List.replicate k '0') 0 = Nat.ofDigitChars 10 cs 0 * 10 ^ k := by
  induction k with
  | zero => simp
  | succ k ih =>
    rw [List.replicate_succ', ← List.append_assoc, Nat.ofDigitChars_append, ih]
    change 10 * (Nat.ofDigitChars 10 cs 0 * 10 ^ k) + 0 = _
    ring

namespace Decimal

/-- Digits with no point. -/
theorem ofChars?_of_digits (hne : whole ≠ []) (hwhole : ∀ c ∈ whole, c.isDigit = true) :
    ofChars? whole = some ⟨Nat.ofDigitChars 10 whole 0, 0⟩ := by
  have htake : whole.takeWhile Char.isDigit = whole := List.takeWhile_eq_self_iff.mpr hwhole
  have hdrop : whole.dropWhile Char.isDigit = [] := List.dropWhile_eq_nil_iff.mpr hwhole
  simp [ofChars?, htake, hdrop, fractionPart, exponent?, hne]

/-- A decimal starts with a digit or a point. -/
theorem ofChars?_cons_eq_none {c : Char} (hdigit : c.isDigit = false) (hpoint : c ≠ '.')
    (cs : List Char) : ofChars? (c :: cs) = none := by
  have hfraction : fractionPart (c :: cs) = ([], c :: cs) := by
    unfold fractionPart
    split
    · simp_all
    · rfl
  simp [ofChars?, hdigit, hfraction]

/-- Digits on both sides of a point. -/
theorem ofChars?_of_point (hne : whole ≠ []) (hwhole : ∀ c ∈ whole, c.isDigit = true)
    (hfraction : ∀ c ∈ fraction, c.isDigit = true) :
    ofChars? (whole ++ '.' :: fraction) =
      some ⟨Nat.ofDigitChars 10 (whole ++ fraction) 0, -fraction.length⟩ := by
  have hpoint : '.'.isDigit = false := rfl
  have htake : (whole ++ '.' :: fraction).takeWhile Char.isDigit = whole := by
    simp [List.takeWhile_append_of_pos hwhole, hpoint]
  have hdrop : (whole ++ '.' :: fraction).dropWhile Char.isDigit = '.' :: fraction := by
    simp [List.dropWhile_append_of_pos hwhole, hpoint]
  have htake' : fraction.takeWhile Char.isDigit = fraction :=
    List.takeWhile_eq_self_iff.mpr hfraction
  have hdrop' : fraction.dropWhile Char.isDigit = [] := List.dropWhile_eq_nil_iff.mpr hfraction
  simp [ofChars?, htake, hdrop, fractionPart, htake', hdrop', exponent?, hne]

/-- A positional text is read as its decimal; zeros behind the digits are part of them. -/
theorem ofChars?_positional (digits : Nat) (exponent : Int) :
    ofChars? (positional digits exponent) =
      some (if 0 ≤ exponent then ⟨digits * 10 ^ exponent.toNat, 0⟩ else ⟨digits, exponent⟩) := by
  by_cases hexponent : 0 ≤ exponent
  · have hall : ∀ c ∈ Nat.toDigits 10 digits ++ List.replicate exponent.toNat '0',
        c.isDigit = true := by
      intro c hc
      rcases List.mem_append.mp hc with hc | hc
      · exact Text.isDigit_of_mem_toDigits hc
      · obtain rfl := List.eq_of_mem_replicate hc
        rfl
    rw [positional, if_pos hexponent, if_pos hexponent,
      ofChars?_of_digits (by simp [Nat.toDigits_ne_nil]) hall, ofDigitChars_append_zeros,
      Nat.ofDigitChars_toDigits (by decide) (by decide)]
  · obtain ⟨places, hplaces⟩ : ∃ places : Nat, exponent = -places :=
      ⟨(-exponent).toNat, by omega⟩
    -- The digits are padded to one more than the places, so there is one before the point.
    have hform : positional digits exponent =
        (Text.padded (places + 1) digits).take ((Text.padded (places + 1) digits).length - places)
          ++ '.' :: (Text.padded (places + 1) digits).drop
            ((Text.padded (places + 1) digits).length - places) := by
      rw [positional, if_neg hexponent, hplaces]
      simp [Text.padded]
    have hlength : places + 1 ≤ (Text.padded (places + 1) digits).length := by
      simp only [Text.padded, List.length_append, List.length_replicate]
      omega
    have hdigit : ∀ c ∈ Text.padded (places + 1) digits, c.isDigit = true :=
      fun c hc => Text.isDigit_of_mem_padded hc
    have hvalue := Text.ofDigitChars_padded (w := places + 1) (n := digits)
    rw [hform, if_neg hexponent, hplaces]
    generalize Text.padded (places + 1) digits = written at *
    rw [ofChars?_of_point, List.take_append_drop, hvalue, List.length_drop]
    · congr 3
      omega
    · exact List.ne_nil_of_length_pos (by rw [List.length_take]; omega)
    · exact fun c hc => hdigit c (List.mem_of_mem_take hc)
    · exact fun c hc => hdigit c (List.mem_of_mem_drop hc)

end Decimal

/-- Zeros behind the digits raise the power of ten. -/
theorem ofDecimal_mul_pow (negative : Bool) (digits exponent : Nat) :
    ofDecimal negative (digits * 10 ^ exponent) 0 = ofDecimal negative digits exponent := by
  simp [ofDecimal]

/-- A written magnitude is read back, with the sign that is put before it. -/
theorem ofUnsigned?_writeRank (negative : Bool) {rank : Nat} (h : rank ≤ infinityRank) :
    ofUnsigned? negative (writeRank rank) = some (number negative rank h) := by
  unfold writeRank
  split_ifs with hzero hinfinity
  · subst hzero
    have hnearest : nearestRank 0 1 = 0 := nearestRank_unitsOfRank 0
    have hread : Decimal.ofChars? ['0'] = some ⟨0, 0⟩ := by decide
    simp [ofUnsigned?, hread, ofDecimal, ofRatio, hnearest]
  · subst hinfinity
    rfl
  · have hrank : 0 < rank := Nat.pos_of_ne_zero hzero
    rw [ofUnsigned?, Decimal.ofChars?_positional,
      ← ofDecimal_shortest negative hrank (h.lt_of_ne hinfinity)]
    by_cases hexponent : 0 ≤ (shortest rank).2
    · obtain ⟨exponent, hexponent'⟩ := Int.eq_ofNat_of_zero_le hexponent
      simp [hexponent', ofDecimal_mul_pow]
    · simp [hexponent]

/-- A written magnitude starts with a digit, or with the `i` of infinity. -/
theorem writeRank_ne_cons {rank : Nat} {c : Char} (hdigit : c.isDigit = false) (hpoint : c ≠ '.')
    (hletter : c ≠ 'i') (cs : List Char) : writeRank rank ≠ c :: cs := by
  intro h
  unfold writeRank at h
  split at h
  · obtain ⟨rfl, -⟩ := List.cons.inj h
    simp at hdigit
  · split at h
    · exact hletter (List.cons.inj h).1.symm
    · have hread := Decimal.ofChars?_positional (shortest rank).1 (shortest rank).2
      rw [h, Decimal.ofChars?_cons_eq_none hdigit hpoint] at hread
      simp at hread

/-- The text of a magnitude has no sign, so it is read as one without. -/
theorem ofChars?_writeRank (rank : Nat) :
    ofChars? (writeRank rank) = ofUnsigned? false (writeRank rank) := by
  unfold ofChars?
  split
  · rename_i cs h
    exact absurd h (writeRank_ne_cons (by decide) (by decide) (by decide) cs)
  · rename_i cs h
    exact absurd h (writeRank_ne_cons (by decide) (by decide) (by decide) cs)
  · rfl

/-- A finite or infinite number is read back as it was written. -/
theorem ofChars?_toChars {x : Binary64} (hx : x.IsNumber) : ofChars? x.toChars = some x := by
  cases x with
  | number negative rank h =>
    cases negative with
    | true => exact ofUnsigned?_writeRank true h
    | false =>
      rw [toChars, ofChars?_writeRank]
      exact ofUnsigned?_writeRank false h
  | nan negative => exact absurd hx (by simp [IsNumber, key?])

/-- Every written value is read. -/
theorem exists_ofChars?_toChars (x : Binary64) : ∃ y, ofChars? x.toChars = some y := by
  cases x with
  | number negative rank h => exact ⟨_, ofChars?_toChars (isNumber_number negative rank h)⟩
  | nan negative => exact ⟨nan false, rfl⟩

end StatusBoard.Binary64
