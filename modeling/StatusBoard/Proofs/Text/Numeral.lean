import StatusBoard.Text.Numeral
import Mathlib.Data.Nat.Digits.Defs
import Mathlib.Tactic.Ring

/-!
# Padded numerals

A padded numeral is read back as its number. Among numbers that fit the width the order of
the texts is the order of the numbers, whatever follows the numerals. Beyond the width this
still holds for two numbers that differ in the last digit only, but the first numeral that is
longer than the width comes before the last one that fits.

## Main results

* `unsignedOfChars?_padded` — a padded 64-bit number is read back
* `padded_append_lt` — the order of numerals that fit the width
* `padded_append_lt_of_tens_eq` — the order of numerals with the same tens
* `padded_append_lt_of_rollover` — the order of the numerals at the end of the width
-/

namespace StatusBoard.Text

variable {w n m : Nat}

theorem isDigit_of_mem_toDigits {c : Char} (h : c ∈ Nat.toDigits 10 n) : c.isDigit = true :=
  Nat.isDigit_of_mem_toDigits (by decide) (by decide) h

theorem isDigit_of_mem_padded {c : Char} (h : c ∈ padded w n) : c.isDigit = true := by
  rcases List.mem_append.mp h with h | h
  · obtain rfl := List.eq_of_mem_replicate h
    rfl
  · exact isDigit_of_mem_toDigits h

theorem padded_ne_nil : padded w n ≠ [] := by
  simp [padded, Nat.toDigits_ne_nil]

theorem length_padded (hw : 0 < w) (h : n < 10 ^ w) : (padded w n).length = w := by
  have hlength := Nat.toDigits_length 10 n w hw h
  rw [padded, List.length_append, List.length_replicate]
  omega

/-- Zeros in front do not change the value. -/
theorem ofDigitChars_padded : Nat.ofDigitChars 10 (padded w n) 0 = n := by
  have hzeros : ∀ k, Nat.ofDigitChars 10 (List.replicate k '0') 0 = 0 := by
    intro k
    induction k with
    | zero => rfl
    | succ k ih => exact ih
  rw [padded, Nat.ofDigitChars_append, hzeros]
  exact Nat.ofDigitChars_toDigits (by decide) (by decide)

theorem unsignedOfChars?_padded (h : n < wordSize) : unsignedOfChars? (padded w n) = some n := by
  have hdigits : digits? (padded w n) = some n := by
    have hall : (padded w n).all Char.isDigit = true :=
      List.all_eq_true.mpr fun _ hc => isDigit_of_mem_padded hc
    rw [digits?, if_pos ⟨padded_ne_nil, hall⟩, ofDigitChars_padded]
    exact if_pos h
  unfold unsignedOfChars?
  split
  · -- A numeral does not start with a sign.
    rename_i cs heq
    have hplus : '+'.isDigit = true :=
      isDigit_of_mem_padded (w := w) (n := n) (heq ▸ List.mem_cons_self)
    exact absurd hplus (by decide)
  · exact hdigits

/-! ### The order of numerals -/

theorem digitChar_lt_digitChar (h : n < m) (hm : m < 10) : n.digitChar < m.digitChar := by
  have hall : ∀ m < 10, ∀ n < m, n.digitChar < m.digitChar := by decide
  exact hall m hm n h

/-- The last digit of a padded numeral, and the numeral before it. -/
theorem padded_succ (hw : 0 < w) :
    padded (w + 1) n = padded w (n / 10) ++ [(n % 10).digitChar] := by
  by_cases hn : n < 10
  · rw [Nat.div_eq_of_lt hn, Nat.mod_eq_of_lt hn, padded, padded, Nat.toDigits_of_lt_base hn,
      Nat.toDigits_of_lt_base (by decide : 0 < 10)]
    obtain ⟨k, rfl⟩ : ∃ k, w = k + 1 := ⟨w - 1, by omega⟩
    simp [List.replicate_succ']
  · have hsplit : Nat.toDigits 10 n = Nat.toDigits 10 (n / 10) ++ [(n % 10).digitChar] := by
      have hmod : n % 10 < 10 := Nat.mod_lt _ (by decide)
      rw [← Nat.toDigits_of_lt_base hmod,
        Nat.toDigits_append_toDigits (by decide) (by omega) hmod, Nat.div_add_mod]
    rw [padded, padded, hsplit]
    simp [Nat.add_sub_add_right]

/-- A smaller number with the same tens has a smaller numeral, also beyond the width. -/
theorem padded_append_lt_of_tens_eq (hw : 0 < w) (h : n < m) (htens : n / 10 = m / 10)
    (t t' : List Char) : padded (w + 1) n ++ t < padded (w + 1) m ++ t' := by
  rw [padded_succ hw, padded_succ hw, htens, List.append_assoc, List.append_assoc]
  -- The last digits are the first to differ.
  refine List.append_left_lt (List.cons_lt_cons_iff.mpr (.inl ?_))
  exact digitChar_lt_digitChar (by omega) (by omega)

/-- A smaller number has a smaller numeral, if both fit the width. -/
theorem padded_append_lt (hw : 0 < w) (h : n < m) (hm : m < 10 ^ w) (t t' : List Char) :
    padded w n ++ t < padded w m ++ t' := by
  induction w, hw using Nat.le_induction generalizing n m t t' with
  | base =>
    have hone : ∀ k < 10, padded 1 k = [k.digitChar] := fun k hk => by
      simp [padded, Nat.toDigits_of_lt_base hk]
    rw [pow_one] at hm
    rw [hone n (by omega), hone m hm]
    exact List.cons_lt_cons_iff.mpr (.inl (digitChar_lt_digitChar h hm))
  | succ w hw ih =>
    rcases Nat.lt_or_ge (n / 10) (m / 10) with htens | htens
    · rw [padded_succ hw, padded_succ hw, List.append_assoc, List.append_assoc]
      exact ih htens (by rw [pow_succ] at hm; omega) _ _
    · exact padded_append_lt_of_tens_eq hw h (by omega) t t'

/-- The first number beyond the width has a smaller numeral than the last one that fits. -/
theorem padded_append_lt_of_rollover (hw : 0 < w) (t t' : List Char) :
    padded w (10 ^ w) ++ t < padded w (10 ^ w - 1) ++ t' := by
  induction w, hw using Nat.le_induction generalizing t t' with
  | base => exact List.cons_lt_cons_iff.mpr (.inl (by decide))
  | succ w hw ih =>
    have hpos : 0 < 10 ^ w := Nat.pow_pos (by decide)
    have htens : 10 ^ (w + 1) / 10 = 10 ^ w := by rw [pow_succ]; omega
    have htens' : (10 ^ (w + 1) - 1) / 10 = 10 ^ w - 1 := by rw [pow_succ]; omega
    rw [padded_succ hw, padded_succ hw, htens, htens', List.append_assoc, List.append_assoc]
    exact ih _ _

end StatusBoard.Text
