import StatusBoard.Text.Blank
import Mathlib.Data.List.DropRight

/-!
# Trimmed texts

Blanks at the ends of a text have no part in the trimmed text, which is empty iff the text holds
nothing but blanks. A text that starts with another character keeps it.

## Main definitions

* `Text.Blank` — a text holds nothing but blanks

## Main results

* `trimChars_eq_nil_iff` — what is trimmed to nothing
* `trimChars_append_left`, `trimChars_append_right` — blanks at the two ends
* `trimChars_trimChars` — trimming twice
* `trimChars_map` — replacing characters before or after trimming
-/

namespace StatusBoard.Text

/-- The text holds nothing but blanks. -/
def Blank (text : String) : Prop := ∀ c ∈ text.toList, isBlank c = true

instance (text : String) : Decidable (Blank text) :=
  decidable_of_iff (text.toList.all isBlank = true) List.all_eq_true

theorem trimChars_eq_nil_iff {cs : List Char} :
    trimChars cs = [] ↔ ∀ c ∈ cs, isBlank c = true := by
  rw [← List.dropWhile_eq_nil_iff]
  constructor
  · intro h
    have hall : ∀ c ∈ cs.dropWhile isBlank, isBlank c = true := List.rdropWhile_eq_nil_iff.mp h
    by_contra hne
    exact absurd (hall _ (List.head_mem hne)) (by simp [List.head_dropWhile_not])
  · intro h
    rw [trimChars, h]
    rfl

variable {blanks : List Char} (h : ∀ c ∈ blanks, isBlank c = true) (cs : List Char)

include h in
theorem trimChars_append_left : trimChars (blanks ++ cs) = trimChars cs := by
  rw [trimChars, List.dropWhile_append_of_pos h, trimChars]

include h in
theorem trimChars_append_right : trimChars (cs ++ blanks) = trimChars cs := by
  have hreverse : ∀ c ∈ blanks.reverse, isBlank c = true := fun c hc =>
    h c (List.mem_reverse.mp hc)
  rw [trimChars, List.dropWhile_append]
  split
  · rename_i hempty
    rw [trimChars, List.isEmpty_iff.mp hempty, List.dropWhile_eq_nil_iff.mpr h]
  · rw [List.reverse_append, List.dropWhile_append_of_pos hreverse, trimChars]

/-- Blanks that are taken off the end before make no difference. -/
theorem trimChars_rdropWhile : trimChars (cs.rdropWhile isBlank) = trimChars cs := by
  conv_rhs => rw [← List.rdropWhile_append_rtakeWhile (p := isBlank) (l := cs)]
  exact (trimChars_append_right (fun c hc => List.mem_rtakeWhile_imp hc) _).symm

theorem trimChars_trimChars : trimChars (trimChars cs) = trimChars cs := by
  change trimChars ((cs.dropWhile isBlank).rdropWhile isBlank) = trimChars cs
  rw [trimChars_rdropWhile, trimChars, List.dropWhile_idempotent, trimChars]

/-- Behind a first character that is no blank, only the end is trimmed. -/
theorem trimChars_cons {c : Char} (hc : isBlank c = false) :
    trimChars (c :: cs) = c :: cs.rdropWhile isBlank := by
  rw [trimChars, List.dropWhile_cons_of_neg (by simp [hc]), List.reverse_cons,
    List.dropWhile_append]
  split
  · rename_i hempty
    simp [List.rdropWhile, List.isEmpty_iff.mp hempty, hc]
  · simp [List.rdropWhile]

/-- Trimming does not see a replacement that keeps blanks apart from the other characters. -/
theorem trimChars_map {f : Char → Char} (hf : ∀ c, isBlank (f c) = isBlank c) :
    trimChars (cs.map f) = (trimChars cs).map f := by
  have hblank : isBlank ∘ f = isBlank := funext hf
  rw [trimChars, List.dropWhile_map, ← List.map_reverse, List.dropWhile_map, ← List.map_reverse,
    hblank, trimChars]

end StatusBoard.Text
