import StatusBoard.Filter.Dimension
import StatusBoard.Proofs.Text.Blank
import StatusBoard.Proofs.Text.Lowercase
import Mathlib.Data.List.Sort

/-!
# Texts of a dimension

A dimension keeps of each text the lowercase form of what is between the blanks at its ends, if
anything is there. So lists of texts that leave the same make one dimension, and it does not
matter whether the texts are trimmed before.

## Main definitions

* `Dimension.SameText` — two texts leave the same

## Main results

* `mem_normalize` — the texts that are kept
* `normalize_congr` — lists that leave the same
* `normalize_trimmed` — texts that are trimmed before
-/

namespace StatusBoard

/-! ### Sets of texts -/

theorem TextSet.ext_mem {s t : TextSet} (h : ∀ x, x ∈ s ↔ x ∈ t) : s = t := by
  cases s with
  | mk members ascending =>
    cases t with
    | mk members' ascending' =>
      obtain rfl : members = members' := ascending.eq_of_mem_iff ascending' h
      rfl

namespace Dimension

/-! ### Normal texts -/

section Normal

variable {ts ts' : List String}

theorem trim_ofList (cs : List Char) :
    Text.trim (String.ofList cs) = String.ofList (Text.trimChars cs) := by
  rw [Text.trim, String.toList_ofList]

/-- What is left of a text is empty iff the text holds nothing but blanks. -/
theorem lowercase_trim_eq_empty_iff {t : String} :
    Text.lowercase (Text.trim t) = "" ↔ Text.Blank t := by
  rw [Text.lowercase_eq_empty_iff, Text.trim, ← String.toList_inj, String.toList_ofList]
  exact Text.trimChars_eq_nil_iff

theorem mem_normalize {x : String} :
    x ∈ normalize ts ↔ ∃ t ∈ ts, ¬ Text.Blank t ∧ Text.lowercase (Text.trim t) = x := by
  simp only [normalize, TextSet.mem_ofList, List.mem_filter, List.mem_map, decide_eq_true_eq]
  constructor
  · rintro ⟨⟨t, ht, rfl⟩, hne⟩
    exact ⟨t, ht, mt lowercase_trim_eq_empty_iff.mpr hne, rfl⟩
  · rintro ⟨t, ht, hblank, rfl⟩
    exact ⟨⟨t, ht, rfl⟩, mt lowercase_trim_eq_empty_iff.mp hblank⟩

/-- Two texts that leave the same. -/
def SameText (t t' : String) : Prop :=
  Text.lowercase (Text.trim t) = Text.lowercase (Text.trim t')

theorem SameText.blank_iff {t t' : String} (h : SameText t t') :
    Text.Blank t ↔ Text.Blank t' := by
  rw [← lowercase_trim_eq_empty_iff, h, lowercase_trim_eq_empty_iff]

/-- If what each text of a list leaves is left by some text of another, and the other way round,
the lists give one set. -/
theorem normalize_congr (h : ∀ t ∈ ts, ∃ t' ∈ ts', SameText t t')
    (h' : ∀ t' ∈ ts', ∃ t ∈ ts, SameText t t') : normalize ts = normalize ts' := by
  refine TextSet.ext_mem fun x => ?_
  simp only [mem_normalize]
  constructor
  · rintro ⟨t, ht, hblank, rfl⟩
    obtain ⟨t', ht', hsame⟩ := h t ht
    exact ⟨t', ht', mt hsame.blank_iff.mpr hblank, hsame.symm⟩
  · rintro ⟨t', ht', hblank, rfl⟩
    obtain ⟨t, ht, hsame⟩ := h' t' ht'
    exact ⟨t, ht, mt hsame.blank_iff.mp hblank, hsame⟩

theorem sameText_trimChars (cs : List Char) :
    SameText (String.ofList (Text.trimChars cs)) (String.ofList cs) := by
  rw [SameText, trim_ofList, trim_ofList, Text.trimChars_trimChars]

/-- It makes no difference whether texts are trimmed and rid of the empty ones before. -/
theorem normalize_trimmed (css : List (List Char)) :
    normalize (((css.map Text.trimChars).filter (· ≠ [])).map String.ofList) =
      normalize (css.map String.ofList) := by
  refine TextSet.ext_mem fun x => ?_
  simp only [mem_normalize, List.mem_map, List.mem_filter, decide_eq_true_eq]
  constructor
  · rintro ⟨_, ⟨_, ⟨⟨cs, hcs, rfl⟩, -⟩, rfl⟩, hblank, rfl⟩
    have hsame := sameText_trimChars cs
    exact ⟨_, ⟨cs, hcs, rfl⟩, mt hsame.blank_iff.mpr hblank, hsame.symm⟩
  · rintro ⟨_, ⟨cs, hcs, rfl⟩, hblank, rfl⟩
    have hsame := sameText_trimChars cs
    have hne : Text.trimChars cs ≠ [] := by
      simpa [Text.Blank, Text.trimChars_eq_nil_iff] using hblank
    exact ⟨_, ⟨_, ⟨⟨cs, hcs, rfl⟩, hne⟩, rfl⟩, mt hsame.blank_iff.mp hblank, hsame⟩

end Normal

end Dimension

end StatusBoard
