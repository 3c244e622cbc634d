import StatusBoard.Proofs.Marker.Index
import Mathlib.Data.List.Find

/-!
# Lookups and scans

A lookup by halving in the index of some markers gives what a scan over all the markers would
give: the least of those whose scores are not below the value. The order of the index leaves no
two markers equal that are not the same, so there is only one least marker, however often it was
given.

## Main definitions

* `Marker.IsLeastReaching` — the least marker whose score is not below a value

## Main results

* `find?_eq_some_iff_least` — the first element in order that satisfies a test
* `firstAtOrAbove_index_eq_some_iff`, `firstAtOrAbove_index_eq_none_iff` — the lookup as a scan
-/

namespace StatusBoard

open Binary64

/-- Of a list in order, a search from the left finds the least element that satisfies the test. -/
theorem find?_eq_some_iff_least {α : Type} {le : α → α → Bool} (refl : ∀ a, le a a = true)
    (antisymm : ∀ a b, le a b = true → le b a = true → a = b) {xs : List α}
    (hsorted : xs.Pairwise fun a b => le a b = true) (test : α → Bool) (x : α) :
    xs.find? test = some x ↔
      x ∈ xs ∧ test x = true ∧ ∀ y ∈ xs, test y = true → le x y = true := by
  induction xs with
  | nil => simp
  | cons first rest ih =>
    obtain ⟨hfirst, hrest⟩ := List.pairwise_cons.mp hsorted
    by_cases htest : test first = true
    · rw [List.find?_cons_of_pos htest, Option.some.injEq]
      constructor
      · rintro rfl
        refine ⟨List.mem_cons_self, htest, fun y hy _ => ?_⟩
        rcases List.mem_cons.mp hy with rfl | hy
        · exact refl y
        · exact hfirst y hy
      · rintro ⟨hx, -, hleast⟩
        have hle : le x first = true := hleast first List.mem_cons_self htest
        rcases List.mem_cons.mp hx with rfl | hx
        · rfl
        · exact antisymm first x (hfirst x hx) hle
    · rw [List.find?_cons_of_neg htest, ih hrest]
      -- The first element fails the test, so it is neither found nor compared.
      constructor
      · rintro ⟨hx, hxtest, hleast⟩
        refine ⟨List.mem_cons_of_mem first hx, hxtest, fun y hy hytest => ?_⟩
        rcases List.mem_cons.mp hy with rfl | hy
        · exact absurd hytest htest
        · exact hleast y hy hytest
      · rintro ⟨hx, hxtest, hleast⟩
        refine ⟨?_, hxtest, fun y hy => hleast y (List.mem_cons_of_mem first hy)⟩
        rcases List.mem_cons.mp hx with rfl | hx
        · exact absurd hxtest htest
        · exact hx

namespace Marker

/-- The marker is the least of some given ones whose scores are not below a value. -/
structure IsLeastReaching (given : List Marker) (value : Binary64) (m : Marker) : Prop where
  mem : m ∈ given
  reaches : value.atMost m.score = true
  least : ∀ n ∈ given, value.atMost n.score = true → m.le n = true

theorem le_refl (m : Marker) : m.le m = true := or_self_iff.mp (le_total m m)

end Marker

variable {given : List Marker} {value : Binary64} (hnumber : ∀ m ∈ given, m.score.IsNumber)
  (hv : value.IsNumber)

include hnumber hv

/-- A lookup is a search through the index for a score that is not below the value. -/
theorem firstAtOrAbove_index_eq_find? :
    firstAtOrAbove (Marker.index given) value =
      (Marker.index given).find? fun m => value.atMost m.score := by
  have hscores : ∀ m ∈ Marker.index given, m.score.IsNumber := fun m hm =>
    hnumber m ((Marker.index_perm given).mem_iff.mp hm)
  rw [firstAtOrAbove_eq_find? (Marker.pairwise_index given) hscores hv]
  refine List.find?_congr fun m hm => ?_
  rw [Bool.eq_iff_iff, Bool.not_eq_true', Bool.eq_false_iff, Ne,
    ← not_atMost_iff_below (hscores m hm) hv, not_not]

/-- A lookup finds the least of the given markers that reach the value. -/
theorem firstAtOrAbove_index_eq_some_iff (m : Marker) :
    firstAtOrAbove (Marker.index given) value = some m ↔
      Marker.IsLeastReaching given value m := by
  rw [firstAtOrAbove_index_eq_find? hnumber hv,
    find?_eq_some_iff_least Marker.le_refl (fun _ _ => Marker.le_antisymm)
      (Marker.pairwise_index given)]
  simp only [(Marker.index_perm given).mem_iff]
  exact ⟨fun ⟨hmem, hreaches, hleast⟩ => ⟨hmem, hreaches, hleast⟩,
    fun h => ⟨h.mem, h.reaches, h.least⟩⟩

/-- A lookup finds nothing iff all scores are below the value. -/
theorem firstAtOrAbove_index_eq_none_iff :
    firstAtOrAbove (Marker.index given) value = none ↔
      ∀ m ∈ given, ¬ value.atMost m.score = true := by
  rw [firstAtOrAbove_index_eq_find? hnumber hv, List.find?_eq_none]
  simp only [(Marker.index_perm given).mem_iff]

end StatusBoard
