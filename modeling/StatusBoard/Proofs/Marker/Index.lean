import StatusBoard.Marker.Index
import StatusBoard.Proofs.Binary64.Place
import Mathlib.Data.List.TakeWhile

/-!
# Lookup by halving

Halving finds how many leading elements satisfy a test, if those that do come first. In an
index the scores below a value come first, since the total order of the scores refines the
numeric one. So a lookup gives the first marker whose score is not below the value, as a search
from the left would.

## Main results

* `partitionPoint_append` — the number of leading elements
* `firstAtOrAbove_eq_find?` — the lookup as a search from the left
-/

namespace StatusBoard

open Binary64

/-! ### Halving -/

section Halving

/-- Halving keeps the first place that fails the test within reach: it is the place that is
left, or the next one. -/
theorem narrow_spec {test : Nat → Bool} {base size leading : Nat}
    (hlow : base = 0 ∨ base < leading) (hhigh : leading ≤ base + size)
    (htest : ∀ i < base + size, test i = decide (i < leading)) :
    (narrow test base size = 0 ∨ narrow test base size < leading) ∧
      leading ≤ narrow test base size + 1 := by
  -- The two bounds on `leading` are the invariant of halving.
  fun_induction narrow test base size with
  | case1 base size hsize => exact ⟨hlow, by omega⟩
  | case2 base size hsize half ih =>
    simp only [dite_eq_ite] at ih
    have hhalf : test (base + half) = decide (base + half < leading) := htest _ (by omega)
    by_cases hupper : base + half < leading
    · have htrue : test (base + half) = true := by rw [hhalf, decide_eq_true hupper]
      rw [if_pos htrue] at ih ⊢
      exact ih (Or.inr hupper) (by omega) fun i hi => htest i (by omega)
    · have hfalse : ¬ test (base + half) = true := by simp [hhalf, hupper]
      rw [if_neg hfalse] at ih ⊢
      exact ih hlow (by omega) fun i hi => htest i (by omega)

variable {α : Type} {test : α → Bool} {as bs : List α}

/-- If exactly the elements of a front part satisfy the test, halving finds its length. -/
theorem partitionPoint_append (has : ∀ a ∈ as, test a = true) (hbs : ∀ b ∈ bs, test b = false) :
    partitionPoint test (as ++ bs) = as.length := by
  have htest : ∀ i < (as ++ bs).length,
      ((as ++ bs)[i]?).any test = decide (i < as.length) := by
    intro i hi
    by_cases hfront : i < as.length
    · rw [List.getElem?_append_left hfront, List.getElem?_eq_getElem hfront]
      simp [hfront, has]
    · rw [List.length_append] at hi
      have hback : i - as.length < bs.length := by omega
      rw [List.getElem?_append_right (by omega), List.getElem?_eq_getElem hback]
      simp [hfront, hbs]
  have hlength : as.length ≤ 0 + (as ++ bs).length := by simp
  -- The test by place is false behind the list, where there is nothing to test.
  let testAt := fun i : Nat => ((as ++ bs)[i]?).any test
  obtain ⟨hlow, hhigh⟩ : (narrow testAt 0 (as ++ bs).length = 0 ∨
      narrow testAt 0 (as ++ bs).length < as.length) ∧
      as.length ≤ narrow testAt 0 (as ++ bs).length + 1 :=
    narrow_spec (Or.inl rfl) hlength (by simpa [testAt] using htest)
  change (if testAt (narrow testAt 0 (as ++ bs).length) then
    narrow testAt 0 (as ++ bs).length + 1 else narrow testAt 0 (as ++ bs).length) = as.length
  generalize narrow testAt 0 (as ++ bs).length = last at hlow hhigh ⊢
  by_cases hlast : last < (as ++ bs).length
  · rw [show testAt last = decide (last < as.length) from htest last hlast]
    by_cases hfront : last < as.length
    · rw [if_pos (decide_eq_true hfront)]
      omega
    · rw [if_neg (by simpa using hfront)]
      omega
  · -- Nothing is left to halve only in the empty list.
    have hnone : testAt last = false := by simp [testAt, List.getElem?_eq_none (not_lt.mp hlast)]
    rw [if_neg (by simp [hnone])]
    rw [List.length_append] at hlast
    omega

end Halving

/-! ### The index -/

namespace Marker

variable {a b : Marker}

theorem totalKey_le_of_le (h : a.le b = true) : a.score.totalKey ≤ b.score.totalKey := by
  simp only [le, Bool.or_eq_true, Bool.and_eq_true, decide_eq_true_eq] at h
  omega

theorem le_antisymm (hab : a.le b = true) (hba : b.le a = true) : a = b := by
  simp only [le, Bool.or_eq_true, Bool.and_eq_true, decide_eq_true_eq] at hab hba
  obtain ⟨hscore, hlabel⟩ : a.score.totalKey = b.score.totalKey ∧ a.label = b.label := by
    rcases hab with hab | ⟨hscore, hab⟩
    · omega
    · rcases hba with hba | ⟨-, hba⟩
      · omega
      · exact ⟨hscore, Std.le_antisymm hab hba⟩
  cases a
  cases b
  exact congrArg₂ Marker.mk (totalKey_injective hscore) hlabel

theorem le_of_totalKey_lt (h : a.score.totalKey < b.score.totalKey) : a.le b = true := by
  simp [le, h]

theorem index_perm (given : List Marker) : (index given).Perm given := Ordered.sort_perm le given

theorem pairwise_index (given : List Marker) : (index given).Pairwise fun a b => a.le b = true :=
  Ordered.pairwise_sort le_total le_trans given

end Marker

variable {index : List Marker} {value : Binary64}

/-- Behind the scores below a value there are no others below it. -/
theorem below_eq_false_of_mem_dropWhile (hsorted : index.Pairwise fun a b => a.le b = true)
    (hnumber : ∀ m ∈ index, m.score.IsNumber) (hv : value.IsNumber) {m : Marker}
    (hm : m ∈ index.dropWhile fun m => m.score.below value) : m.score.below value = false := by
  induction index with
  | nil => simp at hm
  | cons first index ih =>
    obtain ⟨hfirst, hrest⟩ := List.forall_mem_cons.mp hnumber
    obtain ⟨hle, hsorted⟩ := List.pairwise_cons.mp hsorted
    rw [List.dropWhile_cons] at hm
    split at hm
    · exact ih hsorted hrest hm
    · rename_i hbelow
      rcases List.mem_cons.mp hm with rfl | hm
      · simpa using hbelow
      · -- The first score is not below the value, and a later one is at no lower place.
        have hplace := place_le_of_totalKey_le hfirst (hrest m hm)
          (Marker.totalKey_le_of_le (hle m hm))
        rw [below_iff_place hfirst hv] at hbelow
        rw [Bool.eq_false_iff, Ne, below_iff_place (hrest m hm) hv]
        omega

/-- In an index whose scores are numbers, the lookup finds the first marker whose score is not
below the value. -/
theorem firstAtOrAbove_eq_find? (hsorted : index.Pairwise fun a b => a.le b = true)
    (hnumber : ∀ m ∈ index, m.score.IsNumber) (hv : value.IsNumber) :
    firstAtOrAbove index value = index.find? fun m => !m.score.below value := by
  let below := fun m : Marker => m.score.below value
  have hsplit : index.takeWhile below ++ index.dropWhile below = index :=
    List.takeWhile_append_dropWhile
  have hpoint : partitionPoint below index = (index.takeWhile below).length := by
    conv_lhs => rw [← hsplit]
    exact partitionPoint_append (fun m hm => List.mem_takeWhile_imp hm)
      fun m hm => below_eq_false_of_mem_dropWhile hsorted hnumber hv hm
  calc firstAtOrAbove index value
      = (index.takeWhile below ++ index.dropWhile below)[(index.takeWhile below).length]? := by
        rw [hsplit, ← hpoint]
        rfl
    _ = (index.dropWhile below).head? := by
        rw [List.getElem?_append_right (Nat.le_refl _), Nat.sub_self, List.head?_eq_getElem?]
    _ = index.find? fun m => !m.score.below value := by
        rw [List.find?_eq_head?_dropWhile_not]
        simp [below]

end StatusBoard
