/-!
# Lists kept in order by insertion

## Main definitions

* `Ordered.insert` — insertion behind every element that does not come later
* `Ordered.sort` — a list in order, equal elements as they stood

## Main results

* `insert_perm`, `sort_perm` — nothing is lost and nothing is added
* `pairwise_insert`, `pairwise_sort` — the result is in order
* `sort_eq_self` — a list in order stays as it is
-/

namespace StatusBoard.Ordered

variable {α : Type} (le : α → α → Bool)

/-- Inserts an element behind the leading elements that are at most it. -/
def insert (x : α) : List α → List α
  | [] => [x]
  | y :: ys => if le y x then y :: insert x ys else x :: y :: ys

/-- The list in order; equal elements keep their order. -/
def sort (xs : List α) : List α := xs.foldl (fun sorted x => insert le x sorted) []

theorem insert_perm (x : α) (ys : List α) : (insert le x ys).Perm (x :: ys) := by
  induction ys with
  | nil => exact .refl _
  | cons y ys ih =>
    unfold insert
    split
    · exact (ih.cons y).trans (.swap x y ys)
    · exact .refl _

theorem mem_insert {x y : α} {ys : List α} : y ∈ insert le x ys ↔ y = x ∨ y ∈ ys := by
  rw [(insert_perm le x ys).mem_iff, List.mem_cons]

theorem sort_perm (xs : List α) : (sort le xs).Perm xs := by
  suffices h : ∀ acc, (xs.foldl (fun sorted x => insert le x sorted) acc).Perm (acc ++ xs) from
    h []
  induction xs with
  | nil => intro acc; simp
  | cons x xs ih =>
    intro acc
    exact (ih _).trans (((insert_perm le x acc).append_right xs).trans
      List.perm_middle.symm)

variable {le}

theorem pairwise_insert (total : ∀ a b, le a b ∨ le b a)
    (trans : ∀ a b c, le a b → le b c → le a c) (x : α) {ys : List α}
    (h : ys.Pairwise (fun a b => le a b)) : (insert le x ys).Pairwise (fun a b => le a b) := by
  induction ys with
  | nil => simp [insert]
  | cons y ys ih =>
    rw [List.pairwise_cons] at h
    unfold insert
    split
    · rename_i hyx
      refine List.pairwise_cons.mpr ⟨fun b hb => ?_, ih h.2⟩
      rcases (mem_insert le).mp hb with rfl | hb
      · exact hyx
      · exact h.1 b hb
    · rename_i hyx
      have hxy : le x y = true := (total x y).resolve_right hyx
      refine List.pairwise_cons.mpr ⟨fun b hb => ?_, List.pairwise_cons.mpr h⟩
      rcases List.mem_cons.mp hb with rfl | hb
      · exact hxy
      · exact trans _ _ _ hxy (h.1 b hb)

theorem pairwise_sort (total : ∀ a b, le a b ∨ le b a)
    (trans : ∀ a b c, le a b → le b c → le a c) (xs : List α) :
    (sort le xs).Pairwise (fun a b => le a b) := by
  suffices h : ∀ acc : List α, acc.Pairwise (fun a b => le a b) →
      (xs.foldl (fun sorted x => insert le x sorted) acc).Pairwise (fun a b => le a b) from
    h [] .nil
  induction xs with
  | nil => exact fun _ h => h
  | cons x xs ih => exact fun acc h => ih _ (pairwise_insert total trans x h)

theorem insert_of_forall_le {x : α} {ys : List α} (h : ∀ y ∈ ys, le y x) :
    insert le x ys = ys ++ [x] := by
  induction ys with
  | nil => rfl
  | cons y ys ih =>
    rw [insert, if_pos (h y (by simp)), ih fun z hz => h z (by simp [hz])]
    rfl

theorem sort_eq_self {xs : List α} (h : xs.Pairwise (fun a b => le a b)) : sort le xs = xs := by
  suffices hacc : ∀ acc : List α, (acc ++ xs).Pairwise (fun a b => le a b) →
      xs.foldl (fun sorted x => insert le x sorted) acc = acc ++ xs from hacc [] h
  clear h
  induction xs with
  | nil => intro acc _; simp
  | cons x xs ih =>
    intro acc hacc
    have hle : ∀ y ∈ acc, le y x := fun y hy =>
      (List.pairwise_append.mp hacc).2.2 y hy x (by simp)
    rw [List.foldl_cons, insert_of_forall_le hle, ih _ (by simpa using hacc)]
    simp

end StatusBoard.Ordered
