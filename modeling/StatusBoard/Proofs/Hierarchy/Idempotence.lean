import StatusBoard.Proofs.Hierarchy.Pruning

/-!
# Pruning a pruned tree

A second visit with the same filter and the same records leaves the tree of the first one as it
is. It decides from tags and records alone, so the samples that the first visit attached have no
part in it; and a node that was kept for the sake of one below it is kept for that one again.

## Main results

* `kept_pruned` — pruning takes nothing that a tree is kept for
* `visited_pruned` — a pruned tree has the outcome of the tree it came from
* `visit_idempotent` — a visit of what a visit left
-/

namespace StatusBoard.Subject

variable {filter : FilterSpec} {records : String → List Fields}

theorem children_pruned (s : Subject) : (s.pruned filter records).children =
    (s.children.filter (kept filter records)).map (pruned filter records) := by
  cases s
  exact prunedAll_eq _

/-- A node passes a filter by its path and tags, which pruning leaves alone. -/
theorem ownMatches_pruned (s : Subject) :
    (s.pruned filter records).ownMatches filter records = s.ownMatches filter records := by
  cases s
  rfl

/-- If pruning takes nothing that the trees of a list are kept for, some tree is kept among
those that are left iff some tree of the list is. -/
theorem any_kept_map_pruned {trees : List Subject}
    (h : ∀ c ∈ trees, (c.pruned filter records).kept filter records = c.kept filter records) :
    ((trees.filter (kept filter records)).map (pruned filter records)).any (kept filter records) =
      trees.any (kept filter records) := by
  rw [Bool.eq_iff_iff, List.any_eq_true, List.any_eq_true]
  constructor
  · rintro ⟨_, hmem, hkept⟩
    obtain ⟨c, hc, rfl⟩ := List.mem_map.mp hmem
    obtain ⟨hc, -⟩ := List.mem_filter.mp hc
    exact ⟨c, hc, h c hc ▸ hkept⟩
  · rintro ⟨c, hc, hkept⟩
    refine ⟨c.pruned filter records, ?_, (h c hc).trans hkept⟩
    exact List.mem_map_of_mem (List.mem_filter.mpr ⟨hc, hkept⟩)

theorem kept_pruned (s : Subject) :
    (s.pruned filter records).kept filter records = s.kept filter records := by
  induction s with
  | node path name tags children samples ih =>
    rw [kept_eq, kept_eq, ownMatches_pruned, children_pruned, any_kept_map_pruned ih]

/-- A pruned tree is pruned already. -/
theorem pruned_pruned (s : Subject) :
    (s.pruned filter records).pruned filter records = s.pruned filter records := by
  induction s with
  | node path name tags children samples ih =>
    rw [pruned, pruned]
    -- The samples are read anew from the same records, so only the children are left to compare.
    congr 1
    rw [prunedAll_eq, prunedAll_eq, List.filter_map, List.map_map]
    have hagain : kept filter records ∘ pruned filter records = kept filter records :=
      funext kept_pruned
    rw [hagain, List.filter_filter]
    simp only [Bool.and_self]
    apply List.map_congr_left
    intro c hc
    exact ih c (List.mem_filter.mp hc).1

theorem visited_pruned (s : Subject) :
    (s.pruned filter records).visited filter records = s.visited filter records := by
  have hbelow : (s.pruned filter records).children.any (kept filter records) =
      s.children.any (kept filter records) := by
    rw [children_pruned]
    exact any_kept_map_pruned fun c _ => kept_pruned c
  rw [visited, visited, pruned_pruned, ownMatches_pruned, hbelow]

variable (filter records)

/-- If all records can be read, a visit of the tree that a visit left has the same outcome: the
same tree, with its root matching or not and with kept children or without as before. So the
root is kept again if it was kept. -/
theorem visit_idempotent (root : Subject) (asked asked' : List String) :
    ∃ v, ((visit (.total records) filter root).runFrom asked).1 = .ok v ∧
      ((visit (.total records) filter v.node).runFrom asked').1 = .ok v := by
  refine ⟨root.visited filter records, ?_, ?_⟩
  · rw [visit_total]
  · rw [visit_total]
    change Except.ok ((root.pruned filter records).visited filter records) = _
    rw [visited_pruned]

end StatusBoard.Subject
