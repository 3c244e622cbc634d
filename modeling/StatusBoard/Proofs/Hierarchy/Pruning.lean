import StatusBoard.Proofs.Hierarchy.Visit

/-!
# Exact pruning

With a source that has records of every subject, a visit keeps a tree iff some node of it
passes the filter itself, and leaves the tree without the subtrees that are not kept.

## Main results

* `Subject.visit_prunes` — the outcome of a visit, field by field
-/

namespace StatusBoard.Subject

variable (filter : FilterSpec) (records : String → List Fields)

theorem visit_total (root : Subject) (asked : List String) :
    (visit (.total records) filter root).runFrom asked =
      (.ok (root.visited filter records), asked ++ root.reads filter) :=
  runFrom_visit_of_ok asked fun path _ => ⟨records path, rfl⟩

theorem materialize_total (policy : DepthPolicy) (requested : Option Nat) (root : Subject)
    (asked : List String) :
    (materialize policy (.total records) filter requested root).runFrom asked =
      (.ok (if root.kept filter records then
        some ((root.pruned filter records).within (policy.effective requested)) else none),
        asked ++ root.reads filter) :=
  runFrom_materialize_of_ok asked (fun path _ => ⟨records path, rfl⟩) policy requested

/-- If all records can be read, a visit keeps a tree iff some node of it passes the filter
itself, and gives the tree without the subtrees that are not kept, each node with its samples
that pass. There is no answer iff no node passes. The samples that the tree comes with do not
matter. -/
theorem visit_prunes (root : Subject) (asked : List String) :
    ∃ v, ((visit (.total records) filter root).runFrom asked).1 = .ok v ∧
      (v.keep = true ↔ ∃ n ∈ root.nodes, n.ownMatches filter records = true) ∧
      v.node = root.pruned filter records ∧
      v.matched = root.ownMatches filter records ∧
      (v.keptDescendant = true ↔
        ∃ c ∈ root.children, ∃ n ∈ c.nodes, n.ownMatches filter records = true) ∧
      (∀ policy requested,
        ((materialize policy (.total records) filter requested root).runFrom asked).1 = .ok none ↔
          ∀ n ∈ root.nodes, n.ownMatches filter records = false) ∧
      visit (.total records) filter root.bare = visit (.total records) filter root ∧
      (∀ policy requested, materialize policy (.total records) filter requested root.bare =
        materialize policy (.total records) filter requested root) := by
  have hbare := visit_bare (.total records) filter root
  refine ⟨root.visited filter records, by rw [visit_total], ?_, rfl, rfl, ?_, ?_, hbare,
    fun policy requested => by rw [materialize, materialize, hbare]⟩
  · rw [keep_visited, kept_iff]
  · rw [visited, List.any_eq_true]
    simp only [kept_iff]
  · intro policy requested
    rw [materialize_total]
    by_cases hkept : root.kept filter records = true
    · obtain ⟨n, hn, hmatches⟩ := kept_iff.mp hkept
      simp only [if_pos hkept, Except.ok.injEq, reduceCtorEq, false_iff]
      intro hnone
      simp [hnone n hn] at hmatches
    · have hnone : ∀ n ∈ root.nodes, n.ownMatches filter records = false := by
        simpa [kept_iff] using hkept
      simp only [if_neg hkept, true_iff]
      exact hnone

end StatusBoard.Subject
