import StatusBoard.Proofs.Hierarchy.Visit
import StatusBoard.Store
import Mathlib.Data.List.Perm.Basic

/-!
# Exact reads

A visit asks for the records of the nodes whose tags pass, each of them once, and for those of
no other node. Whether a node matches, is pruned or lies below the depth of the answer is
decided from what was read, so none of this spares or costs a read. An answer and an accepted
query ask for what a visit asks for.

## Main definitions

* `Subject.askedPaths` — the paths of the nodes whose tags pass

## Main results

* `Subject.reads_perm` — the subjects that a visit asks for, up to their order
* `Subject.reads_exact` — what visits, answers and accepted queries ask for
-/

namespace StatusBoard

/-- Renaming its failures changes nothing of what a computation asks for. -/
theorem Fetch.runFrom_adapt {ε ε' α : Type} (asked : List String) (rename : ε → ε')
    (x : Fetch ε α) :
    Fetch.runFrom asked (x.adapt rename) =
      ((x.runFrom asked).1.mapError rename, (x.runFrom asked).2) := rfl

namespace Subject

/-- The paths of the nodes whose tags pass, one for each such node. -/
def askedPaths (entityTags : Option Dimension) (s : Subject) : List String :=
  (s.nodes.filter fun n => entityTags.all (·.acceptsAny n.tags)).map path

variable {filter : FilterSpec}

/-- The root adds its path if its tags pass. -/
theorem askedPaths_eq (s : Subject) :
    s.askedPaths filter.entityTags =
      (if filter.acceptsSubject s.tags then [s.path] else []) ++
        s.children.flatMap (askedPaths filter.entityTags) := by
  have hbelow : s.children.flatMap (askedPaths filter.entityTags) =
      ((s.children.flatMap nodes).filter fun n =>
        filter.entityTags.all (·.acceptsAny n.tags)).map path := by
    rw [List.filter_flatMap, List.map_flatMap]
    rfl
  rw [hbelow, askedPaths, nodes_eq, List.filter_cons, FilterSpec.acceptsSubject]
  split <;> rfl

/-- A visit asks for a node after those below it, and so for the same nodes. -/
theorem reads_perm (s : Subject) : (s.reads filter).Perm (s.askedPaths filter.entityTags) := by
  induction s with
  | node path name tags children samples ih =>
    have hchildren : (readsOfAll filter children).Perm
        (children.flatMap (askedPaths filter.entityTags)) := by
      rw [readsOfAll_eq_flatMap]
      exact .flatMap_left children ih
    rw [reads, askedPaths_eq]
    exact (hchildren.append_right _).trans List.perm_append_comm

/-- If the records of the nodes whose tags pass can be read, then a visit, an answer of any depth
and an accepted query succeed. They all ask for the paths of these nodes, once for each of them
and for nothing else. The dimensions that look at samples have no part in it. -/
theorem reads_exact (source : RecordSource) (root : Subject) (asked : List String)
    (hreadable : ∀ n ∈ root.nodes, filter.acceptsSubject n.tags = true →
      ∃ records, source n.path = .ok records) :
    ∃ reads, reads.Perm (root.askedPaths filter.entityTags) ∧
      (∃ v, (visit source filter root).runFrom asked = (.ok v, asked ++ reads)) ∧
      (∀ policy depth, ∃ tree,
        (materialize policy source filter depth root).runFrom asked = (.ok tree, asked ++ reads)) ∧
      ∀ policy query, query.toSpec = .ok filter → ∃ tree,
        (answer policy source query root).runFrom asked = (.ok tree, asked ++ reads) := by
  have hreads : ∀ path ∈ root.reads filter, ∃ records, source path = .ok records := by
    intro path hpath
    obtain ⟨n, hn, haccepts, rfl⟩ := mem_reads_iff.mp hpath
    exact hreadable n hn haccepts
  have hanswer := runFrom_materialize_of_ok asked hreads
  refine ⟨root.reads filter, reads_perm root, ⟨_, runFrom_visit_of_ok asked hreads⟩,
    fun policy depth => ⟨_, hanswer policy depth⟩, fun policy query hquery => ?_⟩
  -- An accepted query is an answer of the depth that it asks for.
  rw [answer, hquery]
  exact ⟨_, by rw [Fetch.runFrom_adapt, hanswer policy query.depth]; rfl⟩

/-- A subject in production twice, once below itself. Below a subject under test, one more is in
production. -/
def shadowed : Subject :=
  (((leaf "db").withTags ["prod"]).withChild ((leaf "db").withTags ["prod"])).withChild
    (((leaf "db.test").withTags ["test"]).withChild ((leaf "db.test.copy").withTags ["Prod"]))

/-- The query for what is critical in production, without the levels below the children. -/
def criticalProduction : Query := ⟨some "prod", none, none, some "Critical", some 0⟩

/-- The filter of this query. -/
def criticalProductionFilter : FilterSpec where
  entityTags := some (.includeTexts ["prod"])
  severity := some (.includeTexts ["critical"])

/-- Nothing is critical in an empty store, but everything in production is asked for. -/
theorem reads_exact_shadowed :
    let source := Store.empty.sampleRecords
    (∀ n ∈ shadowed.nodes, criticalProductionFilter.acceptsSubject n.tags = true →
      ∃ records, source n.path = .ok records) ∧
    criticalProduction.toSpec = .ok criticalProductionFilter ∧
    ∃ reads, reads.Perm ["db", "db", "db.test.copy"] ∧ ∃ tree,
      (answer .standard source criticalProduction shadowed).runFrom [] = (.ok tree, reads) := by
  intro source
  have hreadable : ∀ n ∈ shadowed.nodes, criticalProductionFilter.acceptsSubject n.tags = true →
      ∃ records, source n.path = .ok records := fun n _ _ => ⟨_, rfl⟩
  have hquery : criticalProduction.toSpec = .ok criticalProductionFilter := by decide +kernel
  have hpaths : shadowed.askedPaths criticalProductionFilter.entityTags =
      ["db", "db", "db.test.copy"] := by decide +kernel
  obtain ⟨reads, hreads, -, -, hanswer⟩ := reads_exact source shadowed [] hreadable
  exact ⟨hreadable, hquery, reads, hpaths ▸ hreads, hanswer .standard _ hquery⟩

end Subject

end StatusBoard
