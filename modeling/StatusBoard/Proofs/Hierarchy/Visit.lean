import StatusBoard.Hierarchy
import StatusBoard.Proofs.Subject

/-!
# What a visit does

A visit first asks for the records of the nodes whose tags pass, each node after those below
it. If all of them can be read, the outcome is the tree without the subtrees in which no node
matches; nothing else is asked for, and the order of reading has no part in the outcome.

## Main definitions

* `RecordSource.fetchAll` — asking for the records of subjects in turn
* `Subject.reads` — the subjects that a visit asks for
* `Subject.ownMatches` — a node passes the filter itself
* `Subject.kept` — some node of a tree does
* `Subject.pruned` — the tree without the subtrees that are not kept
* `Subject.visited` — the outcome of a visit

## Main results

* `mem_reads_iff` — which subjects a visit asks for
* `visit_eq`, `materialize_eq` — a visit as its reads and its outcome
* `runFrom_visit_of_ok`, `runFrom_materialize_of_ok` — what comes of it if all can be read
* `visit_bare` — the samples that a tree comes with do not matter
-/

namespace StatusBoard

/-! ### Reading -/

namespace Fetch

variable {ε α β : Type}

/-- The outcome of a computation, and the subjects asked for with those before. -/
def runFrom (asked : List String) (x : Fetch ε α) : Except ε α × List String := x.run.run asked

theorem ext {x y : Fetch ε α} (h : ∀ asked, x.runFrom asked = y.runFrom asked) : x = y := funext h

theorem runFrom_pure (asked : List String) (a : α) :
    runFrom asked (pure a : Fetch ε α) = (.ok a, asked) := rfl

theorem runFrom_bind (asked : List String) (x : Fetch ε α) (f : α → Fetch ε β) :
    (x >>= f).runFrom asked =
      match x.runFrom asked with
      | (.ok a, asked) => (f a).runFrom asked
      | (.error e, asked) => (.error e, asked) := by
  change (match x asked with
    | (a, asked) => ExceptT.bindCont f a asked) = _
  unfold runFrom ExceptT.run StateT.run
  cases x asked with
  | mk outcome asked => cases outcome <;> rfl

end Fetch

namespace RecordSource

variable (source : RecordSource) (path : String)

/-- The records that a source has of a subject, which are none if it fails. -/
def recordsOf : List Fields :=
  match source path with
  | .ok records => records
  | .error _ => []

/-- Asks for the records of subjects in turn. -/
def fetchAll : List String → Fetch Outage Unit
  | [] => return ()
  | path :: rest => do
    let _ ← source.fetch path
    fetchAll rest

theorem runFrom_fetch (asked : List String) :
    (source.fetch path).runFrom asked = (source path, asked ++ [path]) := rfl

/-- If the records of a subject can be read, they are what the source has. -/
theorem fetch_bind {α : Type} (next : List Fields → Fetch Outage α) :
    (source.fetch path >>= next) = (do source.fetchAll [path]; next (source.recordsOf path)) := by
  refine Fetch.ext fun asked => ?_
  cases h : source path <;>
    simp [fetchAll, Fetch.runFrom_bind, runFrom_fetch, recordsOf, h]

theorem fetchAll_append (paths paths' : List String) :
    source.fetchAll (paths ++ paths') = (do source.fetchAll paths; source.fetchAll paths') := by
  induction paths with
  | nil => simp [fetchAll]
  | cons path rest ih => simp [fetchAll, ih]

variable {source} {α : Type} {paths : List String} (asked : List String) (a : α)

/-- If all records can be read, all are asked for. -/
theorem runFrom_fetchAll_of_ok (h : ∀ path ∈ paths, ∃ records, source path = .ok records) :
    (do source.fetchAll paths; return a : Fetch Outage α).runFrom asked =
      (.ok a, asked ++ paths) := by
  induction paths generalizing asked with
  | nil => simp [fetchAll, Fetch.runFrom_pure]
  | cons path rest ih =>
    obtain ⟨⟨records, hpath⟩, hrest⟩ := List.forall_mem_cons.mp h
    have hrun := ih (asked ++ [path]) hrest
    rw [List.append_assoc] at hrun
    rw [fetchAll, bind_assoc, Fetch.runFrom_bind, runFrom_fetch, hpath]
    exact hrun

/-- Reading fails iff some records cannot be read. -/
theorem exists_runFrom_fetchAll_eq_error_iff :
    (∃ outage, ((do source.fetchAll paths; return a : Fetch Outage α).runFrom asked).1 =
      .error outage) ↔ ∃ path ∈ paths, ∃ outage, source path = .error outage := by
  induction paths generalizing asked with
  | nil => simp [fetchAll, Fetch.runFrom_pure]
  | cons path rest ih =>
    rw [List.exists_mem_cons_iff, ← ih (asked ++ [path])]
    cases h : source path with
    | error outage => simp [fetchAll, Fetch.runFrom_bind, runFrom_fetch, h]
    | ok records => simp [fetchAll, Fetch.runFrom_bind, runFrom_fetch, h]

/-- A source that has records of every subject. -/
def total (records : String → List Fields) : RecordSource := fun path => .ok (records path)

end RecordSource

namespace Subject

/-! ### The outcome of a visit -/

section Outcome

variable (filter : FilterSpec) (records : String → List Fields)

/-- The samples of a node: those of its readable records that pass, in the order of the
records, if its tags pass. -/
def ownSamples (n : Subject) : List Sample :=
  if filter.acceptsSubject n.tags then
    (records n.path).filterMap fun fields =>
      match Sample.ofFields fields with
      | .ok s => if filter.acceptsSample s then some s else none
      | .error _ => none
  else []

/-- The node passes the filter itself: its tags pass, and unless the dimensions for samples are
unset some record can be read as a sample that passes. -/
def ownMatches (n : Subject) : Bool :=
  filter.acceptsSubject n.tags &&
    ((filter.metricName.isNone && filter.metricTags.isNone && filter.severity.isNone) ||
      (records n.path).any fun fields =>
        match Sample.ofFields fields with
        | .ok s => filter.acceptsSample s
        | .error _ => false)

/-- Some node of the tree passes the filter itself. -/
def kept (s : Subject) : Bool := s.nodes.any (ownMatches filter records)

mutual

/-- The tree without the subtrees that are not kept, and with the samples of its nodes. -/
def pruned : Subject → Subject
  | s@⟨path, name, tags, children, _⟩ =>
    ⟨path, name, tags, prunedAll children, ownSamples filter records s⟩

/-- The trees of a list that are kept, pruned. -/
def prunedAll : List Subject → List Subject
  | [] => []
  | s :: rest => if kept filter records s then pruned s :: prunedAll rest else prunedAll rest

end

/-- The outcome of a visit that can read all records. -/
def visited (s : Subject) : Visit :=
  ⟨s.pruned filter records, s.ownMatches filter records, s.children.any (kept filter records)⟩

variable {filter records} {s : Subject}

theorem prunedAll_eq (trees : List Subject) :
    prunedAll filter records trees =
      (trees.filter (kept filter records)).map (pruned filter records) := by
  induction trees with
  | nil => rfl
  | cons s rest ih =>
    rw [prunedAll, ih, List.filter_cons]
    split <;> rfl

theorem kept_iff : s.kept filter records = true ↔
    ∃ n ∈ s.nodes, n.ownMatches filter records = true := List.any_eq_true

/-- A tree is kept for its root or for one of its children. -/
theorem kept_eq (s : Subject) : s.kept filter records =
    (s.ownMatches filter records || s.children.any (kept filter records)) := by
  rw [kept, nodes_eq, List.any_cons, List.any_flatMap]
  rfl

theorem keep_visited (s : Subject) : (s.visited filter records).keep = s.kept filter records :=
  (kept_eq s).symm

theorem keptNodes_map_visited (trees : List Subject) :
    keptNodes (trees.map (visited filter records)) = prunedAll filter records trees := by
  have hkeep : Visit.keep ∘ visited filter records = kept filter records := funext keep_visited
  rw [keptNodes, List.filter_map, hkeep, List.map_map, prunedAll_eq]
  rfl

theorem isEmpty_prunedAll (trees : List Subject) :
    (prunedAll filter records trees).isEmpty = !trees.any (kept filter records) := by
  rw [prunedAll_eq, Bool.eq_iff_iff]
  simp [List.filter_eq_nil_iff]

/-- The samples of a node in one pass over its records. -/
theorem passingSamples_eq {n : Subject}
    (haccepts : filter.acceptsSubject n.tags = true) :
    passingSamples filter (records n.path) = n.ownSamples filter records := by
  rw [passingSamples, ownSamples, if_pos haccepts, List.filter_filterMap]
  refine List.filterMap_congr fun fields _ => ?_
  rw [Sample.ofFields?, Sample.ofFields]
  cases Sample.readFields fields with
  | error cause => rfl
  | ok s => rw [Except.toOption, Option.filter_some]

/-- If the tags of a node pass and the filter looks at samples, some sample has to pass. -/
theorem ownMatches_eq {n : Subject}
    (haccepts : filter.acceptsSubject n.tags = true) : n.ownMatches filter records =
      (!filter.filtersSamples || !(n.ownSamples filter records).isEmpty) := by
  rw [ownMatches, haccepts, Bool.true_and, ← filter.not_filtersSamples, ownSamples,
    if_pos haccepts]
  congr 1
  rw [Bool.eq_iff_iff, List.any_eq_true, Bool.not_eq_true', List.isEmpty_eq_false_iff_exists_mem]
  simp only [List.mem_filterMap]
  rw [exists_comm]
  refine exists_congr fun fields => ?_
  cases Sample.ofFields fields with
  | error fault => simp
  | ok s => simp

end Outcome

/-! ### The reads of a visit -/

section Reads

variable (filter : FilterSpec)

mutual

/-- The subjects that a visit asks for, in order. -/
def reads : Subject → List String
  | ⟨path, _, tags, children, _⟩ =>
    readsOfAll children ++ if filter.acceptsSubject tags then [path] else []

/-- The subjects that the visits of a list ask for, in order. -/
def readsOfAll : List Subject → List String
  | [] => []
  | s :: rest => reads s ++ readsOfAll rest

end

variable {filter} {source : RecordSource} {s : Subject}

theorem readsOfAll_eq_flatMap (trees : List Subject) :
    readsOfAll filter trees = trees.flatMap (reads filter) := by
  induction trees with
  | nil => rfl
  | cons s rest ih => rw [readsOfAll, ih, List.flatMap_cons]

/-- A visit asks for the nodes whose tags pass. -/
theorem mem_reads_iff {path : String} : path ∈ s.reads filter ↔
    ∃ n ∈ s.nodes, filter.acceptsSubject n.tags = true ∧ n.path = path := by
  induction s with
  | node p name tags children samples ih =>
    rw [exists_mem_nodes_iff, reads, List.mem_append, or_comm, readsOfAll_eq_flatMap]
    refine or_congr ?_ ?_
    · by_cases haccepts : filter.acceptsSubject tags = true <;>
        simp [haccepts, eq_comm (a := path)]
    · rw [List.mem_flatMap]
      exact exists_congr fun c => and_congr_right fun hc => ih c hc

end Reads

/-! ### A visit as its reads and its outcome -/

section Visits

variable (source : RecordSource) (filter : FilterSpec)

theorem attachSamples_eq (node : Subject) :
    attachSamples source filter node =
      (do source.fetchAll (if filter.acceptsSubject node.tags then [node.path] else [])
          return ({ node with samples := node.ownSamples filter source.recordsOf },
            node.ownMatches filter source.recordsOf)) := by
  rw [attachSamples]
  by_cases haccepts : filter.acceptsSubject node.tags = true
  · rw [if_pos haccepts, if_pos haccepts, source.fetch_bind]
    simp only [passingSamples_eq haccepts, ownMatches_eq haccepts]
  · rw [if_neg haccepts, if_neg haccepts]
    simp [RecordSource.fetchAll, ownSamples, ownMatches, haccepts]

theorem visitAll_eq {trees : List Subject}
    (h : ∀ s ∈ trees, visit source filter s =
      (do source.fetchAll (s.reads filter); return s.visited filter source.recordsOf)) :
    visitAll source filter trees =
      (do source.fetchAll (readsOfAll filter trees)
          return trees.map (visited filter source.recordsOf)) := by
  induction trees with
  | nil => simp [visitAll, readsOfAll, RecordSource.fetchAll]
  | cons s rest ih =>
    obtain ⟨hs, hrest⟩ := List.forall_mem_cons.mp h
    simp [visitAll, readsOfAll, hs, ih hrest, RecordSource.fetchAll_append]

/-- A visit asks for the records of its reads, and then has its outcome. -/
theorem visit_eq (s : Subject) :
    visit source filter s =
      (do source.fetchAll (s.reads filter); return s.visited filter source.recordsOf) := by
  induction s with
  | node path name tags children samples ih =>
    rw [visit, visitAll_eq source filter ih]
    -- All reads come first by the laws of the monad, since no outcome depends on the order.
    simp only [attachSamples_eq, keptNodes_map_visited, isEmpty_prunedAll, Bool.not_not, bind_assoc,
      pure_bind]
    rw [reads, RecordSource.fetchAll_append]
    simp only [bind_assoc]
    rfl

/-- The tree within a depth, if one is given. -/
def within (depth : Option Nat) (s : Subject) : Subject :=
  match depth with
  | some depth => s.limitDepth depth
  | none => s

theorem materialize_eq (policy : DepthPolicy) (requested : Option Nat) (s : Subject) :
    materialize policy source filter requested s =
      (do source.fetchAll (s.reads filter)
          return if s.kept filter source.recordsOf then
            some ((s.pruned filter source.recordsOf).within (policy.effective requested))
          else none) := by
  rw [materialize, visit_eq]
  simp only [bind_assoc, pure_bind, keep_visited]
  -- Both sides read the same, so only the outcomes are left to compare.
  congr 1
  funext _
  split
  · cases policy.effective requested <;> rfl
  · rfl

/-! ### Records that can be read -/

section Readable

variable {source filter} {root : Subject} (asked : List String)
  (hreads : ∀ path ∈ root.reads filter, ∃ records, source path = .ok records)

include hreads

/-- If the records that a visit asks for can be read, it succeeds with just these reads. -/
theorem runFrom_visit_of_ok :
    (visit source filter root).runFrom asked =
      (.ok (root.visited filter source.recordsOf), asked ++ root.reads filter) := by
  rw [visit_eq]
  exact RecordSource.runFrom_fetchAll_of_ok asked _ hreads

theorem runFrom_materialize_of_ok (policy : DepthPolicy) (requested : Option Nat) :
    (materialize policy source filter requested root).runFrom asked =
      (.ok (if root.kept filter source.recordsOf then
        some ((root.pruned filter source.recordsOf).within (policy.effective requested))
      else none), asked ++ root.reads filter) := by
  rw [materialize_eq]
  exact RecordSource.runFrom_fetchAll_of_ok asked _ hreads

end Readable

/-! ### What a visit depends on -/

variable {source filter} {source' : RecordSource}

theorem attachSamples_congr {node : Subject}
    (h : filter.acceptsSubject node.tags = true → source node.path = source' node.path) :
    attachSamples source filter node = attachSamples source' filter node := by
  unfold attachSamples
  split
  · rename_i haccepts
    have hfetch : source.fetch node.path = source'.fetch node.path := Fetch.ext fun asked => by
      rw [RecordSource.runFrom_fetch, RecordSource.runFrom_fetch, h haccepts]
    rw [hfetch]
  · rfl

/-- Visits that agree tree by tree agree on a list. -/
theorem visitAll_map_congr {f : Subject → Subject} {trees : List Subject}
    (h : ∀ s ∈ trees, visit source filter (f s) = visit source' filter s) :
    visitAll source filter (trees.map f) = visitAll source' filter trees := by
  induction trees with
  | nil => rfl
  | cons s rest ih =>
    obtain ⟨hs, hrest⟩ := List.forall_mem_cons.mp h
    rw [List.map_cons, visitAll, visitAll, hs, ih hrest]

/-- A visit depends only on the records that it asks for. -/
theorem visit_congr {s : Subject} (h : ∀ path ∈ s.reads filter, source path = source' path) :
    visit source filter s = visit source' filter s := by
  induction s with
  | node path name tags children samples ih =>
    have hall : ∀ c ∈ children, visit source filter (id c) = visit source' filter c := by
      intro c hc
      refine ih c hc fun path hpath => h path ?_
      rw [reads, readsOfAll_eq_flatMap]
      exact List.mem_append_left _ (List.mem_flatMap.mpr ⟨c, hc, hpath⟩)
    have hchildren := visitAll_map_congr hall
    rw [List.map_id] at hchildren
    have hroot : filter.acceptsSubject tags = true → source path = source' path := by
      intro haccepts
      refine h path ?_
      rw [reads, if_pos haccepts]
      exact List.mem_append_right _ List.mem_cons_self
    have hnode : ∀ kept, attachSamples source filter ⟨path, name, tags, kept, []⟩ =
        attachSamples source' filter ⟨path, name, tags, kept, []⟩ :=
      fun kept => attachSamples_congr hroot
    simp only [visit, hchildren, hnode]

variable (source filter)

/-- The samples that a tree comes with do not matter. -/
theorem visit_bare (s : Subject) : visit source filter s.bare = visit source filter s := by
  induction s with
  | node path name tags children samples ih =>
    rw [bare, visit, visit, bareAll_eq_map, visitAll_map_congr ih]

end Visits

end Subject

end StatusBoard
