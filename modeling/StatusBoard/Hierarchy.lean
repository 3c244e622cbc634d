import StatusBoard.DepthPolicy
import StatusBoard.Filter.Query
import StatusBoard.Sample.Record
import StatusBoard.Subject

/-!
# Filtered hierarchies

A filter prunes a tree of subjects. A node is kept if it matches the filter itself or if a
node below it is kept, so every match stays connected to the root. The records of a subject
are read only if its tags pass; if they cannot be read there is no answer at all.

Records come from a function, and the subjects that are asked for are noted in order.

## Main definitions

* `Fetch` — computations that ask for records
* `Subject.attachSamples` — a node with the samples that pass, and whether it matches
* `Visit`, `Subject.visit` — the pruned tree and why it is kept
* `Subject.materialize` — the pruned tree within its depth, if the root is kept
* `Subject.answer` — the same for a query
-/

namespace StatusBoard

/-- A computation that asks for the records of subjects, may fail, and notes the subjects. -/
abbrev Fetch (ε α : Type) := ExceptT ε (StateM (List String)) α

/-- Where the records of a subject come from. -/
abbrev RecordSource := String → Except Outage (List Fields)

/-- Asks for the records of a subject. -/
def RecordSource.fetch (source : RecordSource) (path : String) : Fetch Outage (List Fields) :=
  fun asked => (source path, asked ++ [path])

/-- A pruned subtree. -/
structure Visit where
  /-- The node with its samples and the children that are kept. -/
  node : Subject
  /-- The node passes the filter itself. -/
  matched : Bool
  /-- Some child is kept. -/
  keptDescendant : Bool

/-- The subtree is kept. -/
def Visit.keep (v : Visit) : Bool := v.matched || v.keptDescendant

namespace Subject

/-- The samples of readable records that pass a filter, in the order of the records. -/
def passingSamples (filter : FilterSpec) (records : List Fields) : List Sample :=
  (records.filterMap Sample.ofFields?).filter filter.acceptsSample

/-- The node with the samples that pass, and whether it matches: its tags pass, and so does a
sample if the filter looks at samples. The records are not read if the tags do not pass. -/
def attachSamples (source : RecordSource) (filter : FilterSpec) (node : Subject) :
    Fetch Outage (Subject × Bool) := do
  if filter.acceptsSubject node.tags then
    let records ← source.fetch node.path
    let samples := passingSamples filter records
    return ({ node with samples }, !filter.filtersSamples || !samples.isEmpty)
  else
    return ({ node with samples := [] }, false)

/-- The nodes of the visits that are kept. -/
def keptNodes (visits : List Visit) : List Subject := (visits.filter Visit.keep).map Visit.node

mutual

/-- Prunes a tree, the children from left to right before their parent. -/
def visit (source : RecordSource) (filter : FilterSpec) : Subject → Fetch Outage Visit
  | ⟨path, name, tags, children, _⟩ => do
    -- The children come first, so a failure below stops before the node is read.
    let visits ← visitAll source filter children
    let kept := keptNodes visits
    let (node, matched) ← attachSamples source filter ⟨path, name, tags, kept, []⟩
    return ⟨node, matched, !kept.isEmpty⟩

/-- Prunes the trees of a list. -/
def visitAll (source : RecordSource) (filter : FilterSpec) :
    List Subject → Fetch Outage (List Visit)
  | [] => return []
  | s :: rest => do
    let first ← visit source filter s
    let others ← visitAll source filter rest
    return first :: others

end

/-- The pruned tree, cut to the depth that the policy grants, or nothing if no node matches. -/
def materialize (policy : DepthPolicy) (source : RecordSource) (filter : FilterSpec)
    (requested : Option Nat) (root : Subject) : Fetch Outage (Option Subject) := do
  let v ← visit source filter root
  -- Pruning looks at the whole tree; the depth cuts only what is left.
  if v.keep then
    match policy.effective requested with
    | some depth => return some (v.node.limitDepth depth)
    | none => return some v.node
  else return none

/-- The answer to a query. A rejected query asks for nothing. -/
def answer (policy : DepthPolicy) (source : RecordSource) (query : Query) (root : Subject) :
    Fetch Failure (Option Subject) :=
  match query.toSpec with
  | .error fault => throw (.rejected fault)
  | .ok filter => (materialize policy source filter query.depth root).adapt .unavailable

end Subject

end StatusBoard
