import StatusBoard.Sample.Basic
import StatusBoard.Text.Cut

/-!
# Trees of subjects

A subject has a path, tags and child subjects. Its samples are only there while a query is
answered.

## Main definitions

* `Subject` — a node of the tree
* `Subject.leaf` — a node named by the last segment of its path
* `Subject.nodes` — all nodes of a tree, a node before those below it
* `Subject.nodeCount`, `Subject.height` — the size of a tree
* `Subject.find?` — the first node with a path, depth first
* `Subject.limitDepth` — the tree without its lower levels

## Main results

* `length_nodes` — the node count is the number of nodes
* `find?_eq` — the search finds the first of all nodes with the path
-/

namespace StatusBoard

/-- A node of a tree of subjects. -/
structure Subject where
  path : String
  name : String
  tags : List String
  children : List Subject
  samples : List Sample

namespace Subject

/-- The character between the segments of a path. -/
def pathSeparator : Char := '.'

/-- The last segment of a path. -/
def lastSegment (path : String) : String :=
  match Text.afterLast? pathSeparator path.toList with
  | some segment => String.ofList segment
  | none => path

/-- A node without tags, children and samples, named by the last segment of its path. -/
def leaf (path : String) : Subject := ⟨path, lastSegment path, [], [], []⟩

/-- The node with other tags. -/
def withTags (s : Subject) (tags : List String) : Subject := { s with tags }

/-- The node with one more child behind the others. -/
def withChild (s child : Subject) : Subject := { s with children := s.children ++ [child] }

mutual

/-- All nodes of a tree, a node before those below it. -/
def nodes : Subject → List Subject
  | s@⟨_, _, _, children, _⟩ => s :: nodesOfAll children

/-- All nodes of the trees in a list. -/
def nodesOfAll : List Subject → List Subject
  | [] => []
  | s :: rest => nodes s ++ nodesOfAll rest

end

mutual

/-- The number of nodes of a tree. -/
def nodeCount : Subject → Nat
  | ⟨_, _, _, children, _⟩ => 1 + totalCount children

/-- The number of nodes of all trees in a list. -/
def totalCount : List Subject → Nat
  | [] => 0
  | s :: rest => s.nodeCount + totalCount rest

end

mutual

/-- The number of levels below a node. -/
def height : Subject → Nat
  | ⟨_, _, _, children, _⟩ => levels children

/-- The number of levels of the trees in a list. -/
def levels : List Subject → Nat
  | [] => 0
  | s :: rest => max (s.height + 1) (levels rest)

end

mutual

/-- The first node with the given path, a node before its children. -/
def find? (path : String) : Subject → Option Subject
  | s@⟨p, _, _, children, _⟩ => if p = path then some s else findAmong? path children

/-- The first node with the given path in the trees of a list. -/
def findAmong? (path : String) : List Subject → Option Subject
  | [] => none
  | s :: rest => (s.find? path).or (findAmong? path rest)

end

mutual

theorem length_nodes : ∀ s : Subject, s.nodes.length = s.nodeCount
  | ⟨_, _, _, children, _⟩ => by
    simp only [nodes, nodeCount, List.length_cons, length_nodesOfAll children]
    omega

theorem length_nodesOfAll : ∀ trees : List Subject, (nodesOfAll trees).length = totalCount trees
  | [] => rfl
  | s :: rest => by
    simp only [nodesOfAll, totalCount, List.length_append, length_nodes s, length_nodesOfAll rest]

end

mutual

theorem find?_eq (path : String) :
    ∀ s : Subject, s.find? path = s.nodes.find? (fun n => n.path = path)
  | ⟨p, name, tags, children, samples⟩ => by
    by_cases h : p = path
    · simp [find?, nodes, h]
    · simp [find?, nodes, h, findAmong?_eq path children]

theorem findAmong?_eq (path : String) :
    ∀ trees : List Subject,
      findAmong? path trees = (nodesOfAll trees).find? (fun n => n.path = path)
  | [] => rfl
  | s :: rest => by
    simp [findAmong?, nodesOfAll, find?_eq path s, findAmong?_eq path rest]

end

/-- The tree without what lies more than `depth + 1` levels below the node. -/
def limitDepth : Nat → Subject → Subject
  | 0, s => { s with children := s.children.map fun c => { c with children := [] } }
  | depth + 1, s => { s with children := s.children.map (limitDepth depth) }

end Subject

end StatusBoard
