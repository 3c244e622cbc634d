import StatusBoard.Subject
import Mathlib.Data.List.Basic

/-!
# Nodes, addresses and levels

A property holds of a tree if it holds of a node whenever it holds of the children. A node of a
tree has an address, the numbers of the children that lead to it. Cutting a tree at a level
leaves the nodes at the addresses that are short enough, as they are.

## Main definitions

* `Subject.bare` — the tree without samples
* `Subject.at?` — the node at an address
* `Subject.Label` — what a node holds besides its children
* `Subject.cut` — the tree down to a level

## Main results

* `Subject.induction` — induction over trees
* `mem_nodes_iff` — the nodes of a tree
* `limitDepth_eq_cut` — limiting the depth as a cut
* `label_at?_cut`, `height_cut` — what a cut leaves
* `cut_cut` — a cut after a cut
-/

namespace StatusBoard.Subject

/-- A property of all children of a node is one of the node. -/
@[induction_eliminator]
theorem induction {motive : Subject → Prop}
    (node : ∀ path name tags children samples, (∀ c ∈ children, motive c) →
      motive ⟨path, name, tags, children, samples⟩) (s : Subject) : motive s :=
  @Subject.rec motive (fun trees => ∀ c ∈ trees, motive c) node (by simp)
    (fun _ _ hfirst hrest => List.forall_mem_cons.mpr ⟨hfirst, hrest⟩) s

/-! ### Nodes -/

theorem nodesOfAll_eq_flatMap (trees : List Subject) : nodesOfAll trees = trees.flatMap nodes := by
  induction trees with
  | nil => rfl
  | cons s rest ih => rw [nodesOfAll, ih, List.flatMap_cons]

theorem nodes_eq (s : Subject) : s.nodes = s :: s.children.flatMap nodes := by
  cases s
  rw [nodes, nodesOfAll_eq_flatMap]

/-- A node of a tree is its root or a node below one of the children. -/
theorem mem_nodes_iff {s n : Subject} : n ∈ s.nodes ↔ n = s ∨ ∃ c ∈ s.children, n ∈ c.nodes := by
  rw [nodes_eq, List.mem_cons, List.mem_flatMap]

/-- What holds of some node of a tree holds of its root or below one of the children. -/
theorem exists_mem_nodes_iff {p : Subject → Prop} {s : Subject} :
    (∃ n ∈ s.nodes, p n) ↔ p s ∨ ∃ c ∈ s.children, ∃ n ∈ c.nodes, p n := by
  constructor
  · rintro ⟨n, hn, hp⟩
    rcases mem_nodes_iff.mp hn with rfl | ⟨c, hc, hn⟩
    · exact Or.inl hp
    · exact Or.inr ⟨c, hc, n, hn, hp⟩
  · rintro (hp | ⟨c, hc, n, hn, hp⟩)
    · exact ⟨s, mem_nodes_iff.mpr (Or.inl rfl), hp⟩
    · exact ⟨n, mem_nodes_iff.mpr (Or.inr ⟨c, hc, hn⟩), hp⟩

/-! ### Samples -/

mutual

/-- The tree without the samples of its nodes. -/
def bare : Subject → Subject
  | ⟨path, name, tags, children, _⟩ => ⟨path, name, tags, bareAll children, []⟩

/-- The trees of a list without the samples of their nodes. -/
def bareAll : List Subject → List Subject
  | [] => []
  | s :: rest => bare s :: bareAll rest

end

theorem bareAll_eq_map (trees : List Subject) : bareAll trees = trees.map bare := by
  induction trees with
  | nil => rfl
  | cons s rest ih => rw [bareAll, ih, List.map_cons]

/-! ### Addresses -/

/-- The node that is reached by taking the children with these numbers in turn. -/
def at? : List Nat → Subject → Option Subject
  | [], s => some s
  | i :: rest, s => s.children[i]?.bind (at? rest)

/-- What a node holds besides its children. -/
structure Label where
  path : String
  name : String
  tags : List String
  samples : List Sample
deriving DecidableEq

/-- The label of a node. -/
def label (s : Subject) : Label := ⟨s.path, s.name, s.tags, s.samples⟩

/-! ### Cutting a tree -/

/-- The tree down to a level below its root. -/
def cut : Nat → Subject → Subject
  | 0, s => { s with children := [] }
  | level + 1, s => { s with children := s.children.map (cut level) }

/-- A depth leaves one level more than it says. -/
theorem limitDepth_eq_cut (depth : Nat) (s : Subject) : s.limitDepth depth = s.cut (depth + 1) := by
  induction depth generalizing s with
  | zero => rfl
  | succ depth ih =>
    have hchildren : limitDepth depth = cut (depth + 1) := funext ih
    rw [limitDepth, cut, hchildren]

/-- A cut leaves the nodes at the addresses that are no longer than its level. -/
theorem label_at?_cut (level : Nat) (address : List Nat) (s : Subject) :
    ((s.cut level).at? address).map label =
      if address.length ≤ level then (s.at? address).map label else none := by
  induction level generalizing s address with
  | zero =>
    cases address with
    | nil => rfl
    | cons i rest => simp [at?, cut]
  | succ level ih =>
    cases address with
    | nil => rfl
    | cons i rest =>
      cases h : s.children[i]? with
      | none => simp [at?, cut, h]
      | some c => simp [at?, cut, h, ih]

theorem height_eq (s : Subject) : s.height = levels s.children := by
  cases s
  rw [height]

/-- Cutting all children to a height cuts the tree one level below. -/
theorem levels_map_eq_min {f : Subject → Subject} {bound : Nat} {trees : List Subject}
    (hf : ∀ s ∈ trees, (f s).height = min s.height bound) :
    levels (trees.map f) = min (levels trees) (bound + 1) := by
  induction trees with
  | nil => simp [levels]
  | cons s rest ih =>
    obtain ⟨hfirst, hrest⟩ := List.forall_mem_cons.mp hf
    rw [List.map_cons, levels, levels, hfirst, ih hrest]
    omega

theorem height_cut (level : Nat) (s : Subject) : (s.cut level).height = min s.height level := by
  induction level generalizing s with
  | zero => rw [height_eq, cut, levels, Nat.min_zero]
  | succ level ih =>
    rw [height_eq, height_eq, cut]
    exact levels_map_eq_min fun c _ => ih c

/-- Of two cuts the one at the lower level changes nothing. -/
theorem cut_cut (m n : Nat) (s : Subject) : (s.cut m).cut n = s.cut (min m n) := by
  induction n generalizing m s with
  | zero => cases m <;> rfl
  | succ n ih =>
    cases m with
    | zero => rfl
    | succ m =>
      have hchildren : cut n ∘ cut m = cut (min m n) := funext fun c => ih m c
      rw [Nat.succ_min_succ, cut, cut, cut, List.map_map, hchildren]

end StatusBoard.Subject
