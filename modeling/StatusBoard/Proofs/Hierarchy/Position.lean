import StatusBoard.Proofs.Hierarchy.Pruning

/-!
# Answers by position

The nodes of an answer are nodes of the tree that was asked about, but not at the addresses they
have there, since siblings before them may be gone. So an answer is described by what it holds
at the addresses of the tree: the samples of the node there, or nothing if the node is left out.
The tree and this description make up the answer.

## Main definitions

* `Subject.Holding` — samples for some of the addresses in a tree
* `Subject.restrict` — the tree with only the nodes whose addresses hold samples
* `Subject.holding` — what an answer holds

## Main results

* `materialize_eq_restrict` — an answer as the tree restricted to what it holds
-/

namespace StatusBoard.Subject

/-- Samples for some of the addresses in a tree. -/
abbrev Holding := List Nat → Option (List Sample)

mutual

/-- The tree with the samples that its addresses hold, without the nodes that hold none. -/
def restrict (held : Holding) : Subject → Option Subject
  | ⟨path, name, tags, children, _⟩ => (held []).map fun samples =>
    ⟨path, name, tags, restrictAll (fun i rest => held (i :: rest)) children, samples⟩

/-- The trees of a list, each with what is held under its number. -/
def restrictAll (held : Nat → Holding) : List Subject → List Subject
  | [] => []
  | s :: rest => (restrict (held 0) s).toList ++ restrictAll (fun i => held (i + 1)) rest

end

/-- The tree down to a level, if one is given. -/
def cutAt (level : Option Nat) (s : Subject) : Subject :=
  match level with
  | some level => s.cut level
  | none => s

theorem children_cutAt_succ (below : Option Nat) (s : Subject) :
    (s.cutAt (below.map (· + 1))).children = s.children.map (cutAt below) := by
  cases below with
  | none => exact (List.map_id _).symm
  | some below => rfl

variable (filter : FilterSpec) (records : String → List Fields)

/-- What an answer holds that goes down to a level: the samples of the nodes that are kept. -/
def holding (level : Option Nat) (root : Subject) : Holding := fun address =>
  (root.at? address).bind fun n =>
    if n.kept filter records && level.all (address.length ≤ ·) then
      some (n.ownSamples filter records)
    else none

variable {filter records}

/-- Below a child an answer holds what the child holds, one level less far down. -/
theorem holding_cons {s c : Subject} {i : Nat} (hc : c ∈ s.children[i]?) (level : Option Nat)
    (rest : List Nat) : s.holding filter records (level.map (· + 1)) (i :: rest) =
      c.holding filter records level rest := by
  have hat : s.at? (i :: rest) = c.at? rest := by
    rw [at?, Option.mem_def.mp hc, Option.bind_some]
  rw [holding, holding, hat]
  cases level <;> simp

/-- If the root is all that an answer goes down to, it holds nothing below. -/
theorem holding_zero_cons (s : Subject) (i : Nat) (rest : List Nat) :
    s.holding filter records (some 0) (i :: rest) = none := by
  simp [holding]

theorem restrictAll_of_none (trees : List Subject) : restrictAll (fun _ _ => none) trees = [] := by
  induction trees with
  | nil => rfl
  | cons s rest ih =>
    cases s
    rw [restrictAll, restrict, ih]
    rfl

/-- If each tree of a list restricts to what a visit makes of it, so does the list. -/
theorem restrictAll_eq_map {held : Nat → Holding} {f : Subject → Subject} {trees : List Subject}
    (h : ∀ i, ∀ c : Subject, trees[i]? = some c → c.restrict (held i) =
      if c.kept filter records then some (f (c.pruned filter records)) else none) :
    restrictAll held trees = (prunedAll filter records trees).map f := by
  induction trees generalizing held with
  | nil => rfl
  | cons s rest ih =>
    rw [restrictAll, prunedAll, h 0 s rfl, ih fun i c hc => h (i + 1) c hc]
    split <;> rfl

/-- What an answer holds restricts the tree to the answer. -/
theorem restrict_holding (level : Option Nat) (s : Subject) :
    s.restrict (s.holding filter records level) =
      if s.kept filter records then some ((s.pruned filter records).cutAt level) else none := by
  induction s generalizing level with
  | node path name tags children samples ih =>
    let s : Subject := ⟨path, name, tags, children, samples⟩
    have hroot : s.holding filter records level [] =
        if s.kept filter records then some (s.ownSamples filter records) else none := by
      cases level <;> simp [holding, at?]
    have hbelow : ∀ below : Option Nat,
        restrictAll (fun i rest => s.holding filter records (below.map (· + 1)) (i :: rest))
          children = (prunedAll filter records children).map (cutAt below) := by
      intro below
      apply restrictAll_eq_map
      intro i c hc
      rw [← ih c (List.mem_of_getElem? hc)]
      congr 1
      ext1 rest
      exact holding_cons (s := s) hc below rest
    have hchildren : restrictAll (fun i rest => s.holding filter records level (i :: rest))
        children = ((s.pruned filter records).cutAt level).children := by
      -- The level is for the root alone, or for the children as well.
      rcases level with _ | _ | below
      · exact (hbelow none).trans (children_cutAt_succ _ (s.pruned filter records)).symm
      · simp only [holding_zero_cons]
        exact restrictAll_of_none children
      · exact (hbelow (some below)).trans (children_cutAt_succ _ (s.pruned filter records)).symm
    change (s.holding filter records level []).map _ = _
    rw [hroot]
    by_cases hkept : s.kept filter records = true
    · rw [if_pos hkept, if_pos hkept, Option.map_some, hchildren]
      rcases level with _ | _ | below <;> rfl
    · rw [if_neg hkept, if_neg hkept, Option.map_none]

theorem within_eq_cutAt (depth : Option Nat) (s : Subject) :
    s.within depth = s.cutAt (depth.map (· + 1)) := by
  cases depth with
  | none => rfl
  | some depth => exact limitDepth_eq_cut depth s

/-- An answer is the tree restricted to what it holds: the samples of the nodes that are kept
and at most one level below the depth granted. -/
theorem materialize_eq_restrict (policy : DepthPolicy) (requested : Option Nat) (root : Subject)
    (asked : List String) :
    ((materialize policy (.total records) filter requested root).runFrom asked).1 =
      .ok (root.restrict
        (root.holding filter records ((policy.effective requested).map (· + 1)))) := by
  rw [materialize_total, restrict_holding, within_eq_cutAt]

end StatusBoard.Subject
