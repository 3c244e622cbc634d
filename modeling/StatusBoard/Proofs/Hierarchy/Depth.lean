import StatusBoard.Proofs.Hierarchy.Pruning

/-!
# Depth after pruning

The depth that a query gets has no part in pruning: the answer is the answer without a limit,
cut one level below that depth. So a node that matches below the cut still keeps those above
it.

## Main results

* `Subject.materialize_depth` — an answer and the one without a limit
-/

namespace StatusBoard.Subject

theorem within_some_eq_cut (depth : Nat) (s : Subject) :
    s.within (some depth) = s.cut (depth + 1) := limitDepth_eq_cut depth s

/-- A depth after a depth is the lesser of the two. -/
theorem limitDepth_limitDepth (d₁ d₂ : Nat) (s : Subject) :
    (s.limitDepth d₁).limitDepth d₂ = s.limitDepth (min d₁ d₂) := by
  rw [limitDepth_eq_cut, limitDepth_eq_cut, limitDepth_eq_cut, cut_cut, Nat.add_min_add_right]

variable (filter : FilterSpec) (records : String → List Fields)

/-- There is an answer iff there is one without a limit. Without a depth asked for or set they
are the same; otherwise the answer has the nodes of the other that are at most one level below
the depth granted, as they are there. -/
theorem materialize_depth (policy : DepthPolicy) (requested : Option Nat) (root : Subject)
    (asked : List String) :
    ∃ full answer : Option Subject,
      ((materialize { policy with defaultDepth := none } (.total records) filter none
        root).runFrom asked).1 = .ok full ∧
      ((materialize policy (.total records) filter requested root).runFrom asked).1 =
        .ok answer ∧
      (answer = none ↔ full = none) ∧
      (requested = none ∧ policy.defaultDepth = none → answer = full) ∧
      (∀ depth ∈ requested.or policy.defaultDepth, ∀ whole ∈ full, ∀ tree ∈ answer,
        (∀ address, (tree.at? address).map label =
          if address.length ≤ min depth policy.maxDepth + 1 then (whole.at? address).map label
          else none) ∧
        tree.height = min whole.height (min depth policy.maxDepth + 1)) ∧
      ∀ d₁ d₂ s, (limitDepth d₁ s).limitDepth d₂ = limitDepth (min d₁ d₂) s := by
  rw [materialize_total, materialize_total]
  refine ⟨_, _, rfl, rfl, ?_, ?_, ?_, limitDepth_limitDepth⟩
  · split <;> simp
  · rintro ⟨rfl, hdefault⟩
    simp only [DepthPolicy.effective, hdefault]
  · intro depth hdepth whole hwhole tree htree
    have hgranted : policy.effective requested = some (min depth policy.maxDepth) := by
      rw [DepthPolicy.effective, Option.mem_def.mp hdepth, Option.map_some]
    -- Both answers are the pruned tree if it is kept, once as it is and once cut.
    by_cases hkept : root.kept filter records = true
    · rw [if_pos hkept] at hwhole htree
      obtain rfl := Option.some.inj hwhole
      obtain rfl := Option.some.inj htree
      rw [hgranted, within_some_eq_cut]
      exact ⟨fun address => label_at?_cut _ address _, height_cut _ _⟩
    · rw [if_neg hkept] at hwhole
      cases hwhole

/-- Four subjects, one below the other. -/
def chain : Subject :=
  (leaf "a").withChild ((leaf "a.b").withChild ((leaf "a.b.c").withChild (leaf "a.b.c.d")))

theorem materialize_chain_depth :
    5 ∈ (some 5).or (none : Option Nat) ∧
    ((materialize ⟨1, none⟩ (.total fun _ => []) {} none chain).runFrom []).1 =
      .ok (some chain) ∧
    ∃ tree, ((materialize ⟨1, none⟩ (.total fun _ => []) {} (some 5) chain).runFrom []).1 =
        .ok (some tree) ∧
      (tree.at? [0, 0]).map label = (chain.at? [0, 0]).map label ∧
      (tree.at? [0, 0, 0]).map label = none ∧ tree.height = 2 := by
  have hunlimited : ((materialize ⟨1, none⟩ (.total fun _ => []) {} none chain).runFrom []).1 =
      .ok (some chain) := rfl
  obtain ⟨full, answer, hfull, hanswer, hnone, -, hdepth, -⟩ :=
    materialize_depth {} (fun _ => []) ⟨1, none⟩ (some 5) chain []
  obtain rfl : some chain = full := Except.ok.inj (hunlimited.symm.trans hfull)
  obtain ⟨tree, rfl⟩ := Option.ne_none_iff_exists'.mp fun h => by simpa using hnone.mp h
  obtain ⟨hnodes, hheight⟩ := hdepth 5 rfl chain rfl tree rfl
  exact ⟨rfl, hunlimited, tree, hanswer, hnodes [0, 0], hnodes [0, 0, 0], hheight⟩

end StatusBoard.Subject
