import StatusBoard.Proofs.Threshold.Canonical
import Mathlib.Logic.Function.Iterate

/-!
# The work on the queue ends

The work on the queue turn by turn, with a note of each value whose smallest step it asks for. A
turn resolves two ranges by the one definition there is, in a monad that notes whatever is
nudged, so no nudge is left out.

A turn may put three ranges back for the two it took, so the length of the queue is no measure.
The sum of the widths is one: the pieces of two ranges that meet share no point, and the ranges
did. Every bound that a turn nudges is one of a waiting range, and the bounds of those are finite,
because a piece that would reach an infinite bound is inverted and does not join the queue.

## Main definitions

* `Nudging`, `Nudging.noting` — computations that note the values they nudge
* `Nudging.Gives` — what such a computation gives, and what it may nudge
* `Work`, `Work.turn` — the work between two turns, and a turn of it

## Main results

* `Range.resolveBy_noting_gives` — noting changes no piece, and only bounds are nudged
* `Work.Sound.turn`, `Work.totalWidth_turn_lt` — what a turn keeps, and what it uses up
* `mergeOverlaps_terminates` — when the work ends, what it gives and what it nudges
-/

namespace StatusBoard

open Binary64

/-! ### Noting the nudges -/

/-- A computation that notes the values whose smallest step it asks for. -/
abbrev Nudging (α : Type) := StateM (List Binary64) α

namespace Nudging

variable {α : Type}

/-- A value moved by its smallest step in a direction, which is noted. -/
def noting (d : Direction) (v : Binary64) : Nudging Binary64 :=
  fun nudged => (d.nudge v, nudged ++ [v])

/-- The computation gives a result and nudges none but certain values. -/
def Gives (x : Nudging α) (a : α) (allowed : List Binary64) : Prop :=
  ∃ values ⊆ allowed, ∀ nudged, x.run nudged = (a, nudged ++ values)

namespace Gives

variable {v : Binary64} {allowed allowed' : List Binary64} {a : α} {x : Nudging α}
  {f : Binary64 → Nudging α}

theorem pure (a : α) (allowed : List Binary64) : Gives (Pure.pure a) a allowed :=
  ⟨[], List.nil_subset allowed, fun nudged => by rw [List.append_nil]; rfl⟩

theorem mono (h : Gives x a allowed) (hsubset : allowed ⊆ allowed') : Gives x a allowed' := by
  obtain ⟨values, hvalues, hrun⟩ := h
  exact ⟨values, List.Subset.trans hvalues hsubset, hrun⟩

theorem noting_bind {d : Direction} (hv : v ∈ allowed) (h : Gives (f (d.nudge v)) a allowed) :
    Gives (noting d v >>= f) a allowed := by
  obtain ⟨values, hvalues, hrun⟩ := h
  refine ⟨v :: values, List.cons_subset.mpr ⟨hv, hvalues⟩, fun nudged => ?_⟩
  calc (noting d v >>= f).run nudged = (f (d.nudge v)).run (nudged ++ [v]) := rfl
    _ = (a, nudged ++ v :: values) := by rw [hrun, List.append_assoc, List.singleton_append]

end Gives

end Nudging

namespace Range

open Nudging

/-- The bounds of two ranges. -/
def bothBounds (first second : Range) : List Binary64 :=
  [first.min, first.max, second.min, second.max]

theorem carveBy_noting_gives (outer inner : Range) :
    (carveBy noting outer inner).Gives (carveBy (m := Id) (fun d v => d.nudge v) outer inner)
      [inner.min, inner.max] := by
  unfold carveBy
  split
  · exact .pure _ _
  · refine .noting_bind (by simp) (.noting_bind (by simp) ?_)
    exact .pure _ _

/-- Noting changes no piece, and whatever is nudged is a bound of one of the two ranges. -/
theorem resolveBy_noting_gives (relation : Relation) (first second : Range) :
    (resolveBy noting relation first second).Gives (resolve relation first second)
      (bothBounds first second) := by
  unfold resolve resolveBy bothBounds
  split
  · exact .pure _ _
  cases relation with
  | disjoint => exact .pure _ _
  | touching =>
    unfold resolveTouchingBy
    split_ifs
    · exact .pure _ _
    · exact .noting_bind (by simp) (.pure _ _)
    · exact .pure _ _
    · exact .noting_bind (by simp) (.pure _ _)
  | overlapping =>
    unfold resolveOverlappingBy
    split_ifs
    · exact .noting_bind (by simp) (.pure _ _)
    · exact .noting_bind (by simp) (.pure _ _)
  | firstContainsSecond => exact (carveBy_noting_gives first second).mono (by simp)
  | secondContainsFirst => exact (carveBy_noting_gives second first).mono (by simp)

variable {first second : Range}

theorem between_eq_disjoint_iff (hfirst : first.isProper = true)
    (hsecond : second.isProper = true) :
    Relation.between first second = .disjoint ↔ first.hi < second.lo := by
  rw [between_eq hfirst hsecond]
  split_ifs <;> simp [*]

theorem isFinite_of_mem_bothBounds (hfirst : first.isProper = true)
    (hsecond : second.isProper = true) {v : Binary64} (hv : v ∈ bothBounds first second) :
    v.isFinite = true := by
  simp only [bothBounds, List.mem_cons, List.not_mem_nil, or_false] at hv
  rcases hv with rfl | rfl | rfl | rfl
  · exact isFinite_min hfirst
  · exact isFinite_max hfirst
  · exact isFinite_min hsecond
  · exact isFinite_max hsecond

/-- The pieces of two ranges that meet are proper. -/
theorem isProper_of_mem_resolve (hfirst : first.isProper = true) (hsecond : second.isProper = true)
    (hmeet : second.lo ≤ first.hi) {p : Range}
    (hp : p ∈ resolve (Relation.between first second) first second) : p.isProper = true := by
  rw [resolve_eq hfirst hsecond hmeet] at hp
  split_ifs at hp with hsame hhigher
  · obtain rfl := List.mem_singleton.mp hp
    exact isProper_join hfirst hsecond
  · rcases List.mem_cons.mp hp with rfl | hp
    · exact hfirst
    · exact (isProper_of_above hsecond hfirst (Option.mem_toList.mp hp)).1
  · rcases List.mem_append.mp hp with hp | hp
    · exact (isProper_of_below hfirst hsecond (Option.mem_toList.mp hp)).1
    rcases List.mem_cons.mp hp with rfl | hp
    · exact hsecond
    · exact (isProper_of_above hfirst hsecond (Option.mem_toList.mp hp)).1

end Range

/-! ### Turns -/

/-- The work between two turns. -/
structure Work where
  /-- The ranges that are final. -/
  merged : List Range
  /-- The ranges that wait. -/
  queue : List Range
  /-- The values nudged so far. -/
  nudged : List Binary64

namespace Work

/-- The work before the first turn. -/
def start (ranges : List Range) : Work := ⟨[], Ordered.sort Range.le ranges, []⟩

/-- A turn of the work; without a queue nothing is left to do. -/
def turn (w : Work) : Work :=
  match w.queue with
  | [] => w
  | [last] => ⟨w.merged ++ [last], [], w.nudged⟩
  | first :: second :: rest =>
    let relation := Relation.between first second
    if relation = .disjoint then ⟨w.merged ++ [first], second :: rest, w.nudged⟩
    else
      let (pieces, nudged) := (Range.resolveBy Nudging.noting relation first second).run w.nudged
      ⟨w.merged, requeue pieces rest, nudged⟩

variable {merged rest : List Range} {nudged : List Binary64} {first second last : Range}
  {w : Work}

theorem turn_nil : turn ⟨merged, [], nudged⟩ = ⟨merged, [], nudged⟩ := rfl

theorem turn_singleton : turn ⟨merged, [last], nudged⟩ = ⟨merged ++ [last], [], nudged⟩ := rfl

theorem turn_of_disjoint (h : Relation.between first second = .disjoint) :
    turn ⟨merged, first :: second :: rest, nudged⟩ = ⟨merged ++ [first], second :: rest, nudged⟩ :=
  if_pos h

/-- Two ranges that meet make way for their pieces, and only bounds of theirs are nudged. -/
theorem exists_turn_of_meet (h : Relation.between first second ≠ .disjoint) :
    ∃ values ⊆ Range.bothBounds first second, turn ⟨merged, first :: second :: rest, nudged⟩ =
      ⟨merged, requeue (Range.resolve (Relation.between first second) first second) rest,
        nudged ++ values⟩ := by
  obtain ⟨values, hvalues, hrun⟩ :=
    Range.resolveBy_noting_gives (Relation.between first second) first second
  refine ⟨values, hvalues, ?_⟩
  simp only [turn, if_neg h, hrun]

/-- The queue is in order, of ranges with finite bounds, and all values nudged were finite. -/
structure Sound (w : Work) : Prop where
  waiting : Waiting w.queue
  finite : ∀ v ∈ w.nudged, v.isFinite = true

theorem sound_start {ranges : List Range} (hproper : ∀ r ∈ ranges, r.isProper = true) :
    (start ranges).Sound := ⟨waiting_sort hproper, List.forall_mem_nil _⟩

/-- A turn keeps the queue in order and nudges finite values only. -/
theorem Sound.turn (h : w.Sound) : w.turn.Sound := by
  obtain ⟨merged, queue, nudged⟩ := w
  obtain ⟨hwaiting, hfinite⟩ := h
  rcases queue with _ | ⟨first, _ | ⟨second, rest⟩⟩
  · exact ⟨hwaiting, hfinite⟩
  · exact ⟨⟨.nil, List.forall_mem_nil _⟩, hfinite⟩
  · by_cases hdisjoint : Relation.between first second = .disjoint
    · rw [turn_of_disjoint hdisjoint]
      exact ⟨hwaiting.tail, hfinite⟩
    · obtain ⟨values, hvalues, hturn⟩ := exists_turn_of_meet hdisjoint
      rw [hturn]
      have hmeet : second.lo ≤ first.hi := by
        rw [Range.between_eq_disjoint_iff hwaiting.head hwaiting.tail.head] at hdisjoint
        exact not_lt.mp hdisjoint
      -- New on the queue are the pieces, and new among the nudged values bounds of the two.
      refine ⟨hwaiting.tail.tail.requeue fun p hp => ?_, fun v hv => ?_⟩
      · exact Range.isProper_of_mem_resolve hwaiting.head hwaiting.tail.head hmeet hp
      · rcases List.mem_append.mp hv with hv | hv
        · exact hfinite v hv
        · exact Range.isFinite_of_mem_bothBounds hwaiting.head hwaiting.tail.head (hvalues hv)

/-- A turn makes what waits narrower. -/
theorem totalWidth_turn_lt (h : w.Sound) (hqueue : w.queue ≠ []) :
    totalWidth w.turn.queue < totalWidth w.queue := by
  obtain ⟨merged, queue, nudged⟩ := w
  have hwaiting : Waiting queue := h.waiting
  rcases queue with _ | ⟨first, _ | ⟨second, rest⟩⟩
  · exact absurd rfl hqueue
  · rw [turn_singleton]
    simpa using Range.width_pos first
  · by_cases hdisjoint : Relation.between first second = .disjoint
    · rw [turn_of_disjoint hdisjoint]
      simpa using Range.width_pos first
    · obtain ⟨values, -, hturn⟩ := exists_turn_of_meet hdisjoint
      rw [Range.between_eq_disjoint_iff hwaiting.head hwaiting.tail.head] at hdisjoint
      rw [hturn]
      exact hwaiting.totalWidth_resolve_lt (not_lt.mp hdisjoint)

/-! ### Runs of turns -/

theorem Sound.iterate (h : w.Sound) (turns : Nat) : (Work.turn^[turns] w).Sound := by
  induction turns with
  | zero => exact h
  | succ turns ih =>
    rw [Function.iterate_succ_apply']
    exact ih.turn

theorem turn_of_queue_eq_nil (h : w.queue = []) : w.turn = w := by
  obtain ⟨merged, queue, nudged⟩ := w
  obtain rfl : queue = [] := h
  exact turn_nil

/-- After as many turns as the ranges of the queue are wide, nothing waits. -/
theorem queue_iterate_eq_nil (h : w.Sound) {turns : Nat} (hturns : totalWidth w.queue ≤ turns) :
    (Work.turn^[turns] w).queue = [] := by
  induction turns generalizing w with
  | zero =>
    have hlength := length_le_totalWidth w.queue
    rw [Function.iterate_zero_apply]
    exact List.length_eq_zero_iff.mp (by omega)
  | succ turns ih =>
    rw [Function.iterate_succ_apply]
    apply ih h.turn
    by_cases hqueue : w.queue = []
    · rw [turn_of_queue_eq_nil hqueue, hqueue]
      exact Nat.zero_le _
    · have := totalWidth_turn_lt h hqueue
      omega

/-- If some turns end the work, they do what the work on the queue does with as much fuel. -/
theorem mergeQueue?_of_iterate {turns : Nat} (h : (Work.turn^[turns] w).queue = []) :
    ∃ out, mergeQueue? turns w.queue = some out ∧
      (Work.turn^[turns] w).merged = w.merged ++ out := by
  induction turns generalizing w with
  | zero =>
    rw [Function.iterate_zero_apply] at h ⊢
    rw [h]
    exact ⟨[], by simp [mergeQueue?], (List.append_nil _).symm⟩
  | succ turns ih =>
    rw [Function.iterate_succ_apply] at h ⊢
    -- One turn is what one unit of fuel does; the cases are those of the queue.
    obtain ⟨later, hlater, hmerged⟩ := ih h
    obtain ⟨merged, queue, nudged⟩ := w
    rcases queue with _ | ⟨first, _ | ⟨second, rest⟩⟩
    · rw [turn_nil] at hlater hmerged
      exact ⟨later, by simpa [mergeQueue?] using hlater, hmerged⟩
    · rw [turn_singleton] at hlater hmerged
      obtain rfl : later = [] := by simpa [mergeQueue?, eq_comm] using hlater
      exact ⟨[first], by simp [mergeQueue?], by rw [turn_singleton, hmerged, List.append_nil]⟩
    · by_cases hdisjoint : Relation.between first second = .disjoint
      · rw [turn_of_disjoint hdisjoint] at hlater hmerged ⊢
        refine ⟨first :: later, ?_, ?_⟩
        · simp [mergeQueue?, hdisjoint, hlater]
        · rw [hmerged, List.append_assoc, List.singleton_append]
      · obtain ⟨values, -, hturn⟩ := exists_turn_of_meet hdisjoint
        rw [hturn] at hlater hmerged ⊢
        exact ⟨later, by simpa [mergeQueue?, hdisjoint] using hlater, hmerged⟩

end Work

/-- The work on proper ranges ends: after as many turns as the ranges are wide together nothing
waits, and what is final is the canonical set. In all its turns it nudges finite values only, and
what waits has finite bounds that are not inverted. -/
theorem mergeOverlaps_terminates {ranges : List Range}
    (hproper : ∀ r ∈ ranges, r.isProper = true) :
    let after := fun turns => Work.turn^[turns] (Work.start ranges)
    (after (totalWidth ranges)).queue = [] ∧
      (after (totalWidth ranges)).merged = mergeOverlaps ranges ∧
      (∀ turns, ∀ v ∈ (after turns).nudged, v.isFinite = true) ∧
      ∀ turns, ∀ r ∈ (after turns).queue, r.isProper = true := by
  intro after
  have hsound := Work.sound_start hproper
  have hwidth := totalWidth_perm (Ordered.sort_perm Range.le ranges)
  have hqueue : (after (totalWidth ranges)).queue = [] :=
    Work.queue_iterate_eq_nil hsound hwidth.le
  obtain ⟨out, hout, hmerged⟩ := Work.mergeQueue?_of_iterate hqueue
  refine ⟨hqueue, ?_, fun turns => (hsound.iterate turns).finite,
    fun turns => (hsound.iterate turns).waiting.proper⟩
  rw [hmerged, mergeOverlaps]
  exact congrArg (·.getD []) hout.symm

/-- The work ends also where a nudge leaves the finite numbers: the first turn nudges a zero and
the largest number, and the latter has no number to go to. -/
theorem mergeOverlaps_extremes_terminates :
    (∀ r ∈ extremes, r.isProper = true) ∧
    let after := fun turns => Work.turn^[turns] (Work.start extremes)
    let largest := number false (infinityRank - 1) (Nat.sub_le _ _)
    (after 1).nudged = [number true 0 (Nat.zero_le _), largest] ∧
      (nudgeUp largest).isFinite = false ∧
      (after (totalWidth extremes)).queue = [] ∧
      (after (totalWidth extremes)).merged = mergeOverlaps extremes ∧
      (∀ turns, ∀ v ∈ (after turns).nudged, v.isFinite = true) ∧
      ∀ turns, ∀ r ∈ (after turns).queue, r.isProper = true := by
  have hproper : ∀ r ∈ extremes, r.isProper = true := by decide +kernel
  refine ⟨hproper, ?_, ?_, mergeOverlaps_terminates hproper⟩
  · decide +kernel
  · have hlt := place_lt_nudgeUp (v := number false (infinityRank - 1) (Nat.sub_le _ _)) rfl
    rw [place_positive] at hlt
    rw [Bool.eq_false_iff, ne_eq, isFinite_iff_place]
    -- No finite number has a place above that of the largest.
    omega

end StatusBoard
