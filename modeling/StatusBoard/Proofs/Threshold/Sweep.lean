import StatusBoard.Proofs.Threshold.Remainder
import Mathlib.Algebra.BigOperators.Group.List.Basic

/-!
# The sweep over the queue

The work on the queue of ranges as a relation between a queue and its canonical set. The
relation has one rule for each way in which the two front ranges lie to each other, and a
piece below a higher range is final at once, since nothing that waits starts before that
range. Every range that waits therefore still ends where some given range ends.

## Main definitions

* `Waiting` — a queue in order, of ranges with proper bounds
* `Sweeps` — what becomes of a queue
* `Canonical` — ranges with proper bounds, each ending before the next one starts

## Main results

* `Waiting.totalWidth_resolve_lt` — resolving two ranges makes what waits narrower
* `exists_sweep`, `sweeps_mergeOverlaps` — the work ends, and it is a sweep
* `Sweeps.le_lo`, `Sweeps.canonical` — where the result starts, and that it is canonical
* `canonical_mergeOverlaps` — the canonical set of proper ranges is canonical
* `mergeOverlaps_eq_self` — a canonical list is its own canonical set
-/

namespace StatusBoard

open Binary64

/-- A queue in order of the bounds, of ranges with proper bounds. -/
structure Waiting (queue : List Range) : Prop where
  ordered : queue.Pairwise fun r s => r.le s = true
  proper : ∀ r ∈ queue, r.isProper = true

/-- What becomes of a queue. -/
inductive Sweeps : List Range → List Range → Prop
  /-- Nothing waits. -/
  | nil : Sweeps [] []
  /-- The last range is final. -/
  | last {r : Range} (waiting : Waiting [r]) : Sweeps [r] [r]
  /-- The front range ends before the next one starts, so it is final. -/
  | settle {first second : Range} {rest out : List Range}
      (waiting : Waiting (first :: second :: rest)) (apart : first.hi < second.lo)
      (later : Sweeps (second :: rest) out) : Sweeps (first :: second :: rest) (first :: out)
  /-- The front ranges meet and have one status. -/
  | join {first second : Range} {rest out : List Range}
      (waiting : Waiting (first :: second :: rest)) (meet : second.lo ≤ first.hi)
      (same : first.status = second.status)
      (later : Sweeps (requeue [first.join second] rest) out) :
      Sweeps (first :: second :: rest) out
  /-- The front ranges meet and the first is higher. -/
  | keepFirst {first second : Range} {rest out : List Range}
      (waiting : Waiting (first :: second :: rest)) (meet : second.lo ≤ first.hi)
      (higher : second.status < first.status)
      (later : Sweeps (requeue (first :: (second.above first).toList) rest) out) :
      Sweeps (first :: second :: rest) out
  /-- The front ranges meet and the second is higher. -/
  | keepSecond {first second : Range} {rest out : List Range}
      (waiting : Waiting (first :: second :: rest)) (meet : second.lo ≤ first.hi)
      (higher : first.status < second.status)
      (later : Sweeps (requeue (second :: (first.above second).toList) rest) out) :
      Sweeps (first :: second :: rest) ((first.below second).toList ++ out)

/-! ### Putting pieces into the queue -/

theorem requeue_perm (pieces queue : List Range) :
    (requeue pieces queue).Perm (pieces ++ queue) := by
  induction pieces generalizing queue with
  | nil => exact .refl _
  | cons p pieces ih =>
    refine (ih (Ordered.insert Range.le p queue)).trans ?_
    exact ((Ordered.insert_perm Range.le p queue).append_left pieces).trans List.perm_middle

theorem mem_requeue {r : Range} {pieces queue : List Range} :
    r ∈ requeue pieces queue ↔ r ∈ pieces ∨ r ∈ queue := by
  rw [(requeue_perm pieces queue).mem_iff, List.mem_append]

theorem forall_mem_requeue {Q : Range → Prop} {pieces queue : List Range} :
    (∀ r ∈ requeue pieces queue, Q r) ↔ (∀ r ∈ pieces, Q r) ∧ ∀ r ∈ queue, Q r := by
  simp only [mem_requeue, or_imp, forall_and]

/-- A piece before all others comes to the front of the queue. -/
theorem requeue_cons_of_first {p : Range} {pieces queue : List Range}
    (hqueue : ∀ r ∈ queue, r.le p = false) (hpieces : ∀ r ∈ pieces, p.le r = true) :
    requeue (p :: pieces) queue = p :: requeue pieces queue := by
  have hinsert : Ordered.insert Range.le p queue = p :: queue := by
    cases queue with
    | nil => rfl
    | cons r queue => simp [Ordered.insert, hqueue r List.mem_cons_self]
  suffices h : ∀ queue, requeue pieces (p :: queue) = p :: requeue pieces queue by
    rw [requeue, List.foldl_cons, hinsert]
    exact h queue
  clear hinsert hqueue
  induction pieces with
  | nil => exact fun _ => rfl
  | cons r pieces ih =>
    intro queue
    have hinsert : Ordered.insert Range.le r (p :: queue) =
        p :: Ordered.insert Range.le r queue := by
      simp [Ordered.insert, hpieces r List.mem_cons_self]
    rw [requeue, List.foldl_cons, hinsert]
    exact ih (fun q hq => hpieces q (List.mem_cons_of_mem r hq)) _

namespace Waiting

variable {first second r : Range} {queue rest : List Range}

theorem tail (h : Waiting (first :: queue)) : Waiting queue :=
  ⟨(List.pairwise_cons.mp h.ordered).2, fun r hr => h.proper r (List.mem_cons_of_mem first hr)⟩

theorem head (h : Waiting (first :: queue)) : first.isProper = true :=
  h.proper first List.mem_cons_self

theorem head_lo_le (h : Waiting (first :: queue)) (hr : r ∈ queue) : first.lo ≤ r.lo :=
  Range.lo_le_of_le h.head (h.tail.proper r hr) ((List.pairwise_cons.mp h.ordered).1 r hr)

theorem head_lo_le_of_mem (h : Waiting (first :: queue)) (hr : r ∈ first :: queue) :
    first.lo ≤ r.lo := by
  rcases List.mem_cons.mp hr with rfl | hr
  · exact le_rfl
  · exact h.head_lo_le hr

theorem requeue {pieces : List Range} (h : Waiting queue)
    (hpieces : ∀ p ∈ pieces, p.isProper = true) : Waiting (requeue pieces queue) := by
  constructor
  · induction pieces generalizing queue with
    | nil => exact h.ordered
    | cons p pieces ih =>
      refine ih ⟨Ordered.pairwise_insert Range.le_total Range.le_trans p h.ordered, ?_⟩
        fun q hq => hpieces q (List.mem_cons_of_mem p hq)
      intro r hr
      rcases (Ordered.mem_insert Range.le).mp hr with rfl | hr
      · exact hpieces r List.mem_cons_self
      · exact h.proper r hr
  · intro r hr
    exact (mem_requeue.mp hr).elim (hpieces r) (h.proper r)

theorem of_above (h : Waiting (first :: second :: rest))
    (hr : r ∈ (first.above second).toList) : r.isProper = true ∧ second.hi < r.lo :=
  Range.isProper_of_above h.head h.tail.head (Option.mem_toList.mp hr)

theorem of_above_swap (h : Waiting (first :: second :: rest))
    (hr : r ∈ (second.above first).toList) : r.isProper = true ∧ first.hi < r.lo :=
  Range.isProper_of_above h.tail.head h.head (Option.mem_toList.mp hr)

theorem of_below (h : Waiting (first :: second :: rest))
    (hr : r ∈ (first.below second).toList) :
    r.isProper = true ∧ r.lo = first.lo ∧ r.hi < second.lo := by
  have hbelow := Option.mem_toList.mp hr
  obtain ⟨hproper, hend⟩ := Range.isProper_of_below h.head h.tail.head hbelow
  obtain ⟨-, rfl⟩ := (Range.below_eq_some_iff h.head h.tail.head).mp hbelow
  exact ⟨hproper, rfl, hend⟩

/-! The queues after each kind of step. -/

theorem join (h : Waiting (first :: second :: rest)) :
    Waiting (StatusBoard.requeue [first.join second] rest) :=
  h.tail.tail.requeue (by simpa using Range.isProper_join h.head h.tail.head)

theorem keepFirst (h : Waiting (first :: second :: rest)) :
    Waiting (StatusBoard.requeue (first :: (second.above first).toList) rest) :=
  h.tail.tail.requeue (List.forall_mem_cons.mpr ⟨h.head, fun _ hr => (h.of_above_swap hr).1⟩)

theorem keepSecond (h : Waiting (first :: second :: rest)) :
    Waiting (StatusBoard.requeue (second :: (first.above second).toList) rest) :=
  h.tail.tail.requeue (List.forall_mem_cons.mpr ⟨h.tail.head, fun _ hr => (h.of_above hr).1⟩)

/-- After a step that keeps the second range, everything that waits starts no earlier. -/
theorem lo_le_of_mem_keepSecond (h : Waiting (first :: second :: rest))
    (hr : r ∈ StatusBoard.requeue (second :: (first.above second).toList) rest) :
    second.lo ≤ r.lo := by
  rcases mem_requeue.mp hr with hr | hr
  · rcases List.mem_cons.mp hr with rfl | hr
    · exact le_rfl
    · exact (Range.lo_le_hi h.tail.head).trans (h.of_above hr).2.le
  · exact h.tail.head_lo_le hr

/-- A piece below the second range comes to the front of the queue. -/
theorem requeue_below (h : Waiting (first :: second :: rest)) :
    StatusBoard.requeue
        ((first.below second).toList ++ second :: (first.above second).toList) rest =
      (first.below second).toList ++
        StatusBoard.requeue (second :: (first.above second).toList) rest := by
  cases hbelow : first.below second with
  | none => rfl
  | some piece =>
    obtain ⟨hproper, -, hend⟩ := h.of_below (Option.mem_toList.mpr hbelow)
    -- All other ranges start at the second one or later, and the piece starts before that.
    have hlo := (Range.lo_le_hi hproper).trans_lt hend
    refine requeue_cons_of_first (fun r hr => ?_) fun r hr => ?_
    · have hstart := h.tail.head_lo_le hr
      rw [Bool.eq_false_iff]
      intro hle
      have := Range.lo_le_of_le (h.tail.tail.proper r hr) hproper hle
      omega
    · have hmem : r ∈ StatusBoard.requeue (second :: (first.above second).toList) rest :=
        mem_requeue.mpr (Or.inl hr)
      exact Range.le_of_lo_lt hproper (h.keepSecond.proper r hmem)
        (hlo.trans_le (h.lo_le_of_mem_keepSecond hmem))

end Waiting

/-! ### The work is a sweep -/

section Existence

open Range

variable {r lower higher first second : Range} {fuel : Nat} {queue rest : List Range}

theorem Range.width_pos (r : Range) : 0 < r.width := by
  unfold width
  split <;> omega

theorem Range.width_eq (hr : r.isProper = true) : r.width = (r.hi - r.lo).toNat + 1 := by
  simp [width, lo, hi, (isNumber_min hr).key?_eq, (isNumber_max hr).key?_eq]

@[simp] theorem totalWidth_nil : totalWidth [] = 0 := rfl

@[simp] theorem totalWidth_cons : totalWidth (r :: queue) = r.width + totalWidth queue := rfl

theorem totalWidth_eq_sum (ranges : List Range) :
    totalWidth ranges = (ranges.map Range.width).sum := by
  induction ranges with
  | nil => rfl
  | cons r rest ih => rw [totalWidth_cons, ih, List.map_cons, List.sum_cons]

theorem totalWidth_perm {ranges ranges' : List Range} (h : ranges.Perm ranges') :
    totalWidth ranges = totalWidth ranges' := by
  rw [totalWidth_eq_sum, totalWidth_eq_sum, (h.map Range.width).sum_eq]

theorem totalWidth_append (ranges ranges' : List Range) :
    totalWidth (ranges ++ ranges') = totalWidth ranges + totalWidth ranges' := by
  rw [totalWidth_eq_sum, totalWidth_eq_sum, totalWidth_eq_sum, List.map_append, List.sum_append]

theorem totalWidth_requeue (pieces queue : List Range) :
    totalWidth (requeue pieces queue) = totalWidth pieces + totalWidth queue := by
  rw [totalWidth_perm (requeue_perm pieces queue), totalWidth_append]

theorem totalWidth_above_le (hlower : lower.isProper = true) (hhigher : higher.isProper = true) :
    totalWidth (lower.above higher).toList ≤ (lower.hi - higher.hi).toNat := by
  cases habove : lower.above higher with
  | none => simp
  | some r =>
    obtain ⟨hproper, hstart⟩ := isProper_of_above hlower hhigher habove
    obtain ⟨-, rfl⟩ := (above_eq_some_iff hlower hhigher).mp habove
    have hle := lo_le_hi hproper
    simp only [Option.toList_some, totalWidth_cons, totalWidth_nil, width_eq hproper]
    change (lower.hi - _).toNat + 1 + 0 ≤ _
    change _ ≤ lower.hi at hle
    omega

theorem totalWidth_below_le (hlower : lower.isProper = true) (hhigher : higher.isProper = true) :
    totalWidth (lower.below higher).toList ≤ (higher.lo - lower.lo).toNat := by
  cases hbelow : lower.below higher with
  | none => simp
  | some r =>
    obtain ⟨hproper, hend⟩ := isProper_of_below hlower hhigher hbelow
    obtain ⟨-, rfl⟩ := (below_eq_some_iff hlower hhigher).mp hbelow
    have hle := lo_le_hi hproper
    simp only [Option.toList_some, totalWidth_cons, totalWidth_nil, width_eq hproper]
    change (_ - lower.lo).toNat + 1 + 0 ≤ _
    change lower.lo ≤ _ at hle
    omega

/-- Resolving two ranges that meet makes what waits narrower: the pieces share no point, but the
ranges did. -/
theorem Waiting.totalWidth_resolve_lt (h : Waiting (first :: second :: rest))
    (hmeet : second.lo ≤ first.hi) :
    totalWidth (StatusBoard.requeue (resolve (Relation.between first second) first second) rest) <
      totalWidth (first :: second :: rest) := by
  have hfirst := h.head
  have hsecond := h.tail.head
  have hstart : first.lo ≤ second.lo := h.head_lo_le List.mem_cons_self
  have hproper := And.intro (lo_le_hi hfirst) (lo_le_hi hsecond)
  rw [totalWidth_requeue, totalWidth_cons, totalWidth_cons, resolve_eq hfirst hsecond hmeet,
    width_eq hfirst, width_eq hsecond]
  split_ifs with hsame hhigher
  · rw [totalWidth_cons, totalWidth_nil, width_eq (isProper_join hfirst hsecond), lo_join,
      hi_join hfirst hsecond]
    omega
  · have habove := totalWidth_above_le hsecond hfirst
    rw [totalWidth_cons, width_eq hfirst]
    omega
  · have habove := totalWidth_above_le hfirst hsecond
    have hbelow := totalWidth_below_le hfirst hsecond
    rw [totalWidth_append, totalWidth_cons, width_eq hsecond]
    omega

theorem length_le_totalWidth (queue : List Range) : queue.length ≤ totalWidth queue := by
  induction queue with
  | nil => exact le_rfl
  | cons r queue ih =>
    have hpos := Range.width_pos r
    rw [totalWidth_cons, List.length_cons]
    omega

theorem mergeQueue?_of_apart (hproper : ∀ s ∈ r :: queue, s.isProper = true)
    (hapart : ∀ s ∈ queue, r.hi < s.lo) :
    mergeQueue? (fuel + 1) (r :: queue) = (mergeQueue? fuel queue).map (r :: ·) := by
  cases queue with
  | nil => simp [mergeQueue?]
  | cons second rest =>
    have hrelation : Relation.between r second = .disjoint := by
      rw [between_eq (hproper r (by simp)) (hproper second (by simp)),
        if_pos (hapart second List.mem_cons_self)]
    simp [mergeQueue?, hrelation]

theorem mergeQueue?_of_meet (waiting : Waiting (first :: second :: rest))
    (hmeet : second.lo ≤ first.hi) :
    mergeQueue? (fuel + 1) (first :: second :: rest) =
      mergeQueue? fuel (requeue (resolve (Relation.between first second) first second) rest) := by
  have hrelation : Relation.between first second ≠ .disjoint := by
    rw [between_eq waiting.head waiting.tail.head, if_neg (not_lt.mpr hmeet)]
    split_ifs <;> simp
  simp [mergeQueue?, hrelation]

/-- A piece below the second range is final in the step after the one that makes it. -/
theorem mergeQueue?_below (waiting : Waiting (first :: second :: rest)) :
    mergeQueue? (fuel + (first.below second).toList.length)
        (requeue ((first.below second).toList ++ second :: (first.above second).toList) rest) =
      (mergeQueue? fuel (requeue (second :: (first.above second).toList) rest)).map
        ((first.below second).toList ++ ·) := by
  rw [waiting.requeue_below]
  cases hbelow : first.below second with
  | none => simp
  | some piece =>
    obtain ⟨hproper, -, hend⟩ := waiting.of_below (Option.mem_toList.mpr hbelow)
    exact mergeQueue?_of_apart
      (List.forall_mem_cons.mpr ⟨hproper, waiting.keepSecond.proper⟩)
      fun r hr => hend.trans_le (waiting.lo_le_of_mem_keepSecond hr)

/-- With the widths as fuel the work ends, and what it gives is a sweep. -/
theorem exists_sweep (waiting : Waiting queue) (hfuel : totalWidth queue ≤ fuel) :
    ∃ out, mergeQueue? fuel queue = some out ∧ Sweeps queue out := by
  -- A step spends one unit of fuel, or two if a piece below the higher range is final at once.
  induction fuel using Nat.strong_induction_on generalizing queue with
  | _ fuel ih =>
  match queue, waiting with
  | [], _ => exact ⟨[], by simp [mergeQueue?], .nil⟩
  | [r], waiting => exact ⟨[r], by simp [mergeQueue?], .last waiting⟩
  | first :: second :: rest, waiting =>
    have hpos := width_pos first
    rw [totalWidth_cons] at hfuel
    obtain ⟨fuel, rfl⟩ : ∃ n, fuel = n + 1 := ⟨fuel - 1, by omega⟩
    rcases lt_or_ge first.hi second.lo with hapart | hmeet
    · obtain ⟨out, hout, hsweep⟩ := ih fuel (by omega) waiting.tail (by omega)
      refine ⟨first :: out, ?_, .settle waiting hapart hsweep⟩
      rw [mergeQueue?_of_apart waiting.proper fun s hs => hapart.trans_le ?_, hout]
      · rfl
      · exact waiting.tail.head_lo_le_of_mem hs
    have hnarrower := waiting.totalWidth_resolve_lt hmeet
    rw [totalWidth_cons] at hnarrower
    rw [mergeQueue?_of_meet waiting hmeet]
    rw [resolve_eq waiting.head waiting.tail.head hmeet] at hnarrower ⊢
    by_cases hsame : first.status = second.status
    · rw [if_pos hsame] at hnarrower ⊢
      obtain ⟨out, hout, hsweep⟩ := ih fuel (by omega) waiting.join (by omega)
      exact ⟨out, hout, .join waiting hmeet hsame hsweep⟩
    rw [if_neg hsame] at hnarrower ⊢
    rcases lt_or_gt_of_ne hsame with hlower | hhigher
    · rw [if_neg (lt_asymm hlower)] at hnarrower ⊢
      rw [waiting.requeue_below, totalWidth_append] at hnarrower
      have hlength := length_le_totalWidth (first.below second).toList
      obtain ⟨later, rfl⟩ : ∃ n, fuel = n + (first.below second).toList.length :=
        ⟨fuel - (first.below second).toList.length, by omega⟩
      obtain ⟨out, hout, hsweep⟩ := ih later (by omega) waiting.keepSecond (by omega)
      refine ⟨_, ?_, .keepSecond waiting hmeet hlower hsweep⟩
      rw [mergeQueue?_below waiting, hout]
      rfl
    · rw [if_pos hhigher] at hnarrower ⊢
      obtain ⟨out, hout, hsweep⟩ := ih fuel (by omega) waiting.keepFirst (by omega)
      exact ⟨out, hout, .keepFirst waiting hmeet hhigher hsweep⟩

end Existence

section Ranges

variable {ranges : List Range}

theorem waiting_sort (hproper : ∀ r ∈ ranges, r.isProper = true) :
    Waiting (Ordered.sort Range.le ranges) :=
  ⟨Ordered.pairwise_sort Range.le_total Range.le_trans ranges,
    fun r hr => hproper r ((Ordered.sort_perm Range.le ranges).mem_iff.mp hr)⟩

/-- The canonical set of ranges with proper bounds is what the sweep makes of them. -/
theorem sweeps_mergeOverlaps (hproper : ∀ r ∈ ranges, r.isProper = true) :
    Sweeps (Ordered.sort Range.le ranges) (mergeOverlaps ranges) := by
  have hwidth := totalWidth_perm (Ordered.sort_perm Range.le ranges)
  obtain ⟨out, hout, hsweep⟩ := exists_sweep (waiting_sort hproper) hwidth.le
  have heq : mergeOverlaps ranges = out := by
    rw [mergeOverlaps, hout]
    rfl
  rwa [heq]

end Ranges

/-! ### The result is canonical -/

/-- Ranges with proper bounds, each of which ends before the later ones start. -/
structure Canonical (ranges : List Range) : Prop where
  proper : ∀ r ∈ ranges, r.isProper = true
  apart : ranges.Pairwise fun r s => r.hi < s.lo

namespace Canonical

variable {r : Range} {ranges : List Range}

theorem nil : Canonical [] := ⟨by simp, .nil⟩

theorem cons (hr : r.isProper = true) (hfirst : ∀ s ∈ ranges, r.hi < s.lo)
    (h : Canonical ranges) : Canonical (r :: ranges) :=
  ⟨List.forall_mem_cons.mpr ⟨hr, h.proper⟩, List.pairwise_cons.mpr ⟨hfirst, h.apart⟩⟩

theorem head (h : Canonical (r :: ranges)) : r.isProper = true := h.proper r List.mem_cons_self

theorem tail (h : Canonical (r :: ranges)) : Canonical ranges :=
  ⟨fun s hs => h.proper s (List.mem_cons_of_mem r hs), (List.pairwise_cons.mp h.apart).2⟩

theorem head_hi_lt (h : Canonical (r :: ranges)) {s : Range} (hs : s ∈ ranges) : r.hi < s.lo :=
  (List.pairwise_cons.mp h.apart).1 s hs

theorem pairwise_lo (h : Canonical ranges) : ranges.Pairwise fun r s => r.lo < s.lo :=
  List.Pairwise.imp_of_mem (fun hr _ hlt => (Range.lo_le_hi (h.proper _ hr)).trans_lt hlt) h.apart

/-- A canonical list is in the order of the queue. -/
theorem waiting (h : Canonical ranges) : Waiting ranges := by
  refine ⟨?_, h.proper⟩
  refine List.Pairwise.imp_of_mem (fun {r s} hr hs hlt => ?_) h.pairwise_lo
  exact Range.le_of_lo_lt (h.proper r hr) (h.proper s hs) hlt

/-- Every range of a canonical list is final as soon as it is at the front. -/
theorem mergeQueue?_eq (h : Canonical ranges) {fuel : Nat} (hfuel : ranges.length ≤ fuel) :
    mergeQueue? fuel ranges = some ranges := by
  induction ranges generalizing fuel with
  | nil => simp [mergeQueue?]
  | cons r ranges ih =>
    rw [List.length_cons] at hfuel
    obtain ⟨fuel, rfl⟩ : ∃ n, fuel = n + 1 := ⟨fuel - 1, by omega⟩
    rw [mergeQueue?_of_apart h.proper fun s hs => h.head_hi_lt hs, ih h.tail (by omega)]
    rfl

end Canonical

namespace Sweeps

variable {queue out : List Range} {bound : Int}

theorem waiting (h : Sweeps queue out) : Waiting queue := by
  cases h with
  | nil => exact ⟨.nil, by simp⟩
  | last waiting | settle waiting | join waiting | keepFirst waiting | keepSecond waiting =>
    exact waiting

/-- Nothing in the result starts before everything in the queue. -/
theorem le_lo (h : Sweeps queue out) (hbound : ∀ r ∈ queue, bound ≤ r.lo) :
    ∀ r ∈ out, bound ≤ r.lo := by
  induction h with
  | nil => simp
  | last _ => exact hbound
  | settle _ _ _ ih =>
    obtain ⟨hfirst, hrest⟩ := List.forall_mem_cons.mp hbound
    exact List.forall_mem_cons.mpr ⟨hfirst, ih hrest⟩
  | @join first second rest _ _ _ _ _ ih =>
    refine ih fun r hr => ?_
    rcases mem_requeue.mp hr with hr | hr
    · obtain rfl := List.mem_singleton.mp hr
      exact hbound first List.mem_cons_self
    · exact hbound r (by simp [hr])
  | @keepFirst first second rest _ waiting _ _ _ ih =>
    have hfirst := hbound first List.mem_cons_self
    refine ih fun r hr => ?_
    rcases mem_requeue.mp hr with hr | hr
    · rcases List.mem_cons.mp hr with rfl | hr
      · exact hfirst
      · exact hfirst.trans
          ((Range.lo_le_hi waiting.head).trans (waiting.of_above_swap hr).2.le)
    · exact hbound r (by simp [hr])
  | @keepSecond first second rest _ waiting _ _ _ ih =>
    intro r hr
    rcases List.mem_append.mp hr with hr | hr
    · rw [(waiting.of_below hr).2.1]
      exact hbound first List.mem_cons_self
    · refine ih (fun r hr => ?_) r hr
      exact (hbound second (by simp)).trans (waiting.lo_le_of_mem_keepSecond hr)

/-- What a sweep gives is canonical. -/
theorem canonical (h : Sweeps queue out) : Canonical out := by
  induction h with
  | nil => exact .nil
  | last waiting => exact .cons waiting.head (by simp) .nil
  | settle waiting apart later ih =>
    refine .cons waiting.head (fun s hs => apart.trans_le ?_) ih
    exact later.le_lo (fun r hr => waiting.tail.head_lo_le_of_mem hr) s hs
  | join _ _ _ _ ih => exact ih
  | keepFirst _ _ _ _ ih => exact ih
  | @keepSecond first second rest out waiting _ _ later ih =>
    cases hbelow : first.below second with
    | none => exact ih
    | some piece =>
      obtain ⟨hproper, -, hend⟩ := waiting.of_below (Option.mem_toList.mpr hbelow)
      refine .cons hproper (fun s hs => hend.trans_le ?_) ih
      exact later.le_lo (fun r hr => waiting.lo_le_of_mem_keepSecond hr) s hs

end Sweeps

theorem canonical_mergeOverlaps {ranges : List Range}
    (hproper : ∀ r ∈ ranges, r.isProper = true) : Canonical (mergeOverlaps ranges) :=
  (sweeps_mergeOverlaps hproper).canonical

/-- A canonical list is its own canonical set. -/
theorem mergeOverlaps_eq_self {ranges : List Range} (h : Canonical ranges) :
    mergeOverlaps ranges = ranges := by
  rw [mergeOverlaps, Ordered.sort_eq_self h.waiting.ordered,
    h.mergeQueue?_eq (length_le_totalWidth ranges)]
  rfl

end StatusBoard
