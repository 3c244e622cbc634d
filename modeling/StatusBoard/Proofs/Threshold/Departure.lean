import StatusBoard.Proofs.Threshold.Sweep

/-!
# How ranges leave the queue

A range of the result left the queue at some moment of the sweep: from its front, alone, apart
from the next range, or as what a higher range left of it. Whatever every step of the sweep
keeps held at that moment. So a statement on the result needs no induction of its own; it is
enough to know what is kept, and to look at the three ways to leave.

## Main definitions

* `Covered` — some range of a list with a given status covers all values between two places
* `Meeting` — a lower and a higher range of a queue that meet
* `Kept` — properties of the front and the queue that every step of the sweep keeps
* `Leaves` — the ways for the front range to leave the queue
* `Derived`, `Bordered` — how the queue goes back to the given ranges

## Main results

* `Sweeps.exists_leaves_of_mem` — a range of the result left the queue at a moment of the sweep
* `Sweeps.exists_leaves_of_le` — every place is passed at a moment of the sweep
* `Sweeps.covered_given` — the result covers nothing that the given ranges do not
* `Sweeps.exists_start` — a range of the result starts at a given bound or at a nudged one
-/

namespace StatusBoard

open Binary64

/-- Some range of the list with the status covers all values from the one place to the other. -/
def Covered (ranges : List Range) (s : Status) (x y : Int) : Prop :=
  ∃ r ∈ ranges, r.status = s ∧ r.lo ≤ x ∧ y ≤ r.hi

/-! ### Places that are covered -/

namespace Covered

variable {ranges ranges' queue rest : List Range} {first second lower higher : Range} {s : Status}
  {v : Binary64} {x y : Int}

theorem iff_contains (hproper : ∀ r ∈ ranges, r.isProper = true) (hv : v.IsNumber) :
    Covered ranges s v.place v.place ↔ ∃ r ∈ ranges, r.status = s ∧ r.contains v = true := by
  refine exists_congr fun r => and_congr_right fun hr => and_congr_right fun _ => ?_
  exact (Range.contains_iff_place (hproper r hr) hv).symm

theorem mono (h : Covered ranges s x y) (hsubset : ranges ⊆ ranges') : Covered ranges' s x y := by
  obtain ⟨r, hr, hcovers⟩ := h
  exact ⟨r, hsubset hr, hcovers⟩

/-- Neighbouring places of a union are together in one of the two ranges. -/
theorem requeue_join_iff (hwaiting : Waiting (first :: second :: rest))
    (hmeet : second.lo ≤ first.hi) (hsame : first.status = second.status) (hnear : y ≤ x + 1) :
    Covered (requeue [first.join second] rest) s x y ↔ Covered (first :: second :: rest) s x y := by
  have hstart : first.lo ≤ second.lo := hwaiting.head_lo_le List.mem_cons_self
  -- Since the ranges meet, no two neighbouring places are on different sides of the seam.
  have hjoin : ((first.join second).lo ≤ x ∧ y ≤ (first.join second).hi) ↔
      (first.lo ≤ x ∧ y ≤ first.hi) ∨ second.lo ≤ x ∧ y ≤ second.hi := by
    rw [Range.lo_join, Range.hi_join hwaiting.head hwaiting.tail.head]
    omega
  constructor
  · rintro ⟨r, hr, hstatus, hcovers⟩
    rcases mem_requeue.mp hr with hr | hr
    · obtain rfl := List.mem_singleton.mp hr
      rcases hjoin.mp hcovers with hcovers | hcovers
      · exact ⟨first, by simp, hstatus, hcovers⟩
      · exact ⟨second, by simp, hsame.symm.trans hstatus, hcovers⟩
    · exact ⟨r, by simp [hr], hstatus, hcovers⟩
  · rintro ⟨r, hr, hstatus, hcovers⟩
    have hmem : first.join second ∈ requeue [first.join second] rest :=
      mem_requeue.mpr (.inl List.mem_cons_self)
    rcases List.mem_cons.mp hr with rfl | hr
    · exact ⟨_, hmem, hstatus, hjoin.mpr (.inl hcovers)⟩
    rcases List.mem_cons.mp hr with rfl | hr
    · exact ⟨_, hmem, hsame.trans hstatus, hjoin.mpr (.inr hcovers)⟩
    · exact ⟨r, mem_requeue.mpr (.inr hr), hstatus, hcovers⟩

end Covered

/-! ### What the steps keep -/

/-- A lower and a higher range of a queue meet, and the rest of it starts no earlier than the
higher one. -/
structure Meeting (lower higher : Range) (queue rest : List Range) : Prop where
  mem_iff : ∀ r, r ∈ queue ↔ r = lower ∨ r = higher ∨ r ∈ rest
  lower_proper : lower.isProper = true
  higher_proper : higher.isProper = true
  lo_le : ∀ r ∈ rest, higher.lo ≤ r.lo
  status_lt : lower.status < higher.status
  meet : lower.lo ≤ higher.hi

namespace Meeting

variable {first second lower higher : Range} {queue rest : List Range}

theorem of_keepFirst (hwaiting : Waiting (first :: second :: rest)) (hmeet : second.lo ≤ first.hi)
    (hhigher : second.status < first.status) :
    Meeting second first (first :: second :: rest) rest where
  mem_iff r := by
    rw [List.mem_cons, List.mem_cons]
    exact or_left_comm
  lower_proper := hwaiting.tail.head
  higher_proper := hwaiting.head
  lo_le r hr := hwaiting.head_lo_le (List.mem_cons_of_mem second hr)
  status_lt := hhigher
  meet := hmeet

theorem of_keepSecond (hwaiting : Waiting (first :: second :: rest))
    (hhigher : first.status < second.status) :
    Meeting first second (first :: second :: rest) rest where
  mem_iff r := by rw [List.mem_cons, List.mem_cons]
  lower_proper := hwaiting.head
  higher_proper := hwaiting.tail.head
  lo_le r hr := hwaiting.tail.head_lo_le hr
  status_lt := hhigher
  meet := (hwaiting.head_lo_le List.mem_cons_self).trans (Range.lo_le_hi hwaiting.tail.head)

theorem lower_mem (h : Meeting lower higher queue rest) : lower ∈ queue :=
  (h.mem_iff lower).mpr (.inl rfl)

theorem higher_mem (h : Meeting lower higher queue rest) : higher ∈ queue :=
  (h.mem_iff higher).mpr (.inr (.inl rfl))

theorem rest_subset (h : Meeting lower higher queue rest) : rest ⊆ queue :=
  fun r hr => (h.mem_iff r).mpr (.inr (.inr hr))

end Meeting

/-- The property of the front and the queue outlives every step of the sweep. -/
structure Kept (P : Int → List Range → Prop) : Prop where
  /-- The front range is final. -/
  settle : ∀ {front first second rest}, Waiting (first :: second :: rest) →
    first.hi < second.lo → P front (first :: second :: rest) → P second.lo (second :: rest)
  /-- The front ranges become one. -/
  join : ∀ {front first second rest}, Waiting (first :: second :: rest) →
    second.lo ≤ first.hi → first.status = second.status → P front (first :: second :: rest) →
      P front (requeue [first.join second] rest)
  /-- The higher of the front ranges stays, and the other keeps what lies above. -/
  cut : ∀ {front lower higher queue rest}, Meeting lower higher queue rest → P front queue →
    P higher.lo (requeue (higher :: (lower.above higher).toList) rest)

namespace Kept

variable {P Q : Int → List Range → Prop}

theorem and (hP : Kept P) (hQ : Kept Q) : Kept fun front queue => P front queue ∧ Q front queue :=
  ⟨fun hwaiting hapart h => ⟨hP.settle hwaiting hapart h.1, hQ.settle hwaiting hapart h.2⟩,
    fun hwaiting hmeet hsame h =>
      ⟨hP.join hwaiting hmeet hsame h.1, hQ.join hwaiting hmeet hsame h.2⟩,
    fun hmeeting h => ⟨hP.cut hmeeting h.1, hQ.cut hmeeting h.2⟩⟩

theorem forall_of {ι : Sort*} {P : ι → Int → List Range → Prop} (h : ∀ i, Kept (P i)) :
    Kept fun front queue => ∀ i, P i front queue :=
  ⟨fun hwaiting hapart hP i => (h i).settle hwaiting hapart (hP i),
    fun hwaiting hmeet hsame hP i => (h i).join hwaiting hmeet hsame (hP i),
    fun hmeeting hP i => (h i).cut hmeeting (hP i)⟩

end Kept

/-! ### Leaving the queue -/

/-- The ways for the front range to leave the queue, with what is final of it. -/
inductive Leaves : Range → List Range → Option Range → Prop
  /-- Nothing else waits. -/
  | alone {first : Range} (waiting : Waiting [first]) : Leaves first [] (some first)
  /-- It ends before the next range starts. -/
  | apart {first second : Range} {rest : List Range} (waiting : Waiting (first :: second :: rest))
      (apart : first.hi < second.lo) : Leaves first (second :: rest) (some first)
  /-- The next range is higher and takes over. -/
  | cut {first second : Range} {rest : List Range} (waiting : Waiting (first :: second :: rest))
      (meet : second.lo ≤ first.hi) (higher : first.status < second.status) :
      Leaves first (second :: rest) (first.below second)

namespace Leaves

variable {first r : Range} {rest : List Range} {piece : Option Range}

theorem waiting (h : Leaves first rest piece) : Waiting (first :: rest) := by
  cases h with
  | alone waiting | apart waiting | cut waiting => exact waiting

/-- What is final of a range starts where the range does and ends no later. -/
theorem of_mem (h : Leaves first rest piece) (hr : r ∈ piece) :
    r.status = first.status ∧ r.lo = first.lo ∧ r.hi ≤ first.hi := by
  cases h with
  | alone | apart =>
    obtain rfl := Option.some.inj hr
    exact ⟨rfl, rfl, le_rfl⟩
  | cut waiting meet _ =>
    obtain ⟨-, hlo, hhi⟩ := waiting.of_below (Option.mem_toList.mpr hr)
    exact ⟨(Range.of_below hr).1, hlo, hhi.le.trans meet⟩

/-- What is final of a range ends before anything else that waits starts. -/
theorem hi_lt (h : Leaves first rest piece) (hr : r ∈ piece) {q : Range} (hq : q ∈ rest) :
    r.hi < q.lo := by
  cases h with
  | alone => simp at hq
  | apart waiting apart =>
    obtain rfl := Option.some.inj hr
    exact apart.trans_le (waiting.tail.head_lo_le_of_mem hq)
  | cut waiting =>
    obtain ⟨-, -, hend⟩ := waiting.of_below (Option.mem_toList.mpr hr)
    exact hend.trans_le (waiting.tail.head_lo_le_of_mem hq)

end Leaves

namespace Sweeps

variable {queue out : List Range} {front x : Int} {r : Range} {P : Int → List Range → Prop}

/-- A range of the result left the queue at a moment of the sweep. -/
theorem exists_leaves_of_mem (h : Sweeps queue out) (hkept : Kept P) (front : Int)
    (hP : P front queue) (hr : r ∈ out) :
    ∃ front first rest piece, P front (first :: rest) ∧ Leaves first rest piece ∧ r ∈ piece := by
  induction h generalizing front with
  | nil => simp at hr
  | @last last waiting =>
    obtain rfl := List.mem_singleton.mp hr
    exact ⟨front, r, [], some r, hP, .alone waiting, rfl⟩
  | @settle first second rest out waiting apart _ ih =>
    rcases List.mem_cons.mp hr with rfl | hr
    · exact ⟨front, r, second :: rest, some r, hP, .apart waiting apart, rfl⟩
    · exact ih _ (hkept.settle waiting apart hP) hr
  | join waiting meet same _ ih => exact ih _ (hkept.join waiting meet same hP) hr
  | keepFirst waiting meet higher _ ih =>
    exact ih _ (hkept.cut (.of_keepFirst waiting meet higher) hP) hr
  | @keepSecond first second rest out waiting meet higher _ ih =>
    rcases List.mem_append.mp hr with hr | hr
    · exact ⟨front, first, second :: rest, first.below second, hP, .cut waiting meet higher,
        Option.mem_toList.mp hr⟩
    · exact ih _ (hkept.cut (.of_keepSecond waiting higher) hP) hr

/-- If something always waits that starts no later than a place, the front passes the place at
a moment of the sweep, when a range leaves the queue. -/
theorem exists_leaves_of_le (h : Sweeps queue out) (hkept : Kept P)
    (hwaits : ∀ {front queue}, Waiting queue → P front queue → front ≤ x → ∃ r ∈ queue, r.lo ≤ x)
    (hP : P front queue) (hfront : front ≤ x) :
    ∃ front first rest piece, front ≤ x ∧ P front (first :: rest) ∧ Leaves first rest piece ∧
      (∀ r ∈ rest, x < r.lo) ∧ ∀ r ∈ piece, r ∈ out := by
  induction h generalizing front with
  | nil =>
    obtain ⟨r, hr, -⟩ := hwaits Sweeps.nil.waiting hP hfront
    simp at hr
  | @last r waiting =>
    exact ⟨front, r, [], some r, hfront, hP, .alone waiting, by simp, by simp⟩
  | @settle first second rest out waiting apart _ ih =>
    rcases lt_or_ge x second.lo with hbefore | hafter
    · refine ⟨front, first, second :: rest, some first, hfront, hP, .apart waiting apart, ?_, ?_⟩
      · exact fun r hr => hbefore.trans_le (waiting.tail.head_lo_le_of_mem hr)
      · simp
    · obtain ⟨front, first', rest', piece, hle, hmoment, hleaves, hlater, hpiece⟩ :=
        ih (hkept.settle waiting apart hP) hafter
      exact ⟨front, first', rest', piece, hle, hmoment, hleaves, hlater,
        fun r hr => List.mem_cons_of_mem first (hpiece r hr)⟩
  | join waiting meet same _ ih => exact ih (hkept.join waiting meet same hP) hfront
  | @keepFirst first second rest out waiting meet higher _ ih =>
    -- The front moves up to the first range, which starts no later than anything that waits.
    obtain ⟨r, hr, hle⟩ := hwaits waiting hP hfront
    exact ih (hkept.cut (.of_keepFirst waiting meet higher) hP)
      ((waiting.head_lo_le_of_mem hr).trans hle)
  | @keepSecond first second rest out waiting meet higher _ ih =>
    rcases lt_or_ge x second.lo with hbefore | hafter
    · refine ⟨front, first, second :: rest, first.below second, hfront, hP,
        .cut waiting meet higher, ?_, ?_⟩
      · exact fun r hr => hbefore.trans_le (waiting.tail.head_lo_le_of_mem hr)
      · exact fun r hr => List.mem_append_left _ (Option.mem_toList.mpr hr)
    · obtain ⟨front, first', rest', piece, hle, hmoment, hleaves, hlater, hpiece⟩ :=
        ih (hkept.cut (.of_keepSecond waiting higher) hP) hafter
      exact ⟨front, first', rest', piece, hle, hmoment, hleaves, hlater,
        fun r hr => List.mem_append_right _ (hpiece r hr)⟩

end Sweeps

/-! ### Back to the given ranges -/

/-- The queue covers neighbouring places only where a given range does. -/
def Derived (given queue : List Range) : Prop :=
  ∀ s x y, y ≤ x + 1 → Covered queue s x y → Covered given s x y

theorem Derived.kept {given : List Range} : Kept fun _ queue => Derived given queue where
  settle _ _ h s x y hnear hcovered :=
    h s x y hnear (hcovered.mono (List.subset_cons_self _ _))
  join hwaiting hmeet hsame h s x y hnear hcovered :=
    h s x y hnear ((Covered.requeue_join_iff hwaiting hmeet hsame hnear).mp hcovered)
  cut {_ lower higher _ _} hmeeting h s x y hnear := by
    rintro ⟨r, hr, hstatus, hcovers⟩
    apply h s x y hnear
    rcases mem_requeue.mp hr with hr | hr
    · rcases List.mem_cons.mp hr with rfl | hr
      · exact ⟨r, hmeeting.higher_mem, hstatus, hcovers⟩
      · -- What lies above the higher range is within the lower one, since the two meet.
        have hpiece := Option.mem_toList.mp hr
        have hafter := (Range.isProper_of_above hmeeting.lower_proper hmeeting.higher_proper
          hpiece).2
        have hmeet := hmeeting.meet
        obtain ⟨hsame, -, hend⟩ := Range.of_above hpiece
        exact ⟨lower, hmeeting.lower_mem, hsame.symm.trans hstatus, by omega, by omega⟩
    · exact ⟨r, hmeeting.rest_subset hr, hstatus, hcovers⟩

/-- The range starts at a given bound or at a nudged one, and ends at a given one. -/
structure Bordered (given : List Range) (r : Range) : Prop where
  starts : ∃ g ∈ given, r.lo = g.lo ∨ r.lo = (nudgeUp g.max).place
  ends : ∃ g ∈ given, r.hi = g.hi

theorem Bordered.kept {given : List Range} (hgiven : ∀ g ∈ given, g.isProper = true) :
    Kept fun _ queue => ∀ r ∈ queue, Bordered given r where
  settle _ _ h := (List.forall_mem_cons.mp h).2
  join {_ first second rest} hwaiting _ _ h := by
    have hfirst := h first (by simp)
    refine forall_mem_requeue.mpr ⟨?_, fun r hr => h r (by simp [hr])⟩
    rw [List.forall_mem_singleton]
    refine ⟨hfirst.starts, ?_⟩
    rw [Range.hi_join hwaiting.head hwaiting.tail.head]
    rcases max_choice first.hi second.hi with hmax | hmax
    · rw [hmax]
      exact hfirst.ends
    · rw [hmax]
      exact (h second (by simp)).ends
  cut {_ lower higher _ _} hmeeting h := by
    have hhigher := h higher hmeeting.higher_mem
    refine forall_mem_requeue.mpr ⟨List.forall_mem_cons.mpr ⟨hhigher, fun r hr => ?_⟩,
      fun r hr => h r (hmeeting.rest_subset hr)⟩
    obtain ⟨-, hstart, hend⟩ := Range.of_above (Option.mem_toList.mp hr)
    obtain ⟨g, hg, hghi⟩ := hhigher.ends
    refine ⟨⟨g, hg, .inr ?_⟩, ?_⟩
    -- The higher range ends at the place of a given bound, and a nudge sees the place only.
    · rw [hstart, nudgeUp_congr (Range.isFinite_max hmeeting.higher_proper)
        (Range.isFinite_max (hgiven g hg)) hghi]
    · rw [hend]
      exact (h lower hmeeting.lower_mem).ends

namespace Sweeps

variable {given queue out : List Range} {r : Range} {s : Status} {x y : Int}

theorem covered_given (h : Sweeps queue out) (hsubset : queue ⊆ given) (hnear : y ≤ x + 1)
    (hcovered : Covered out s x y) : Covered given s x y := by
  obtain ⟨r, hr, hstatus, hlo, hhi⟩ := hcovered
  have hstart : Derived given queue := fun s x y _ h => h.mono hsubset
  obtain ⟨_, first, rest, piece, hderived, hleaves, hpiece⟩ :=
    h.exists_leaves_of_mem Derived.kept x hstart hr
  obtain ⟨hsame, hfirst, hend⟩ := hleaves.of_mem hpiece
  exact hderived s x y hnear ⟨first, List.mem_cons_self, hsame.symm.trans hstatus,
    hfirst.symm.trans_le hlo, hhi.trans hend⟩

/-- A range of the result starts at a given bound, or at a nudged upper one. -/
theorem exists_start (h : Sweeps queue out) (hgiven : ∀ g ∈ given, g.isProper = true)
    (hsubset : queue ⊆ given) (hr : r ∈ out) :
    ∃ g ∈ given, r.lo = g.lo ∨ r.lo = (nudgeUp g.max).place := by
  have hstart : ∀ r ∈ queue, Bordered given r := fun r hr =>
    ⟨⟨r, hsubset hr, .inl rfl⟩, ⟨r, hsubset hr, rfl⟩⟩
  obtain ⟨_, first, rest, piece, hbordered, hleaves, hpiece⟩ :=
    h.exists_leaves_of_mem (Bordered.kept hgiven) r.lo hstart hr
  rw [(hleaves.of_mem hpiece).2.1]
  exact (hbordered first List.mem_cons_self).starts

end Sweeps

end StatusBoard
