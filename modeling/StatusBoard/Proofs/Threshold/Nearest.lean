import StatusBoard.Proofs.Threshold.Precedence

/-!
# Where a status gives way

What the result keeps of a status is read off the given ranges alone. A value with the status
meets no other end of it than the nearest start of a higher range. If ranges of the status lead
from the value to that start without a gap, the sweep cuts there, and the status ends at the
nudged bound. If there is a gap, they have ended before.

The sweep is followed at the value, at every place up to the nearest start, and at that start,
where a range of the status that is highest there waits.

## Main definitions

* `Nearest` — the first range of a higher status to start after a value
* `Spans` — ranges of a status lead from one place to another without a gap
* `Yields` — the status of a value gives way before a place
* `Linked` — the state of the sweep at a value and the next place

## Main results

* `Sweeps.covered_of_not_yields`, `Sweeps.not_covered_of_yields` — what a sweep keeps of a status
* `mergeOverlaps_covered_iff` — the same for the canonical set of the ranges in any order
-/

namespace StatusBoard

open Binary64

theorem Range.contains_min {r : Range} (hr : r.isProper = true) : r.contains r.min = true :=
  (contains_iff_place hr (isNumber_min hr)).mpr ⟨le_rfl, lo_le_hi hr⟩

theorem Range.contains_max {r : Range} (hr : r.isProper = true) : r.contains r.max = true :=
  (contains_iff_place hr (isNumber_max hr)).mpr ⟨lo_le_hi hr, le_rfl⟩

/-- The first range of a higher status to start after the value, and the highest status where
it starts. -/
structure Nearest (given : List Range) (v : Binary64) (s : Status) (n : Range) (t : Status) :
    Prop where
  mem : n ∈ given
  higher : s < n.status
  after : v.place < n.lo
  le_lo : ∀ k ∈ given, s < k.status → v.place < k.lo → n.lo ≤ k.lo
  highestAt : HighestAt given n.min t

/-- Ranges of the status lead from the one place to the other without a gap. -/
def Spans (given : List Range) (s : Status) (x y : Int) : Prop :=
  ∀ u, x ≤ u → u < y → Covered given s u (u + 1)

/-- Ranges of the status lead from the value to the nearest start of a higher range, and the
nudged bound is before the place. -/
def Yields (given : List Range) (v : Binary64) (s : Status) (y : Int) : Prop :=
  ∃ n t, Nearest given v s n t ∧ (nudgeDown n.min).place < y ∧ Spans given s v.place n.lo

theorem exists_nearest {given : List Range} {v : Binary64} {s : Status}
    (hproper : ∀ g ∈ given, g.isProper = true)
    (h : ∃ k ∈ given, s < k.status ∧ v.place < k.lo) : ∃ n t, Nearest given v s n t := by
  let later := (given.filter fun k => s < k.status ∧ v.place < k.lo).toFinset
  have hmem : ∀ k, k ∈ later ↔ k ∈ given ∧ s < k.status ∧ v.place < k.lo := fun k => by
    simp [later]
  obtain ⟨k, hk⟩ := h
  obtain ⟨n, hn, hmin⟩ := Finset.exists_min_image later Range.lo ⟨k, (hmem k).mpr hk⟩
  obtain ⟨hgiven, hhigher, hafter⟩ := (hmem n).mp hn
  obtain ⟨t, ht⟩ := exists_highestAt ⟨n, hgiven, Range.contains_min (hproper n hgiven)⟩
  exact ⟨n, t, hgiven, hhigher, hafter,
    fun k hk hlt hlo => hmin k ((hmem k).mpr ⟨hk, hlt, hlo⟩), ht⟩

/-! ### Up to the nearest start -/

namespace Nearest

variable {given rest : List Range} {v w : Binary64} {s t : Status} {n k first second : Range}
  {front : Int}

/-- A higher range that starts before the nearest one has ended before the value. -/
theorem hi_lt (h : Nearest given v s n t) (hclear : Clear given v s) (hk : k ∈ given)
    (hlt : s < k.status) (hbefore : k.lo < n.lo) : k.hi < v.place := by
  by_contra hend
  have hstart : k.lo ≤ v.place := by
    by_contra hafter
    have := h.le_lo k hk hlt (not_le.mp hafter)
    omega
  have hin := (Range.contains_iff_place (hclear.proper k hk) hclear.isNumber).mpr
    ⟨hstart, not_lt.mp hend⟩
  exact not_le.mpr hlt (hclear.highestAt.highest k hk hin)

/-- No place from the value to the nearest start is just above a higher range. -/
theorem not_justAbove (h : Nearest given v s n t) (hclear : Clear given v s) (hw : w.IsNumber)
    (hfrom : v.place ≤ w.place) (hto : w.place ≤ n.lo) (hk : k ∈ given) (hlt : s < k.status) :
    ¬ k.JustAbove w := by
  intro habove
  have hproper := hclear.proper k hk
  obtain ⟨hafter, hbefore⟩ := (Range.justAbove_iff_place hproper hw).mp habove
  have hend := h.hi_lt hclear hk hlt ((Range.lo_le_hi hproper).trans_lt (hafter.trans_le hto))
  exact hclear.not_justAbove k hk hlt
    ((Range.justAbove_iff_place hproper hclear.isNumber).mpr ⟨hend, hfrom.trans_lt hbefore⟩)

/-- A value of the status before the nearest start is clear. -/
theorem clear_before (h : Nearest given v s n t) (hclear : Clear given v s) (hw : w.IsNumber)
    (hfrom : v.place ≤ w.place) (hto : w.place < n.lo)
    (hcovered : Covered given s w.place (w.place + 1)) : Clear given w s := by
  obtain ⟨g, hg, hstatus, hstart, hend⟩ := hcovered
  have hin := (Range.contains_iff_place (hclear.proper g hg) hw).mpr ⟨hstart, by omega⟩
  refine ⟨hclear.proper, hw, ⟨⟨g, hg, hin, hstatus⟩, fun k hk hkin => ?_⟩, fun k hk hlt => ?_⟩
  -- A higher range with the value starts before the nearest one, so it ended before `v`.
  · by_contra hlt
    obtain ⟨hkstart, hkend⟩ := (Range.contains_iff_place (hclear.proper k hk) hw).mp hkin
    have := h.hi_lt hclear hk (not_le.mp hlt) (hkstart.trans_lt hto)
    omega
  · exact h.not_justAbove hclear hw hfrom hto.le hk hlt

theorem lt_status (h : Nearest given v s n t) (hclear : Clear given v s) : s < t :=
  h.higher.trans_le
    (h.highestAt.highest n h.mem (Range.contains_min (hclear.proper n h.mem)))

/-- The nearest start is clear. -/
theorem clear_min (h : Nearest given v s n t) (hclear : Clear given v s) :
    Clear given n.min t := by
  have hnumber := Range.isNumber_min (hclear.proper n h.mem)
  refine ⟨hclear.proper, hnumber, h.highestAt, fun k hk hlt => ?_⟩
  apply h.not_justAbove hclear hnumber h.after.le le_rfl hk
  exact (h.lt_status hclear).trans hlt

/-- If the first range has the status, then whatever starts after the nearest start is not the
second one. -/
theorem second_lo_le (h : Nearest given v s n t) (hclear : Clear given v s)
    (hwaiting : Waiting (first :: second :: rest))
    (hthere : Pending given n.min t front (first :: second :: rest)) (hfront : front ≤ v.place)
    (hsame : first.status = s) : second.lo ≤ n.lo := by
  by_contra hlater
  have hfirst := (hthere.first_of_lt hwaiting (h.clear_min hclear).isNumber
    (hfront.trans h.after.le)
    fun r hr => (not_le.mp hlater).trans_le (hwaiting.tail.head_lo_le_of_mem hr)).1
  exact (h.lt_status hclear).ne (hsame.symm.trans hfirst)

/-- The higher range that cuts the one with the value starts at the nearest start, so it is cut
back to the nudge of that. -/
theorem nudgeDown_second (h : Nearest given v s n t) (hclear : Clear given v s)
    (hwaiting : Waiting (first :: second :: rest))
    (hhere : Pending given v s front (first :: second :: rest))
    (hthere : Pending given n.min t front (first :: second :: rest)) (hfront : front ≤ v.place)
    (hsame : first.status = s) (hhigher : first.status < second.status)
    (hbefore : v.place < second.lo) :
    second.lo = n.lo ∧ nudgeDown second.min = nudgeDown n.min := by
  have heq : second.lo = n.lo := by
    apply le_antisymm (h.second_lo_le hclear hwaiting hthere hfront hsame)
    obtain ⟨g, hg, hstatus, hstart⟩ :=
      (hhere.traced second (by simp)).exists_start hclear (hsame ▸ hhigher) hfront hbefore
    rw [← hstart]
    apply h.le_lo g hg
    · rwa [hstatus, ← hsame]
    · rwa [hstart]
  refine ⟨heq, nudgeDown_congr ?_ ?_ heq⟩
  · exact Range.isFinite_min hwaiting.tail.head
  · exact Range.isFinite_min (hclear.proper n h.mem)

end Nearest

/-! ### The sweep at neighbouring places -/

/-- The state of the sweep at a value and a place that is the same or the next: as long as the
front has not passed the value, a range with the status `s` that covers both waits. -/
structure Linked (given : List Range) (v : Binary64) (s : Status) (y front : Int)
    (queue : List Range) : Prop extends Pending given v s front queue where
  linked : front ≤ v.place → Covered queue s v.place y

namespace Linked

variable {given queue rest : List Range} {v : Binary64} {s : Status} {y front : Int}
  {first : Range}

theorem of_perm (hclear : Clear given v s) (hperm : queue.Perm given)
    (hcovered : Covered given s v.place y) : Linked given v s y (-infinityRank) queue :=
  ⟨.of_perm hclear hperm, fun _ => hcovered.mono hperm.symm.subset⟩

/-- The state is kept, since a cut leaves everything from a clear value on. -/
theorem kept (hclear : Clear given v s) (hle : v.place ≤ y) (hnear : y ≤ v.place + 1) :
    Kept (Linked given v s y) where
  settle {front first second rest} hwaiting hapart h := by
    refine ⟨(Pending.kept hclear).settle hwaiting hapart h.toPending, fun hfront => ?_⟩
    obtain ⟨r, hr, hstatus, hlo, hhi⟩ :=
      h.linked ((h.front_le second (by simp)).trans hfront)
    rcases List.mem_cons.mp hr with rfl | hr
    · omega
    · exact ⟨r, hr, hstatus, hlo, hhi⟩
  join hwaiting hmeet hsame h := by
    refine ⟨(Pending.kept hclear).join hwaiting hmeet hsame h.toPending, fun hfront => ?_⟩
    exact (Covered.requeue_join_iff hwaiting hmeet hsame hnear).mpr (h.linked hfront)
  cut {front lower higher queue rest} hmeeting h := by
    have hlower := hmeeting.lower_proper
    have hhigher := hmeeting.higher_proper
    refine ⟨(Pending.kept hclear).cut hmeeting h.toPending, fun hfront => ?_⟩
    obtain ⟨r, hr, hstatus, hlo, hhi⟩ :=
      h.linked ((h.front_le higher hmeeting.higher_mem).trans hfront)
    rcases (hmeeting.mem_iff r).mp hr with rfl | rfl | hr
    -- If the lower range covers the places, the piece above the higher one still does.
    · have hbeyond := (h.traced higher hmeeting.higher_mem).nudgeUp_le hclear hhigher
        (hstatus ▸ hmeeting.status_lt) hfront
      have hpiece := (Range.above_eq_some_iff hlower hhigher).mpr
        ⟨hbeyond.trans (hle.trans hhi), rfl⟩
      exact ⟨_, mem_requeue.mpr (.inl (List.mem_cons_of_mem _ (Option.mem_toList.mpr hpiece))),
        hstatus, hbeyond, hhi⟩
    · exact ⟨r, mem_requeue.mpr (.inl List.mem_cons_self), hstatus, hlo, hhi⟩
    · exact ⟨r, mem_requeue.mpr (.inr hr), hstatus, hlo, hhi⟩

/-- If the rest starts later, the first range covers both places. -/
theorem first_covers (h : Linked given v s y front (first :: rest)) (hfront : front ≤ v.place)
    (hlater : ∀ r ∈ rest, v.place < r.lo) :
    first.status = s ∧ first.lo ≤ v.place ∧ y ≤ first.hi := by
  obtain ⟨r, hr, hcovers⟩ := h.linked hfront
  rcases List.mem_cons.mp hr with rfl | hr
  · exact hcovers
  · have := hlater r hr
    omega

/-- If the status does not give way, the range that cuts it leaves both places below. -/
theorem le_nudgeDown {second : Range} (h : Linked given v s y front (first :: second :: rest))
    (hclear : Clear given v s) (hwaiting : Waiting (first :: second :: rest))
    (hderived : Derived given (first :: second :: rest))
    (hnearest : ∀ n t, Nearest given v s n t →
      Pending given n.min t front (first :: second :: rest))
    (hfront : front ≤ v.place) (hmeet : second.lo ≤ first.hi)
    (hhigher : first.status < second.status) (hbefore : ∀ r ∈ second :: rest, v.place < r.lo)
    (hyields : ¬ Yields given v s y) : y ≤ (nudgeDown second.min).place := by
  obtain ⟨hsame, hlo, -⟩ := h.first_covers hfront hbefore
  have hafter := hbefore second List.mem_cons_self
  -- The second range starts where a given one does, so there is a nearest start, which is this.
  have hlt : s < second.status := hsame ▸ hhigher
  obtain ⟨g, hg, hstatus, hglo⟩ :=
    (h.traced second (by simp)).exists_start hclear hlt hfront hafter
  obtain ⟨n, t, hn⟩ := exists_nearest hclear.proper
    ⟨g, hg, hlt.trans_eq hstatus.symm, hafter.trans_eq hglo.symm⟩
  obtain ⟨heq, hnudge⟩ := hn.nudgeDown_second hclear hwaiting h.toPending (hnearest n t hn)
    hfront hsame hhigher hafter
  have hspans : Spans given s v.place n.lo := fun u hfrom hto => by
    apply hderived s u (u + 1) le_rfl
    exact ⟨first, List.mem_cons_self, hsame, hlo.trans hfrom, by omega⟩
  by_contra hbeyond
  rw [hnudge] at hbeyond
  exact hyields ⟨n, t, hn, not_le.mp hbeyond, hspans⟩

end Linked

/-- Where ranges of the status lead up to the nearest start, the first range does not end before
the next one starts. -/
theorem Nearest.second_lo_le_hi {given rest : List Range} {v : Binary64} {s t : Status}
    {n first second : Range} {front : Int} (h : Nearest given v s n t) (hclear : Clear given v s)
    (hwaiting : Waiting (first :: second :: rest))
    (hbetween : ∀ w : Binary64, w.IsNumber → v.place ≤ w.place → w.place < n.lo →
      Linked given w s (w.place + 1) front (first :: second :: rest))
    (hthere : Pending given n.min t front (first :: second :: rest)) (hfront : front ≤ v.place)
    (hsame : first.status = s) (hreach : v.place ≤ first.hi) : second.lo ≤ first.hi := by
  by_contra hapart
  have hsecond := h.second_lo_le hclear hwaiting hthere hfront hsame
  -- The place where the first range ends and the next one are together in a waiting range.
  have hlast := hbetween first.max (Range.isNumber_max hwaiting.head) hreach
    ((not_le.mp hapart).trans_le hsecond)
  have hbeyond : first.hi + 1 ≤ first.hi := (hlast.first_covers (hfront.trans hreach)
    fun q hq => (not_le.mp hapart).trans_le (hwaiting.tail.head_lo_le_of_mem hq)).2.2
  omega

/-! ### What is kept of a status -/

namespace Sweeps

variable {given queue out : List Range} {v : Binary64} {s : Status} {y : Int}

/-- A status that does not give way is kept. -/
theorem covered_of_not_yields (h : Sweeps queue out) (hperm : queue.Perm given)
    (hclear : Clear given v s) (hle : v.place ≤ y) (hnear : y ≤ v.place + 1)
    (hcovered : Covered given s v.place y) (hyields : ¬ Yields given v s y) :
    Covered out s v.place y := by
  -- The sweep is followed at the value, and at the nearest start if there is one.
  let P := fun front queue => Linked given v s y front queue ∧ Derived given queue ∧
    ∀ n t, Nearest given v s n t → Pending given n.min t front queue
  have hkept : Kept P := (Linked.kept hclear hle hnear).and (Derived.kept.and
    (.forall_of fun n => .forall_of fun t => .forall_of fun hn =>
      Pending.kept (hn.clear_min hclear)))
  have hstart : P (-infinityRank) queue := ⟨.of_perm hclear hperm hcovered,
    fun _ _ _ _ hcovered => hcovered.mono hperm.subset,
    fun n t hn => .of_perm (hn.clear_min hclear) hperm⟩
  have hbottom : -infinityRank ≤ v.place := by
    obtain ⟨g, hg, -, hlo, -⟩ := hcovered
    exact (hstart.1.front_le g (hperm.mem_iff.mpr hg)).trans hlo
  have hwaits : ∀ {front queue}, Waiting queue → P front queue → front ≤ v.place →
      ∃ r ∈ queue, r.lo ≤ v.place := by
    intro front queue _ hP hfront
    obtain ⟨r, hr, -, hlo, -⟩ := hP.1.linked hfront
    exact ⟨r, hr, hlo⟩
  obtain ⟨front, first, rest, piece, hfront, ⟨hlinked, hderived, hnearest⟩, hleaves, hlater,
    hpiece⟩ := h.exists_leaves_of_le hkept hwaits hstart hbottom
  obtain ⟨hsame, hlo, hhi⟩ := hlinked.first_covers hfront hlater
  cases hleaves with
  | alone | apart => exact ⟨first, hpiece first rfl, hsame, hlo, hhi⟩
  | @cut second _ waiting meet higher =>
    have hend : y ≤ (nudgeDown second.min).place := hlinked.le_nudgeDown hclear waiting hderived
      hnearest hfront meet higher hlater hyields
    have hbelow := (Range.below_eq_some_iff waiting.head waiting.tail.head).mpr
      ⟨hlo.trans (hle.trans hend), rfl⟩
    exact ⟨_, hpiece _ hbelow, hsame, hlo, hend⟩

/-- A status that gives way is not kept. -/
theorem not_covered_of_yields (h : Sweeps queue out) (hperm : queue.Perm given)
    (hclear : Clear given v s) (hle : v.place ≤ y) (hyields : Yields given v s y) :
    ¬ Covered out s v.place y := by
  rintro ⟨r, hr, hstatus, hlo, hhi⟩
  obtain ⟨n, t, hn, hnudge, hspans⟩ := hyields
  have hbetween : ∀ w : Binary64, w.IsNumber → v.place ≤ w.place → w.place < n.lo →
      Clear given w s := fun w hw hfrom hto =>
    hn.clear_before hclear hw hfrom hto (hspans w.place hfrom hto)
  -- The sweep is followed at every place from the value up to the nearest start.
  let P := fun front queue => (∀ w : Binary64, w.IsNumber → v.place ≤ w.place → w.place < n.lo →
    Linked given w s (w.place + 1) front queue) ∧ Pending given n.min t front queue
  have hkept : Kept P := .and (.forall_of fun w => .forall_of fun hw => .forall_of fun hfrom =>
    .forall_of fun hto => Linked.kept (hbetween w hw hfrom hto) (by omega) le_rfl)
      (Pending.kept (hn.clear_min hclear))
  have hstart : P (-infinityRank) queue := ⟨fun w hw hfrom hto =>
    .of_perm (hbetween w hw hfrom hto) hperm (hspans w.place hfrom hto),
    .of_perm (hn.clear_min hclear) hperm⟩
  obtain ⟨front, first, rest, piece, ⟨hlinked, hthere⟩, hleaves, hpiece⟩ :=
    h.exists_leaves_of_mem hkept _ hstart hr
  obtain ⟨hsame, hfirst, hend⟩ := hleaves.of_mem hpiece
  rw [hstatus] at hsame
  have hhere := hlinked v hclear.isNumber le_rfl hn.after
  have hfront : front ≤ v.place :=
    (hhere.front_le first List.mem_cons_self).trans (hfirst.symm.trans_le hlo)
  cases hleaves with
  | alone waiting =>
    -- A higher range waits at the nearest start as well, so the range is not alone.
    obtain ⟨q, hq, htop, -⟩ := hthere.intact (hfront.trans hn.after.le)
    obtain rfl := List.mem_singleton.mp hq
    exact (hn.lt_status hclear).ne (hsame.trans htop)
  | @apart second _ waiting apart =>
    have hmeet := hn.second_lo_le_hi hclear waiting hlinked hthere hfront hsame.symm
      (hle.trans (hhi.trans hend))
    omega
  | cut waiting meet higher =>
    -- What is final of the range ends at the nudge of the nearest start, before the place.
    obtain ⟨-, -, hbelow⟩ := waiting.of_below (Option.mem_toList.mpr hpiece)
    obtain ⟨-, hcut⟩ := hn.nudgeDown_second hclear waiting hhere.toPending hthere hfront
      hsame.symm higher (by omega)
    have hlast := (Range.of_below hpiece).2.2
    rw [hcut] at hlast
    omega

end Sweeps

/-- What the canonical set keeps of a status is the same for the ranges in any order. -/
theorem mergeOverlaps_covered_iff {given ranges : List Range} {v : Binary64} {s : Status} {y : Int}
    (hperm : ranges.Perm given) (hclear : Clear given v s) (hle : v.place ≤ y)
    (hnear : y ≤ v.place + 1) (hcovered : Covered given s v.place y) :
    Covered (mergeOverlaps ranges) s v.place y ↔ ¬ Yields given v s y := by
  have hsweep := sweeps_mergeOverlaps fun r hr => hclear.proper r (hperm.mem_iff.mp hr)
  have hqueue := (Ordered.sort_perm Range.le ranges).trans hperm
  constructor
  · intro hkept hyields
    exact hsweep.not_covered_of_yields hqueue hclear hle hyields hkept
  · exact hsweep.covered_of_not_yields hqueue hclear hle hnear hcovered

end StatusBoard
