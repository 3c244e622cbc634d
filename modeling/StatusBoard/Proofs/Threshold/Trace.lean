import StatusBoard.Proofs.Threshold.Departure

/-!
# The sweep at one value

The sweep is followed at one value, with the highest status of the given ranges that contain
the value. Whatever waits is inside given ranges of its own status and ends where one of them
ends. A range that was cut starts at a nudged bound; what it lost between the front of the
queue and that bound belongs to a range that is no lower, or is just above one. So the next
cut, below the nudged bound, takes no other values.

## Main definitions

* `Range.JustAbove`, `Range.JustBelow` — the values between a bound and the nudged bound
* `HighestAt` — the highest status of the ranges that contain a value
* `Clear` — a value that is just above no range of a higher status
* `Within`, `Traced` — how a waiting range goes back to the given ones
* `Pending` — the state of the sweep at a value

## Main results

* `Pending.kept` — every step of the sweep keeps the state at a clear value
* `Sweeps.within` — the result contains no other values than the given ranges
* `Sweeps.status_eq` — a clear value gets no other status than the highest
* `Sweeps.exists_contains` — a clear value that is just below no higher range is kept
-/

namespace StatusBoard

open Binary64

/-! ### Points beside a range -/

namespace Range

variable {r : Range} {v : Binary64}

/-- The value lies strictly between the upper bound and the nudged upper bound. -/
def JustAbove (r : Range) (v : Binary64) : Prop :=
  r.max.below v = true ∧ v.below (nudgeUp r.max) = true

/-- The value lies strictly between the nudged lower bound and the lower bound. -/
def JustBelow (r : Range) (v : Binary64) : Prop :=
  v.below r.min = true ∧ (nudgeDown r.min).below v = true

instance (r : Range) (v : Binary64) : Decidable (r.JustAbove v) :=
  inferInstanceAs (Decidable (_ ∧ _))

instance (r : Range) (v : Binary64) : Decidable (r.JustBelow v) :=
  inferInstanceAs (Decidable (_ ∧ _))

theorem justAbove_iff_place (hr : r.isProper = true) (hv : v.IsNumber) :
    r.JustAbove v ↔ r.hi < v.place ∧ v.place < (nudgeUp r.max).place := by
  rw [JustAbove, below_iff_place (isNumber_max hr) hv,
    below_iff_place hv (isNumber_nudgeUp (isFinite_max hr))]
  rfl

theorem justBelow_iff_place (hr : r.isProper = true) (hv : v.IsNumber) :
    r.JustBelow v ↔ v.place < r.lo ∧ (nudgeDown r.min).place < v.place := by
  rw [JustBelow, below_iff_place hv (isNumber_min hr),
    below_iff_place (isNumber_nudgeDown (isFinite_min hr)) hv]
  rfl

end Range

/-- The status is the highest of the ranges that contain the value. -/
structure HighestAt (ranges : List Range) (v : Binary64) (s : Status) : Prop where
  attained : ∃ r ∈ ranges, r.contains v = true ∧ r.status = s
  highest : ∀ r ∈ ranges, r.contains v = true → r.status ≤ s

/-- A value where `s` is the highest status of given proper ranges, and which is just above no
range of a higher status. -/
structure Clear (given : List Range) (v : Binary64) (s : Status) : Prop where
  proper : ∀ g ∈ given, g.isProper = true
  isNumber : v.IsNumber
  highestAt : HighestAt given v s
  not_justAbove : ∀ g ∈ given, s < g.status → ¬ g.JustAbove v

/-! ### Waiting ranges and given ones -/

/-- The range has the value only if a given range of its status has it. -/
def Within (given : List Range) (v : Binary64) (r : Range) : Prop :=
  r.contains v = true → ∃ g ∈ given, g.status = r.status ∧ g.contains v = true

namespace Within

variable {given : List Range} {v : Binary64} {r first second lower higher : Range}

theorem of_mem (h : r ∈ given) : Within given v r := fun hin => ⟨r, h, rfl, hin⟩

theorem join (hfirst : first.isProper = true) (hsecond : second.isProper = true)
    (hv : v.IsNumber) (hstart : first.lo ≤ second.lo) (hmeet : second.lo ≤ first.hi)
    (hsame : first.status = second.status) (h : Within given v first)
    (h' : Within given v second) : Within given v (first.join second) := by
  intro hin
  rcases (Range.contains_join hfirst hsecond hv hstart hmeet).mp hin with hin | hin
  · exact h hin
  · obtain ⟨g, hg, hstatus, hgin⟩ := h' hin
    exact ⟨g, hg, hstatus.trans hsame.symm, hgin⟩

theorem above (hlower : lower.isProper = true) (hhigher : higher.isProper = true)
    (hv : v.IsNumber) (hmeet : lower.lo ≤ higher.hi) (h : Within given v lower)
    (hr : lower.above higher = some r) : Within given v r := by
  intro hin
  rw [(Range.of_above hr).1]
  exact h (Range.contains_of_above hlower hhigher hv hmeet hr hin)

end Within

/-- How a waiting range goes back to the given ones, seen at one value. -/
structure Traced (given : List Range) (v : Binary64) (front : Int) (r : Range) : Prop where
  /-- It has the value only if a given range of its status has it. -/
  within : Within given v r
  /-- It ends where a given range of its status ends. -/
  ends : ∃ g ∈ given, g.status = r.status ∧ g.hi = r.hi
  /-- It starts where a given range of its status starts; or the value, if it lies between the
  front and the start, belongs to a range that is no lower or is just above one. -/
  starts : (∃ g ∈ given, g.status = r.status ∧ g.lo = r.lo) ∨
    (front ≤ v.place → v.place < r.lo →
      ∃ g ∈ given, r.status ≤ g.status ∧ (g.contains v = true ∨ g.JustAbove v))

namespace Traced

variable {given : List Range} {v : Binary64} {front : Int} {r first second lower higher : Range}
  {s : Status}

theorem of_mem (h : r ∈ given) : Traced given v front r :=
  ⟨.of_mem h, ⟨r, h, rfl, rfl⟩, .inl ⟨r, h, rfl, rfl⟩⟩

theorem mono {front' : Int} (hle : front ≤ front') (h : Traced given v front r) :
    Traced given v front' r :=
  ⟨h.within, h.ends, h.starts.imp_right fun hstart hfront => hstart (hle.trans hfront)⟩

theorem join (hfirst : first.isProper = true) (hsecond : second.isProper = true)
    (hv : v.IsNumber) (hstart : first.lo ≤ second.lo) (hmeet : second.lo ≤ first.hi)
    (hsame : first.status = second.status) (h : Traced given v front first)
    (h' : Traced given v front second) : Traced given v front (first.join second) := by
  refine ⟨h.within.join hfirst hsecond hv hstart hmeet hsame h'.within, ?_, h.starts⟩
  rw [Range.hi_join hfirst hsecond]
  rcases le_total second.hi first.hi with hle | hle
  · rw [max_eq_left hle]
    exact h.ends
  · rw [max_eq_right hle]
    obtain ⟨g, hg, hstatus, hend⟩ := h'.ends
    exact ⟨g, hg, hstatus.trans hsame.symm, hend⟩

/-- Just above a waiting range is just above a given one of its status. -/
theorem justAbove (hgiven : ∀ g ∈ given, g.isProper = true) (hr : r.isProper = true)
    (hv : v.IsNumber) (h : Traced given v front r) (habove : r.JustAbove v) :
    ∃ g ∈ given, g.status = r.status ∧ g.JustAbove v := by
  obtain ⟨g, hg, hstatus, hend⟩ := h.ends
  refine ⟨g, hg, hstatus, ?_⟩
  rw [Range.justAbove_iff_place hr hv] at habove
  rw [Range.justAbove_iff_place (hgiven g hg) hv, hend,
    nudgeUp_congr (Range.isFinite_max (hgiven g hg)) (Range.isFinite_max hr) hend]
  exact habove

/-- What a cut leaves above the higher range is traced from the start of that range on. -/
theorem above (hgiven : ∀ g ∈ given, g.isProper = true) (hlower : lower.isProper = true)
    (hhigher : higher.isProper = true) (hv : v.IsNumber) (hlt : lower.status < higher.status)
    (hmeet : lower.lo ≤ higher.hi) (h : Traced given v front lower)
    (h' : Traced given v front higher) (hr : lower.above higher = some r) :
    Traced given v higher.lo r := by
  obtain ⟨hstatus, hstart, hend⟩ := Range.of_above hr
  refine ⟨h.within.above hlower hhigher hv hmeet hr, ?_, .inr fun hfront hbefore => ?_⟩
  · rw [hstatus, hend]
    exact h.ends
  · -- Up to its end the higher range has the value; beyond, the value is just above it.
    rw [hstatus]
    by_cases hin : v.place ≤ higher.hi
    · obtain ⟨g, hg, hgstatus, hgin⟩ :=
        h'.within ((Range.contains_iff_place hhigher hv).mpr ⟨hfront, hin⟩)
      exact ⟨g, hg, hgstatus ▸ hlt.le, .inl hgin⟩
    · have habove : higher.JustAbove v :=
        (Range.justAbove_iff_place hhigher hv).mpr ⟨not_le.mp hin, hstart ▸ hbefore⟩
      obtain ⟨g, hg, hgstatus, hgabove⟩ := h'.justAbove hgiven hhigher hv habove
      exact ⟨g, hg, hgstatus ▸ hlt.le, .inr hgabove⟩

/-- From the start of a higher range on, a clear value is beyond the nudged bound. -/
theorem nudgeUp_le (hclear : Clear given v s) (hhigher : higher.isProper = true)
    (hlt : s < higher.status) (h : Traced given v front higher) (hstart : higher.lo ≤ v.place) :
    (nudgeUp higher.max).place ≤ v.place := by
  have hv := hclear.isNumber
  by_contra hbefore
  by_cases hin : v.place ≤ higher.hi
  · obtain ⟨g, hg, hstatus, hgin⟩ :=
      h.within ((Range.contains_iff_place hhigher hv).mpr ⟨hstart, hin⟩)
    exact not_le.mpr hlt (hstatus ▸ hclear.highestAt.highest g hg hgin)
  · obtain ⟨g, hg, hstatus, hgabove⟩ := h.justAbove hclear.proper hhigher hv
      ((Range.justAbove_iff_place hhigher hv).mpr ⟨not_le.mp hin, not_le.mp hbefore⟩)
    exact hclear.not_justAbove g hg (hstatus.symm ▸ hlt) hgabove

/-- A higher range that starts after a clear value starts where a given one does. -/
theorem exists_start (hclear : Clear given v s) (hlt : s < r.status) (h : Traced given v front r)
    (hfront : front ≤ v.place) (hbefore : v.place < r.lo) :
    ∃ g ∈ given, g.status = r.status ∧ g.lo = r.lo := by
  rcases h.starts with hstart | hstart
  · exact hstart
  · -- If the bound is nudged, what comes before it does not have `s` as its highest status.
    obtain ⟨g, hg, hstatus, hin | habove⟩ := hstart hfront hbefore
    · exact absurd (hclear.highestAt.highest g hg hin) (not_le.mpr (hlt.trans_le hstatus))
    · exact absurd habove (hclear.not_justAbove g hg (hlt.trans_le hstatus))

/-- Between the front and a higher range, a clear value that is just below no higher range is
not beyond the nudged bound. -/
theorem le_nudgeDown (hclear : Clear given v s)
    (hbelow : ∀ g ∈ given, s < g.status → ¬ g.JustBelow v) (hhigher : higher.isProper = true)
    (hlt : s < higher.status) (h : Traced given v front higher) (hfront : front ≤ v.place)
    (hbefore : v.place < higher.lo) : v.place ≤ (nudgeDown higher.min).place := by
  obtain ⟨g, hg, hstatus, hstart⟩ := h.exists_start hclear hlt hfront hbefore
  -- The bound is given, so beyond the nudged bound the value is just below a given range.
  have hproper := hclear.proper g hg
  by_contra hbeyond
  refine hbelow g hg (hstatus.symm ▸ hlt) ?_
  rw [Range.justBelow_iff_place hproper hclear.isNumber, hstart,
    nudgeDown_congr (Range.isFinite_min hproper) (Range.isFinite_min hhigher) hstart]
  exact ⟨hbefore, not_le.mp hbeyond⟩

end Traced

/-! ### The sweep at one value -/

/-- The state of the sweep at a value: as long as the front has not passed the value, a range
with the status `s` that contains it waits. -/
structure Pending (given : List Range) (v : Binary64) (s : Status) (front : Int)
    (queue : List Range) : Prop where
  front_le : ∀ r ∈ queue, front ≤ r.lo
  traced : ∀ r ∈ queue, Traced given v front r
  intact : front ≤ v.place → ∃ r ∈ queue, r.status = s ∧ r.contains v = true

namespace Pending

variable {given queue rest : List Range} {v : Binary64} {s : Status} {front : Int}
  {first second lower higher : Range}

/-- Before the rest starts only the first range has the value. -/
theorem first_of_lt (hwaiting : Waiting (first :: rest)) (hv : v.IsNumber)
    (h : Pending given v s front (first :: rest)) (hfront : front ≤ v.place)
    (hbefore : ∀ r ∈ rest, v.place < r.lo) : first.status = s ∧ first.contains v = true := by
  obtain ⟨r, hr, hstatus, hcontains⟩ := h.intact hfront
  rcases List.mem_cons.mp hr with rfl | hr
  · exact ⟨hstatus, hcontains⟩
  · have hstart := ((Range.contains_iff_place (hwaiting.tail.proper r hr) hv).mp hcontains).1
    have := hbefore r hr
    omega

/-! One lemma for each kind of step. -/

theorem settle (hwaiting : Waiting (first :: second :: rest)) (hv : v.IsNumber)
    (hapart : first.hi < second.lo) (h : Pending given v s front (first :: second :: rest)) :
    Pending given v s second.lo (second :: rest) := by
  have hfront := h.front_le second (by simp)
  refine ⟨fun r hr => hwaiting.tail.head_lo_le_of_mem hr,
    fun r hr => (h.traced r (List.mem_cons_of_mem first hr)).mono hfront, fun hle => ?_⟩
  obtain ⟨r, hr, hstatus, hcontains⟩ := h.intact (hfront.trans hle)
  rcases List.mem_cons.mp hr with rfl | hr
  · have := ((Range.contains_iff_place hwaiting.head hv).mp hcontains).2
    omega
  · exact ⟨r, hr, hstatus, hcontains⟩

theorem join (hwaiting : Waiting (first :: second :: rest)) (hv : v.IsNumber)
    (hmeet : second.lo ≤ first.hi) (hsame : first.status = second.status)
    (h : Pending given v s front (first :: second :: rest)) :
    Pending given v s front (requeue [first.join second] rest) := by
  have hfirst := hwaiting.head
  have hsecond := hwaiting.tail.head
  have hstart : first.lo ≤ second.lo := hwaiting.head_lo_le List.mem_cons_self
  have hcontains := Range.contains_join hfirst hsecond hv hstart hmeet
  have hjoin := (h.traced first (by simp)).join hfirst hsecond hv hstart hmeet hsame
    (h.traced second (by simp))
  refine ⟨forall_mem_requeue.mpr ⟨?_, ?_⟩, forall_mem_requeue.mpr ⟨?_, ?_⟩, fun hle => ?_⟩
  · rw [List.forall_mem_singleton, Range.lo_join]
    exact h.front_le first List.mem_cons_self
  · exact fun r hr => h.front_le r (by simp [hr])
  · rwa [List.forall_mem_singleton]
  · exact fun r hr => h.traced r (by simp [hr])
  · have hmem : first.join second ∈ requeue [first.join second] rest :=
      mem_requeue.mpr (.inl List.mem_cons_self)
    obtain ⟨r, hr, hstatus, hin⟩ := h.intact hle
    rcases List.mem_cons.mp hr with rfl | hr
    · exact ⟨_, hmem, hstatus, hcontains.mpr (.inl hin)⟩
    rcases List.mem_cons.mp hr with rfl | hr
    · exact ⟨_, hmem, hsame.trans hstatus, hcontains.mpr (.inr hin)⟩
    · exact ⟨r, mem_requeue.mpr (.inr hr), hstatus, hin⟩

/-- Of two ranges of a queue the higher one stays, and the lower one keeps what lies above. The
front moves to where the higher one starts. -/
theorem cut (hclear : Clear given v s) (hmeeting : Meeting lower higher queue rest)
    (h : Pending given v s front queue) :
    Pending given v s higher.lo (requeue (higher :: (lower.above higher).toList) rest) := by
  have hlower := hmeeting.lower_proper
  have hhigher := hmeeting.higher_proper
  have hlt := hmeeting.status_lt
  have hhigherTraced := h.traced higher hmeeting.higher_mem
  have hfront := h.front_le higher hmeeting.higher_mem
  refine ⟨forall_mem_requeue.mpr
      ⟨List.forall_mem_cons.mpr ⟨le_rfl, fun r hr => ?_⟩, hmeeting.lo_le⟩,
    forall_mem_requeue.mpr ⟨List.forall_mem_cons.mpr ⟨hhigherTraced.mono hfront, fun r hr => ?_⟩,
      fun r hr => ?_⟩, fun hle => ?_⟩
  · have hafter := (Range.isProper_of_above hlower hhigher (Option.mem_toList.mp hr)).2
    exact (Range.lo_le_hi hhigher).trans hafter.le
  · exact (h.traced lower hmeeting.lower_mem).above hclear.proper hlower hhigher hclear.isNumber
      hlt hmeeting.meet hhigherTraced (Option.mem_toList.mp hr)
  · exact (h.traced r (hmeeting.rest_subset hr)).mono hfront
  · obtain ⟨r, hr, hstatus, hin⟩ := h.intact (hfront.trans hle)
    rcases (hmeeting.mem_iff r).mp hr with rfl | rfl | hr
    · -- From the start of the higher range on, a clear value is in the piece above that range.
      have hbeyond := hhigherTraced.nudgeUp_le hclear hhigher (hstatus ▸ hlt) hle
      have hend := ((Range.contains_iff_place hlower hclear.isNumber).mp hin).2
      obtain ⟨p, hp, hpin⟩ :=
        (Range.exists_above_contains_iff hlower hhigher hclear.isNumber).mpr ⟨hbeyond, hend⟩
      refine ⟨p, mem_requeue.mpr (.inl ?_), (Range.of_above hp).1.trans hstatus, hpin⟩
      exact List.mem_cons_of_mem _ (Option.mem_toList.mpr hp)
    · exact ⟨_, mem_requeue.mpr (.inl List.mem_cons_self), hstatus, hin⟩
    · exact ⟨r, mem_requeue.mpr (.inr hr), hstatus, hin⟩

/-- The state of the sweep at a clear value is kept. -/
theorem kept (hclear : Clear given v s) : Kept (Pending given v s) where
  settle hwaiting hapart h := h.settle hwaiting hclear.isNumber hapart
  join hwaiting hmeet hsame h := h.join hwaiting hclear.isNumber hmeet hsame
  cut hmeeting h := h.cut hclear hmeeting

/-- The sweep starts with nothing lost at any clear value. -/
theorem of_perm (hclear : Clear given v s) (hperm : queue.Perm given) :
    Pending given v s (-infinityRank) queue := by
  refine ⟨fun r hr => ?_, fun r hr => .of_mem (hperm.mem_iff.mp hr), fun _ => ?_⟩
  · have hfinite := Range.isFinite_min (hclear.proper r (hperm.mem_iff.mp hr))
    exact (isFinite_iff_place.mp hfinite).2.1.le
  · obtain ⟨r, hr, hin, hstatus⟩ := hclear.highestAt.attained
    exact ⟨r, hperm.mem_iff.mpr hr, hstatus, hin⟩

end Pending

namespace Sweeps

variable {given queue out : List Range} {v : Binary64} {s : Status} {front : Int}

/-- What is in the result has its values from given ranges of its status. -/
theorem within (h : Sweeps queue out) (hgiven : ∀ g ∈ given, g.isProper = true)
    (hsubset : queue ⊆ given) (hv : v.IsNumber) : ∀ r ∈ out, Within given v r := by
  intro r hr hin
  have hcovered : Covered out r.status v.place v.place :=
    (Covered.iff_contains h.canonical.proper hv).mpr ⟨r, hr, rfl, hin⟩
  exact (Covered.iff_contains hgiven hv).mp (h.covered_given hsubset (by omega) hcovered)

/-- A clear value gets no other status than the highest. -/
theorem status_eq (h : Sweeps queue out) (hclear : Clear given v s)
    (hpending : Pending given v s front queue) :
    ∀ r ∈ out, r.contains v = true → r.status = s := by
  intro r hr hin
  have hv := hclear.isNumber
  obtain ⟨hlo, hhi⟩ := (Range.contains_iff_place (h.canonical.proper r hr) hv).mp hin
  obtain ⟨front, first, rest, piece, hmoment, hleaves, hpiece⟩ :=
    h.exists_leaves_of_mem (Pending.kept hclear) front hpending hr
  obtain ⟨hstatus, hstart, -⟩ := hleaves.of_mem hpiece
  have hfront : front ≤ v.place :=
    (hmoment.front_le first List.mem_cons_self).trans (hstart.symm.trans_le hlo)
  have hbefore : ∀ q ∈ rest, v.place < q.lo := fun q hq => hhi.trans_lt (hleaves.hi_lt hpiece hq)
  exact hstatus.trans (hmoment.first_of_lt hleaves.waiting hv hfront hbefore).1

/-- A clear value that is just below no higher range is in the result. -/
theorem exists_contains (h : Sweeps queue out) (hclear : Clear given v s)
    (hbelow : ∀ g ∈ given, s < g.status → ¬ g.JustBelow v)
    (hpending : Pending given v s front queue) (hfront : front ≤ v.place) :
    ∃ r ∈ out, r.contains v = true := by
  have hv := hclear.isNumber
  have hwaits : ∀ {front queue}, Waiting queue → Pending given v s front queue →
      front ≤ v.place → ∃ r ∈ queue, r.lo ≤ v.place := by
    intro front queue hwaiting hpending hfront
    obtain ⟨r, hr, -, hin⟩ := hpending.intact hfront
    exact ⟨r, hr, ((Range.contains_iff_place (hwaiting.proper r hr) hv).mp hin).1⟩
  obtain ⟨front, first, rest, piece, hfront, hmoment, hleaves, hlater, hpiece⟩ :=
    h.exists_leaves_of_le (Pending.kept hclear) hwaits hpending hfront
  obtain ⟨hstatus, hin⟩ := hmoment.first_of_lt hleaves.waiting hv hfront hlater
  cases hleaves with
  | alone | apart => exact ⟨first, hpiece first rfl, hin⟩
  | @cut second _ waiting _ higher =>
    -- The first range has the value, and keeps it below the second.
    have hstart := ((Range.contains_iff_place waiting.head hv).mp hin).1
    have hend := (hmoment.traced second (by simp)).le_nudgeDown hclear hbelow waiting.tail.head
      (hstatus ▸ higher) hfront (hlater second List.mem_cons_self)
    obtain ⟨r, hr, hrin⟩ :=
      (Range.exists_below_contains_iff waiting.head waiting.tail.head hv).mpr ⟨hstart, hend⟩
    exact ⟨r, hpiece r hr, hrin⟩

end Sweeps

end StatusBoard
