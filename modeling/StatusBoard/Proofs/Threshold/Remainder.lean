import StatusBoard.Proofs.Threshold.Step
import StatusBoard.Threshold.Merge

/-!
# What remains of a range beside a higher one

Two ranges that meet are resolved by one rule, however they lie to each other: ranges of
one status become their union, and otherwise the higher range stays as it is and the lower
one keeps what lies below and above it, each side stepping back by a nudge.

## Main definitions

* `Range.lo`, `Range.hi` — the places of the two bounds
* `Range.join` — the union of two ranges that meet
* `Range.below`, `Range.above` — what remains of a range on either side of another

## Main results

* `contains_iff_place` — membership on places
* `resolve_eq` — the one rule behind the relations
-/

namespace StatusBoard

open Binary64

instance : LinearOrder Status where
  le := (· ≤ ·)
  lt := (· < ·)
  le_refl a := Nat.le_refl a.precedence
  le_trans _ _ _ := Nat.le_trans
  lt_iff_le_not_ge _ _ := Nat.lt_iff_le_and_not_ge
  le_antisymm _ _ h h' := Status.precedence_injective (Nat.le_antisymm h h')
  le_total a b := Nat.le_total a.precedence b.precedence
  toDecidableLE := inferInstance

namespace Range

variable {r s lower higher : Range} {v : Binary64}

/-- The place of the lower bound. -/
def lo (r : Range) : Int := r.min.place

/-- The place of the upper bound. -/
def hi (r : Range) : Int := r.max.place

theorem isProper_iff_place :
    r.isProper = true ↔ r.min.isFinite = true ∧ r.max.isFinite = true ∧ r.lo ≤ r.hi := by
  simp only [isProper, Bool.and_eq_true, and_assoc]
  refine and_congr_right fun hmin => and_congr_right fun hmax => ?_
  exact atMost_iff_place (isNumber_of_isFinite hmin) (isNumber_of_isFinite hmax)

theorem isFinite_min (h : r.isProper = true) : r.min.isFinite = true :=
  (isProper_iff_place.mp h).1

theorem isFinite_max (h : r.isProper = true) : r.max.isFinite = true :=
  (isProper_iff_place.mp h).2.1

theorem isNumber_min (h : r.isProper = true) : r.min.IsNumber :=
  isNumber_of_isFinite (isFinite_min h)

theorem isNumber_max (h : r.isProper = true) : r.max.IsNumber :=
  isNumber_of_isFinite (isFinite_max h)

theorem lo_le_hi (h : r.isProper = true) : r.lo ≤ r.hi := (isProper_iff_place.mp h).2.2

theorem contains_iff_place (hr : r.isProper = true) (hv : v.IsNumber) :
    r.contains v = true ↔ r.lo ≤ v.place ∧ v.place ≤ r.hi := by
  rw [contains, Bool.and_eq_true, atMost_iff_place (isNumber_min hr) hv,
    atMost_iff_place hv (isNumber_max hr)]
  rfl

theorem isDegenerate_iff_place (hr : r.isProper = true) :
    r.isDegenerate = true ↔ r.lo = r.hi :=
  equals_iff_place (isNumber_min hr) (isNumber_max hr)

theorem max_below_min_iff_place (hr : r.isProper = true) (hs : s.isProper = true) :
    r.max.below s.min = true ↔ r.hi < s.lo :=
  below_iff_place (isNumber_max hr) (isNumber_min hs)

theorem lo_le_of_le (hr : r.isProper = true) (hs : s.isProper = true) (h : r.le s = true) :
    r.lo ≤ s.lo := by
  refine place_le_of_totalKey_le (isNumber_min hr) (isNumber_min hs) ?_
  simp only [le, Bool.or_eq_true, Bool.and_eq_true, decide_eq_true_eq] at h
  omega

theorem le_of_lo_lt (hr : r.isProper = true) (hs : s.isProper = true) (h : r.lo < s.lo) :
    r.le s = true := by
  have := totalKey_lt_of_place_lt (isNumber_min hr) (isNumber_min hs) h
  simp [le, this]

/-! ### The pieces -/

/-- The union of two ranges that meet, the first of which starts no later. -/
def join (first second : Range) : Range :=
  ⟨first.status, first.min, first.max.larger second.max⟩

/-- What remains of the lower range below the higher one. -/
def below (lower higher : Range) : Option Range :=
  bounded? lower.status lower.min (nudgeDown higher.min)

/-- What remains of the lower range above the higher one. -/
def above (lower higher : Range) : Option Range :=
  bounded? lower.status (nudgeUp higher.max) lower.max

@[simp] theorem lo_join (r s : Range) : (r.join s).lo = r.lo := rfl

theorem hi_join (hr : r.isProper = true) (hs : s.isProper = true) :
    (r.join s).hi = Max.max r.hi s.hi := place_larger (isNumber_max hr) (isNumber_max hs)

theorem isProper_join (hr : r.isProper = true) (hs : s.isProper = true) :
    (r.join s).isProper = true := by
  have hmin := isFinite_min hr
  have hrmax := isFinite_max hr
  have hsmax := isFinite_max hs
  rw [isProper_iff_place, hi_join hr hs]
  refine ⟨hmin, ?_, (lo_le_hi hr).trans (le_max_left _ _)⟩
  rcases larger_eq_or r.max s.max with h | h
  · rwa [join, h]
  · rwa [join, h]

theorem below_eq_some_iff (hlower : lower.isProper = true) (hhigher : higher.isProper = true) :
    lower.below higher = some r ↔ lower.lo ≤ (nudgeDown higher.min).place ∧
      r = ⟨lower.status, lower.min, nudgeDown higher.min⟩ := by
  rw [below, bounded?_eq_some, atMost_iff_place (isNumber_min hlower)
    (isNumber_nudgeDown (isFinite_min hhigher))]
  rfl

theorem above_eq_some_iff (hlower : lower.isProper = true) (hhigher : higher.isProper = true) :
    lower.above higher = some r ↔ (nudgeUp higher.max).place ≤ lower.hi ∧
      r = ⟨lower.status, nudgeUp higher.max, lower.max⟩ := by
  rw [above, bounded?_eq_some, atMost_iff_place
    (isNumber_nudgeUp (isFinite_max hhigher)) (isNumber_max hlower)]
  rfl

/-- A range that starts no earlier than another has nothing below it. -/
theorem below_eq_none (hlower : lower.isProper = true) (hhigher : higher.isProper = true)
    (h : higher.lo ≤ lower.lo) : lower.below higher = none := by
  refine Option.eq_none_iff_forall_ne_some.mpr fun r hr => ?_
  have hle := ((below_eq_some_iff hlower hhigher).mp hr).1
  have hlt := nudgeDown_place_lt (isFinite_min hhigher)
  unfold lo at *
  omega

/-- A range that ends no later than another has nothing above it. -/
theorem above_eq_none (hlower : lower.isProper = true) (hhigher : higher.isProper = true)
    (h : lower.hi ≤ higher.hi) : lower.above higher = none := by
  refine Option.eq_none_iff_forall_ne_some.mpr fun r hr => ?_
  have hle := ((above_eq_some_iff hlower hhigher).mp hr).1
  have hlt := place_lt_nudgeUp (isFinite_max hhigher)
  unfold hi at *
  omega

/-- A piece below the higher range is proper, ends before that range and starts where the
lower one does. -/
theorem isProper_of_below (hlower : lower.isProper = true) (hhigher : higher.isProper = true)
    (h : lower.below higher = some r) : r.isProper = true ∧ r.hi < higher.lo := by
  obtain ⟨hle, rfl⟩ := (below_eq_some_iff hlower hhigher).mp h
  have hlt := nudgeDown_place_lt (isFinite_min hhigher)
  have hhigh := (isFinite_iff_place.mp (isFinite_min hhigher)).2.2
  have hlow := (isFinite_iff_place.mp (isFinite_min hlower)).2.1
  have hmin := isFinite_min hlower
  refine ⟨isProper_iff_place.mpr ⟨hmin, ?_, hle⟩, hlt⟩
  rw [isFinite_iff_place]
  refine ⟨isNumber_nudgeDown (isFinite_min hhigher), ?_, hlt.trans hhigh⟩
  exact lt_of_lt_of_le hlow hle

/-- A piece above the higher range is proper and starts after that range. -/
theorem isProper_of_above (hlower : lower.isProper = true) (hhigher : higher.isProper = true)
    (h : lower.above higher = some r) : r.isProper = true ∧ higher.hi < r.lo := by
  obtain ⟨hle, rfl⟩ := (above_eq_some_iff hlower hhigher).mp h
  have hlt := place_lt_nudgeUp (isFinite_max hhigher)
  have hlow := (isFinite_iff_place.mp (isFinite_max hhigher)).2.1
  have hhigh := (isFinite_iff_place.mp (isFinite_max hlower)).2.2
  have hmax := isFinite_max hlower
  refine ⟨isProper_iff_place.mpr ⟨?_, hmax, hle⟩, hlt⟩
  rw [isFinite_iff_place]
  refine ⟨isNumber_nudgeUp (isFinite_max hhigher), hlow.trans hlt, ?_⟩
  exact lt_of_le_of_lt hle hhigh

/-- A piece above the higher range has the status and the end of the lower one. -/
theorem of_above (h : lower.above higher = some r) :
    r.status = lower.status ∧ r.lo = (nudgeUp higher.max).place ∧ r.hi = lower.hi := by
  obtain ⟨-, rfl⟩ := bounded?_eq_some.mp h
  exact ⟨rfl, rfl, rfl⟩

/-- A piece below the higher range has the status and the start of the lower one. -/
theorem of_below (h : lower.below higher = some r) :
    r.status = lower.status ∧ r.lo = lower.lo ∧ r.hi = (nudgeDown higher.min).place := by
  obtain ⟨-, rfl⟩ := bounded?_eq_some.mp h
  exact ⟨rfl, rfl, rfl⟩

theorem contains_join (hr : r.isProper = true) (hs : s.isProper = true) (hv : v.IsNumber)
    (hstart : r.lo ≤ s.lo) (hmeet : s.lo ≤ r.hi) :
    (r.join s).contains v = true ↔ r.contains v = true ∨ s.contains v = true := by
  rw [contains_iff_place (isProper_join hr hs) hv, contains_iff_place hr hv,
    contains_iff_place hs hv, lo_join, hi_join hr hs]
  omega

theorem contains_of_above (hlower : lower.isProper = true) (hhigher : higher.isProper = true)
    (hv : v.IsNumber) (hmeet : lower.lo ≤ higher.hi) (h : lower.above higher = some r)
    (hcontains : r.contains v = true) : lower.contains v = true := by
  obtain ⟨hproper, hafter⟩ := isProper_of_above hlower hhigher h
  rw [contains_iff_place hproper hv] at hcontains
  obtain ⟨-, rfl⟩ := (above_eq_some_iff hlower hhigher).mp h
  rw [contains_iff_place hlower hv]
  exact ⟨hmeet.trans (hafter.le.trans hcontains.1), hcontains.2⟩

/-- The piece above the higher range has the points from the nudged bound on. -/
theorem exists_above_contains_iff (hlower : lower.isProper = true)
    (hhigher : higher.isProper = true) (hv : v.IsNumber) :
    (∃ r ∈ lower.above higher, r.contains v = true) ↔
      (nudgeUp higher.max).place ≤ v.place ∧ v.place ≤ lower.hi := by
  constructor
  · rintro ⟨r, hr, hcontains⟩
    rw [contains_iff_place (isProper_of_above hlower hhigher hr).1 hv] at hcontains
    obtain ⟨-, rfl⟩ := (above_eq_some_iff hlower hhigher).mp hr
    exact hcontains
  · rintro ⟨hlow, hhigh⟩
    have hpiece := (above_eq_some_iff hlower hhigher).mpr ⟨hlow.trans hhigh, rfl⟩
    refine ⟨_, hpiece, ?_⟩
    rw [contains_iff_place (isProper_of_above hlower hhigher hpiece).1 hv]
    exact ⟨hlow, hhigh⟩

/-- The piece below the higher range has the points up to the nudged bound. -/
theorem exists_below_contains_iff (hlower : lower.isProper = true)
    (hhigher : higher.isProper = true) (hv : v.IsNumber) :
    (∃ r ∈ lower.below higher, r.contains v = true) ↔
      lower.lo ≤ v.place ∧ v.place ≤ (nudgeDown higher.min).place := by
  constructor
  · rintro ⟨r, hr, hcontains⟩
    rw [contains_iff_place (isProper_of_below hlower hhigher hr).1 hv] at hcontains
    obtain ⟨-, rfl⟩ := (below_eq_some_iff hlower hhigher).mp hr
    exact hcontains
  · rintro ⟨hlow, hhigh⟩
    have hpiece := (below_eq_some_iff hlower hhigher).mpr ⟨hlow.trans hhigh, rfl⟩
    refine ⟨_, hpiece, ?_⟩
    rw [contains_iff_place (isProper_of_below hlower hhigher hpiece).1 hv]
    exact ⟨hlow, hhigh⟩

/-! ### One rule for all relations -/

theorem between_eq (hr : r.isProper = true) (hs : s.isProper = true) :
    Relation.between r s =
      if r.hi < s.lo then .disjoint
      else if r.hi = s.lo then .touching
      else if s.hi ≤ r.hi then .firstContainsSecond
      else if r.lo = s.lo then .secondContainsFirst
      else .overlapping := by
  simp only [Relation.between, below_iff_place (isNumber_max hr) (isNumber_min hs),
    equals_iff_place (isNumber_max hr) (isNumber_min hs),
    atMost_iff_place (isNumber_max hs) (isNumber_max hr),
    equals_iff_place (isNumber_min hr) (isNumber_min hs)]
  rfl

section Resolving

variable {first second : Range} (hfirst : first.isProper = true)
  (hsecond : second.isProper = true) (hmeet : second.lo ≤ first.hi)

include hfirst hsecond hmeet

/-- If the first of two ranges that meet is higher, the second keeps what lies above it. -/
theorem resolve_of_first_higher (hhigher : second.status < first.status) :
    resolve (Relation.between first second) first second =
      first :: (second.above first).toList := by
  unfold resolve resolveBy
  rw [if_neg hhigher.ne', between_eq hfirst hsecond, if_neg (not_lt.mpr hmeet)]
  have hsecondProper := lo_le_hi hsecond
  split_ifs with htouch hinner hsameStart
  · -- The touching rule nudges the bound of the second range, at the same place.
    have hnudge : nudgeUp second.min = nudgeUp first.max :=
      nudgeUp_congr (isFinite_min hsecond) (isFinite_max hfirst) htouch.symm
    simp only [resolveTouchingBy, if_pos hhigher, isDegenerate_iff_place hsecond]
    split_ifs with hpoint
    · rw [above_eq_none hsecond hfirst (by omega)]
      rfl
    · change first :: (bounded? second.status (nudgeUp second.min) second.max).toList = _
      rw [hnudge]
      rfl
  · simp only [carveBy, if_pos hhigher, above_eq_none hsecond hfirst hinner]
    rfl
  · simp only [carveBy, if_neg (lt_asymm hhigher)]
    change (second.below first).toList ++ first :: (second.above first).toList = _
    rw [below_eq_none hsecond hfirst hsameStart.le]
    rfl
  · simp only [resolveOverlappingBy, if_pos hhigher]
    rfl

/-- If the second of two ranges that meet is higher, the first keeps what lies below and above
it. -/
theorem resolve_of_second_higher (hhigher : first.status < second.status) :
    resolve (Relation.between first second) first second =
      (first.below second).toList ++ second :: (first.above second).toList := by
  unfold resolve resolveBy
  rw [if_neg hhigher.ne, between_eq hfirst hsecond, if_neg (not_lt.mpr hmeet)]
  have hsecondProper := lo_le_hi hsecond
  have hnotFirst := lt_asymm hhigher
  split_ifs with htouch hinner hsameStart
  · -- The touching rule nudges the bound of the first range, at the same place.
    have hnudge : nudgeDown first.max = nudgeDown second.min :=
      nudgeDown_congr (isFinite_max hfirst) (isFinite_min hsecond) htouch
    simp only [resolveTouchingBy, if_neg hnotFirst, isDegenerate_iff_place hfirst]
    rw [above_eq_none hfirst hsecond (by omega)]
    split_ifs with hpoint
    · rw [below_eq_none hfirst hsecond (by omega)]
      rfl
    · change (bounded? first.status first.min (nudgeDown first.max)).toList ++ [second] = _
      rw [hnudge]
      rfl
  · simp only [carveBy, if_neg hnotFirst]
    rfl
  · simp only [carveBy, if_pos hhigher]
    rw [below_eq_none hfirst hsecond hsameStart.ge, above_eq_none hfirst hsecond (by omega)]
    rfl
  · simp only [resolveOverlappingBy, if_neg hnotFirst]
    rw [above_eq_none hfirst hsecond (by omega)]
    rfl

/-- Two ranges that meet: the higher one stays, and the lower one keeps what lies beside it. -/
theorem resolve_eq :
    resolve (Relation.between first second) first second =
      if first.status = second.status then [first.join second]
      else if second.status < first.status then first :: (second.above first).toList
      else (first.below second).toList ++ second :: (first.above second).toList := by
  split_ifs with hsame hhigher
  · unfold resolve resolveBy
    rw [if_pos hsame]
    rfl
  · exact resolve_of_first_higher hfirst hsecond hmeet hhigher
  · have hlower : first.status < second.status := lt_of_le_of_ne (not_lt.mp hhigher) hsame
    exact resolve_of_second_higher hfirst hsecond hmeet hlower

end Resolving

end Range

end StatusBoard
