import StatusBoard.Proofs.Marker.Published
import StatusBoard.Proofs.Threshold.Precedence

/-!
# What a reading is classified as

The index of ranges in order gives a value the status of the first range that has it, and
calls a value in no range invalid, unless the next range goes from zero to negative zero. A
list whose bounds never decrease in the total order has no such range. A canonical set may have
one: the checks of a definition compare its bounds numerically, and so does the sweep.

## Main definitions

* `severityAt` — the severity by the first range with a value

## Main results

* `Store.publish_resolve` — a list whose bounds never decrease is read as it stands
* `Store.rebuild_classify` — what a reading is classified as after a rebuild
* `Store.classify_fails_below_reversed` — a reading in no range that is not invalid
-/

namespace StatusBoard

open Binary64

variable {ranges : List Range} {v : Binary64}

/-- The severity that the first range with a value gives it. -/
def severityAt (ranges : List Range) (value : Binary64) : Severity :=
  match ranges.find? fun r => r.contains value with
  | some r => .ofStatus r.status
  | none => .invalid

/-- The first range that is above a value. -/
def firstAbove? (ranges : List Range) (value : Binary64) : Option Range :=
  ranges.find? fun r => value.below r.min

/-! ### Reading ranges in order -/

theorem severityAt_of_find? {r : Range} (h : (ranges.find? fun r => r.contains v) = some r) :
    severityAt ranges v = .ofStatus r.status := by
  rw [severityAt, h]

theorem severityAt_of_forall_not_contains (h : ∀ r ∈ ranges, r.contains v = false) :
    severityAt ranges v = .invalid := by
  rw [severityAt, List.find?_eq_none.mpr fun r hr => by simp [h r hr]]

/-- A value in some range is read as the first of these has it. -/
theorem readSeverity_of_contains (hproper : ∀ r ∈ ranges, r.isProper = true)
    (hsorted : ranges.Pairwise fun r s => r.hi ≤ s.lo) (hv : v.IsNumber)
    (h : ∃ r ∈ ranges, r.contains v = true) : readSeverity ranges v = severityAt ranges v := by
  obtain ⟨r, hfirst⟩ := Option.isSome_iff_exists.mp (List.find?_isSome.mpr h)
  obtain ⟨hin, before, after, rfl, hout⟩ := List.find?_eq_some_iff_append.mp hfirst
  have hr := hproper r (by simp)
  have hplace := (Range.contains_iff_place hr hv).mp hin
  -- A range in front ends at the value only if it has the value.
  have hpast : ∀ s ∈ before, s.max.below v = true := by
    intro s hs
    have hsproper := hproper s (by simp [hs])
    have hle : s.hi ≤ r.lo := (List.pairwise_append.mp hsorted).2.2 s hs r List.mem_cons_self
    have hlohi := Range.lo_le_hi hsproper
    have hsout : ¬ (s.lo ≤ v.place ∧ v.place ≤ s.hi) := by
      rw [← Range.contains_iff_place hsproper hv]
      simpa using hout s hs
    rw [Range.max_below_eq hsproper hv, decide_eq_true_eq]
    omega
  have hfound : (before ++ r :: after).find? (fun r => !r.max.below v) = some r := by
    refine List.find?_eq_some_iff_append.mpr ⟨?_, before, after, rfl, fun s hs => ?_⟩
    · simp [Range.max_below_eq hr hv, hplace.2]
    · simp [hpast s hs]
  rw [severityAt_of_find? hfirst, readSeverity, hfound]
  simp [hin]

/-- A value in no range is invalid, unless the first range above it is reversed. -/
theorem readSeverity_of_forall_not_contains (hproper : ∀ r ∈ ranges, r.isProper = true)
    (hv : v.IsNumber) (h : ∀ r ∈ ranges, r.contains v = false) :
    readSeverity ranges v = match firstAbove? ranges v with
      | some r => if r.isReversed then .ofStatus r.status else .invalid
      | none => .invalid := by
  -- A range that has not the value either ends below it or starts above it.
  have hsides : ∀ r ∈ ranges, (!r.max.below v) = v.below r.min := by
    intro r hr
    have hlohi := Range.lo_le_hi (hproper r hr)
    have hout : ¬ (r.lo ≤ v.place ∧ v.place ≤ r.hi) := by
      rw [← Range.contains_iff_place (hproper r hr) hv]
      simp [h r hr]
    rw [Bool.eq_iff_iff, below_iff_place hv (Range.isNumber_min (hproper r hr)),
      Range.max_below_eq (hproper r hr) hv, Bool.not_eq_true', decide_eq_false_iff_not]
    change _ ↔ v.place < r.lo
    omega
  rw [readSeverity, List.find?_congr hsides]
  unfold firstAbove?
  cases hfound : ranges.find? fun r => v.below r.min with
  | none => rfl
  | some r => simp [h r (List.mem_of_find?_eq_some hfound)]

/-! ### Lists whose bounds never decrease -/

/-- The bounds of ranges as they stand. -/
def boundsOf (ranges : List Range) : List Binary64 := ranges.flatMap Range.bounds

section Ascending

variable (hfinite : ∀ r ∈ ranges, r.min.isFinite = true ∧ r.max.isFinite = true)
  (hordered : (boundsOf ranges).IsChain fun x y => x.totalKey ≤ y.totalKey)

include hordered

theorem pairwise_boundsOf :
    (∀ r ∈ ranges, r.min.totalKey ≤ r.max.totalKey) ∧ ranges.Pairwise Range.Precedes := by
  have htrans : Trans (fun x y : Binary64 => x.totalKey ≤ y.totalKey)
      (fun x y : Binary64 => x.totalKey ≤ y.totalKey)
      (fun x y : Binary64 => x.totalKey ≤ y.totalKey) := ⟨le_trans⟩
  obtain ⟨hbounds, hranges⟩ := List.pairwise_flatMap.mp (List.isChain_iff_pairwise.mp hordered)
  refine ⟨fun r hr => ?_, hranges⟩
  simpa [Range.bounds] using hbounds r hr

include hfinite

theorem isProper_of_ascending : ∀ r ∈ ranges, r.isProper = true := by
  intro r hr
  obtain ⟨hmin, hmax⟩ := hfinite r hr
  refine Range.isProper_iff_place.mpr ⟨hmin, hmax, ?_⟩
  exact place_le_of_totalKey_le (isNumber_of_isFinite hmin) (isNumber_of_isFinite hmax)
    ((pairwise_boundsOf hordered).1 r hr)

theorem indexable_of_ascending
    (hties : ranges.length ≤ 500000 ∨
      ranges.IsChain fun r s => r.max.totalKey < s.min.totalKey) : Indexable ranges := by
  obtain ⟨hbounds, hranges⟩ := pairwise_boundsOf hordered
  refine ⟨isProper_of_ascending hfinite hordered, hranges.isChain, hties.imp (fun hlength => ?_) ?_⟩
  · have hwidth : (10 : Nat) ^ MarkerLabel.orderWidth = 1000000 := rfl
    omega
  · refine List.IsChain.imp_of_mem_imp fun r s hr hs hlt => ?_
    have hr := hbounds r hr
    have hs := hbounds s hs
    simp only [Range.StrictlyPrecedes, Range.bounds, List.forall_mem_cons]
    refine ⟨⟨?_, ?_, by simp⟩, ⟨?_, ?_, by simp⟩, by simp⟩ <;> omega

/-- Such a list is read as it stands. -/
theorem readSeverity_eq_severityAt (hv : v.IsNumber) :
    readSeverity ranges v = severityAt ranges v := by
  have hproper := isProper_of_ascending hfinite hordered
  obtain ⟨hbounds, hranges⟩ := pairwise_boundsOf hordered
  have hsorted : ranges.Pairwise fun r s => r.hi ≤ s.lo := by
    refine hranges.imp_of_mem fun {r s} hr hs hle => ?_
    exact place_le_of_totalKey_le (Range.isNumber_max (hproper r hr))
      (Range.isNumber_min (hproper s hs)) (hle r.max (by simp [Range.bounds]) s.min
        (by simp [Range.bounds]))
  by_cases hin : ∃ r ∈ ranges, r.contains v = true
  · exact readSeverity_of_contains hproper hsorted hv hin
  · have hout : ∀ r ∈ ranges, r.contains v = false := by simpa using hin
    rw [readSeverity_of_forall_not_contains hproper hv hout,
      severityAt_of_forall_not_contains hout]
    cases hfound : firstAbove? ranges v with
    | none => rfl
    | some r =>
      -- The bounds of each range are in their total order, and those of a reversed one are not.
      have hle := hbounds r (List.mem_of_find?_eq_some hfound)
      have hreversed : r.isReversed = false := decide_eq_false (not_lt.mpr hle)
      simp [hreversed]

end Ascending

/-! ### Canonical sets -/

theorem indexable_of_canonical (h : Canonical ranges) : Indexable ranges := by
  have hapart : ranges.IsChain Range.StrictlyPrecedes := by
    refine (List.Pairwise.imp_of_mem (fun {r t} hr ht hlt => ?_) h.apart).isChain
    exact Range.strictlyPrecedes_of_hi_lt_lo (h.proper r hr) (h.proper t ht) hlt
  exact ⟨h.proper, hapart.imp fun r t hlt x hx y hy => (hlt x hx y hy).le, Or.inr hapart⟩

/-- What the index of a canonical list gives for a value. -/
theorem readSeverity_of_canonical (h : Canonical ranges) (hv : v.IsNumber) :
    (∃ r, ranges.filter (·.contains v) = [r] ∧ readSeverity ranges v = .ofStatus r.status) ∨
    (∀ r ∈ ranges, r.contains v = false) ∧
      ((∀ r, firstAbove? ranges v = some r → ¬ (r.min = zero ∧ r.max = zero.neg)) ∧
        readSeverity ranges v = .invalid ∨
      ∃ r, firstAbove? ranges v = some r ∧ r.min = zero ∧ r.max = zero.neg ∧
        readSeverity ranges v = .ofStatus r.status) := by
  by_cases hin : ∃ r ∈ ranges, r.contains v = true
  · obtain ⟨r, hfirst⟩ := Option.isSome_iff_exists.mp (List.find?_isSome.mpr hin)
    have hsorted : ranges.Pairwise fun r s => r.hi ≤ s.lo := h.apart.imp le_of_lt
    have hr : r.contains v = true := (List.find?_eq_some_iff_append.mp hfirst).1
    refine Or.inl ⟨r, h.filter_contains_eq hv (List.mem_of_find?_eq_some hfirst) hr, ?_⟩
    rw [readSeverity_of_contains h.proper hsorted hv hin, severityAt_of_find? hfirst]
  · have hout : ∀ r ∈ ranges, r.contains v = false := by simpa using hin
    refine Or.inr ⟨hout, ?_⟩
    rw [readSeverity_of_forall_not_contains h.proper hv hout]
    cases hfound : firstAbove? ranges v with
    | none => exact Or.inl ⟨by simp, rfl⟩
    | some r =>
      have hiff := Range.isReversed_iff (h.proper r (List.mem_of_find?_eq_some hfound))
      by_cases hreversed : r.isReversed = true
      · obtain ⟨hmin, hmax⟩ := hiff.mp hreversed
        exact Or.inr ⟨r, rfl, hmin, hmax, if_pos hreversed⟩
      · refine Or.inl ⟨fun t ht => ?_, if_neg hreversed⟩
        obtain rfl := Option.some.inj ht
        exact fun hzeros => hreversed (hiff.mpr hzeros)

/-- A reading that is a number is finite. -/
theorem Reading.isFinite_of_prepare {raw : Option String} (h : prepare raw = .ok v) :
    v.isFinite = true := by
  unfold prepare at h
  split at h
  · cases h
  · rename_i text
    split_ifs at h
    · obtain rfl := Except.ok.inj h
      decide +kernel
    · obtain rfl := Except.ok.inj h
      decide +kernel
    · split at h
      · rename_i value hvalue
        obtain rfl := Except.ok.inj h
        exact (Option.filter_eq_some_iff.mp hvalue).2
      · cases h

/-! ### Examples of ranges -/

/-- Ranges that touch, one of which is a single point, and the two zeros as neighbours. -/
def touching : List Range :=
  [⟨.info, (ofNat 1).neg, zero.neg⟩, ⟨.warning, zero, ofNat 1⟩, ⟨.critical, ofNat 1, ofNat 1⟩,
    ⟨.ok, ofNat 1, ofNat 2⟩]

/-- A critical range from zero to negative zero, and a warning range below it. -/
def reversedZeros : ThresholdDefinition where
  critical := some (zero, zero.neg)
  warning := some ((ofNat 10).neg, (ofNat 5).neg)
  info := none
  ok := none

/-- The ranges of this definition, which are apart. -/
def reversedZerosRanges : List Range :=
  [⟨.warning, (ofNat 10).neg, (ofNat 5).neg⟩, ⟨.critical, zero, zero.neg⟩]

namespace Store

variable {s : Store}

/-- Ranges with finite bounds that never decrease in the total order are read as they stand,
if neighbours are apart or there are at most as many as half the orders that fit the width. -/
theorem publish_resolve (hs : s.available = true) (metric : String)
    (hfinite : ∀ r ∈ ranges, r.min.isFinite = true ∧ r.max.isFinite = true)
    (hordered : (boundsOf ranges).IsChain fun x y => x.totalKey ≤ y.totalKey)
    (hties : ranges.length ≤ 500000 ∨
      ranges.IsChain fun r t => r.max.totalKey < t.min.totalKey) :
    ∃ s', s.publish metric ranges = .ok s' ∧ ∀ v, v.isFinite = true →
      (s'.firstAtOrAbove metric v).map (fun found => Marker.resolve found v) =
        .ok (severityAt ranges v) := by
  obtain ⟨s', hpublish, hread⟩ := publish_read hs metric
    (indexable_of_ascending hfinite hordered hties)
  refine ⟨s', hpublish, fun v hv => ?_⟩
  rw [hread v (isNumber_of_isFinite hv),
    readSeverity_eq_severityAt hfinite hordered (isNumber_of_isFinite hv)]

/-- One is on the edge of three ranges, of which the warning range comes first. -/
theorem publish_touching_resolve :
    empty.available = true ∧
    (∀ r ∈ touching, r.min.isFinite = true ∧ r.max.isFinite = true) ∧
    ((boundsOf touching).IsChain fun x y => x.totalKey ≤ y.totalKey) ∧
    touching.length ≤ 500000 ∧ (ofNat 1).isFinite = true ∧
    ∃ s', empty.publish "cpu" touching = .ok s' ∧
      (s'.firstAtOrAbove "cpu" (ofNat 1)).map (fun found => Marker.resolve found (ofNat 1)) =
        .ok (.ofStatus .warning) := by
  have hfinite : ∀ r ∈ touching, r.min.isFinite = true ∧ r.max.isFinite = true := by
    decide +kernel
  have hordered : (boundsOf touching).IsChain fun x y => x.totalKey ≤ y.totalKey := by
    decide +kernel
  have hlength : touching.length ≤ 500000 := by decide
  have hone : (ofNat 1).isFinite = true := by decide +kernel
  have hempty : empty.available = true := rfl
  obtain ⟨s', hpublish, hread⟩ := publish_resolve hempty "cpu" hfinite hordered (Or.inl hlength)
  have hfirst : severityAt touching (ofNat 1) = .ofStatus .warning := by decide +kernel
  exact ⟨rfl, hfinite, hordered, hlength, hone, s', hpublish, by rw [hread _ hone, hfirst]⟩

/-! ### Definitions and readings -/

/-- A reading that is a number is looked up. -/
theorem classify_of_prepare {raw : Option String} (h : Reading.prepare raw = .ok v)
    (metric : String) :
    s.classify metric raw =
      (s.firstAtOrAbove metric v).map fun found => Marker.resolve found v := by
  rw [classify, h]

/-- After a rebuild a reading has the status of the one range of the canonical set with its
value. In no range it is invalid, unless the first range above it goes from zero to negative
zero; then it has the status of that range. -/
theorem rebuild_classify (hs : s.available = true) (metric : String)
    {definition : ThresholdDefinition} {sorted : List Range}
    (hbuild : definition.build = .ok sorted) :
    ∃ s', s.rebuild metric definition = .ok (mergeOverlaps sorted, s') ∧
      ∀ raw v, Reading.prepare raw = .ok v →
        (∃ r, (mergeOverlaps sorted).filter (·.contains v) = [r] ∧
          s'.classify metric raw = .ok (.ofStatus r.status)) ∨
        (∀ r ∈ mergeOverlaps sorted, r.contains v = false) ∧
          ((∀ r, firstAbove? (mergeOverlaps sorted) v = some r →
              ¬ (r.min = zero ∧ r.max = zero.neg)) ∧
            s'.classify metric raw = .ok .invalid ∨
          ∃ r, firstAbove? (mergeOverlaps sorted) v = some r ∧
            r.min = zero ∧ r.max = zero.neg ∧
            s'.classify metric raw = .ok (.ofStatus r.status)) := by
  have hproper : ∀ r ∈ sorted, r.isProper = true := by
    obtain ⟨hgiven, rfl⟩ := ThresholdDefinition.build_eq_ok_iff.mp hbuild
    exact fun r hr => hgiven r ((Ordered.sort_perm Range.le _).mem_iff.mp hr)
  have hcanonical := canonical_mergeOverlaps hproper
  obtain ⟨s', hpublish, hread⟩ := publish_read hs metric (indexable_of_canonical hcanonical)
  refine ⟨s', by simp [rebuild, hbuild, hpublish], fun raw v hraw => ?_⟩
  have hv := isNumber_of_isFinite (Reading.isFinite_of_prepare hraw)
  rw [classify_of_prepare hraw, hread v hv]
  simp only [Except.ok.injEq]
  exact readSeverity_of_canonical hcanonical hv

theorem rebuild_reversedZeros_classify :
    empty.available = true ∧ reversedZeros.build = .ok reversedZerosRanges ∧
    Reading.prepare (some "-7") = .ok (ofNat 7).neg ∧
    ∃ s', empty.rebuild "cpu" reversedZeros = .ok (mergeOverlaps reversedZerosRanges, s') ∧
      s'.classify "cpu" (some "-7") = .ok (.ofStatus .warning) := by
  have hbuild : reversedZeros.build = .ok reversedZerosRanges := by decide +kernel
  have hraw : Reading.prepare (some "-7") = .ok (ofNat 7).neg := by decide +kernel
  have hfilter : (mergeOverlaps reversedZerosRanges).filter (·.contains (ofNat 7).neg) =
      [⟨.warning, (ofNat 10).neg, (ofNat 5).neg⟩] := by decide +kernel
  have hempty : empty.available = true := rfl
  obtain ⟨s', hrebuild, hclassify⟩ := rebuild_classify hempty "cpu" hbuild
  refine ⟨rfl, hbuild, hraw, s', hrebuild, ?_⟩
  rcases hclassify _ _ hraw with ⟨r, hr, hstatus⟩ | ⟨hout, -⟩
  · rw [hfilter] at hr
    obtain rfl := List.singleton_inj.mp hr
    exact hstatus
  · rw [List.filter_eq_nil_iff.mpr fun r hr => by simp [hout r hr]] at hfilter
    cases hfilter

/-- A value in no range of the canonical set that is classified as critical. -/
theorem classify_fails_below_reversed :
    ∃ canonical s', empty.rebuild "cpu" reversedZeros = .ok (canonical, s') ∧
      Reading.prepare (some "-1") = .ok (ofNat 1).neg ∧
      (∀ r ∈ canonical, r.contains (ofNat 1).neg = false) ∧
      s'.classify "cpu" (some "-1") = .ok (.ofStatus .critical) := by
  have hbuild : reversedZeros.build = .ok reversedZerosRanges := by decide +kernel
  have hmerge : mergeOverlaps reversedZerosRanges = reversedZerosRanges := by decide +kernel
  let published : Store :=
    { empty with markers := .insert .empty "cpu" (Marker.index (markersFor reversedZerosRanges)) }
  have hrebuild : empty.rebuild "cpu" reversedZeros = .ok (reversedZerosRanges, published) := by
    have hkey : keyOf "cpu" = "cpu" := by decide +kernel
    simp only [rebuild, hbuild, hmerge, publish, replaceMarkers, whenAvailable, hkey]
    rfl
  refine ⟨reversedZerosRanges, published, hrebuild, ?_, ?_, ?_⟩
  · decide +kernel
  · decide +kernel
  · decide +kernel

end Store

end StatusBoard
