import StatusBoard.Proofs.Hierarchy.Position

/-!
# Narrower filters

A filter is narrowed by setting a dimension that was unset, by including fewer texts or by
excluding more. What passes the narrower filter passes the wider one. This holds also where the
narrower filter is the first to look at samples, so that a node no longer passes by its tags
alone. A narrower filter therefore takes nodes and samples from an answer and adds none.

## Main definitions

* `Dimension.Narrower`, `FilterSpec.Narrower` — how a narrower filter comes from a wider one

## Main results

* `FilterSpec.Narrower.acceptsSubject`, `FilterSpec.Narrower.acceptsSample` — what passes
* `Subject.materialize_narrower` — the answers under both filters, position by position
-/

namespace StatusBoard

/-! ### Dimensions -/

/-- A dimension, or none, that lets through no more than another. -/
inductive Dimension.Narrower : Option Dimension → Option Dimension → Prop
  /-- Nothing is changed. -/
  | same (d : Option Dimension) : Narrower d d
  /-- An unset dimension is set. -/
  | set (d : Dimension) : Narrower (some d) none
  /-- Fewer texts are included. -/
  | included {values values' : TextSet} (subset : ∀ text ∈ values, text ∈ values') :
      Narrower (some (.including values)) (some (.including values'))
  /-- More texts are excluded. -/
  | excluded {values values' : TextSet} (subset : ∀ text ∈ values', text ∈ values) :
      Narrower (some (.excluding values)) (some (.excluding values'))

namespace Dimension.Narrower

variable {narrow wide : Option Dimension}

theorem acceptsAny (h : Narrower narrow wide) {candidates : List String}
    (haccepts : narrow.all (·.acceptsAny candidates) = true) :
    wide.all (·.acceptsAny candidates) = true := by
  cases h with
  | same => exact haccepts
  | set => rfl
  | included subset =>
    rw [Option.all_some, acceptsAny_including] at haccepts ⊢
    obtain ⟨c, hc, hmem⟩ := haccepts
    exact ⟨c, hc, subset _ hmem⟩
  | excluded subset =>
    rw [Option.all_some, acceptsAny_excluding] at haccepts ⊢
    intro c hc hmem
    exact haccepts c hc (subset _ hmem)

/-- A dimension that is set stays set. -/
theorem isSome (h : Narrower narrow wide) (hwide : wide.isSome = true) : narrow.isSome = true := by
  cases h with
  | same => exact hwide
  | set | included | excluded => rfl

end Dimension.Narrower

/-! ### Filters -/

/-- Each dimension of a filter lets through no more than that of another. -/
structure FilterSpec.Narrower (narrow wide : FilterSpec) : Prop where
  entityTags : Dimension.Narrower narrow.entityTags wide.entityTags
  metricName : Dimension.Narrower narrow.metricName wide.metricName
  metricTags : Dimension.Narrower narrow.metricTags wide.metricTags
  severity : Dimension.Narrower narrow.severity wide.severity

namespace FilterSpec.Narrower

variable {narrow wide : FilterSpec}

theorem acceptsSubject (h : narrow.Narrower wide) {tags : List String}
    (haccepts : narrow.acceptsSubject tags = true) : wide.acceptsSubject tags = true :=
  h.entityTags.acceptsAny haccepts

theorem acceptsSample (h : narrow.Narrower wide) {s : Sample}
    (haccepts : narrow.acceptsSample s = true) : wide.acceptsSample s = true := by
  simp only [FilterSpec.acceptsSample, Bool.and_eq_true] at haccepts ⊢
  obtain ⟨⟨hname, htags⟩, hseverity⟩ := haccepts
  exact ⟨⟨h.metricName.acceptsAny hname, h.metricTags.acceptsAny htags⟩,
    h.severity.acceptsAny hseverity⟩

/-- If the wider filter looks at samples, so does the narrower one. -/
theorem filtersSamples (h : narrow.Narrower wide) (hwide : wide.filtersSamples = true) :
    narrow.filtersSamples = true := by
  simp only [FilterSpec.filtersSamples, Bool.or_eq_true] at hwide ⊢
  rcases hwide with (hset | hset) | hset
  · exact .inl (.inl (h.metricName.isSome hset))
  · exact .inl (.inr (h.metricTags.isSome hset))
  · exact .inr (h.severity.isSome hset)

end FilterSpec.Narrower

/-! ### Nodes and answers -/

namespace Subject

variable {narrow wide : FilterSpec} (h : narrow.Narrower wide) (records : String → List Fields)
include h

/-- A node that passes the narrower filter passes the wider one. If only the narrower one looks
at samples, the tags are enough for the wider one. -/
theorem ownMatches_of_narrower {n : Subject} (hmatches : n.ownMatches narrow records = true) :
    n.ownMatches wide records = true := by
  rw [ownMatches, ← FilterSpec.not_filtersSamples] at hmatches ⊢
  simp only [Bool.and_eq_true, Bool.or_eq_true, Bool.not_eq_true'] at hmatches ⊢
  obtain ⟨htags, hsamples⟩ := hmatches
  refine ⟨h.acceptsSubject htags, ?_⟩
  cases hlooks : wide.filtersSamples with
  | false => exact .inl rfl
  | true =>
    rw [h.filtersSamples hlooks] at hsamples
    obtain ⟨fields, hmem, hpasses⟩ := List.any_eq_true.mp (hsamples.resolve_left (by decide))
    refine .inr (List.any_eq_true.mpr ⟨fields, hmem, ?_⟩)
    cases hread : Sample.ofFields fields with
    -- A record that cannot be read passes no filter on samples.
    | error fault => simp [hread] at hpasses
    | ok s =>
      rw [hread] at hpasses
      exact h.acceptsSample hpasses

theorem kept_of_narrower {s : Subject} (hkept : s.kept narrow records = true) :
    s.kept wide records = true := by
  obtain ⟨n, hn, hmatches⟩ := kept_iff.mp hkept
  exact kept_iff.mpr ⟨n, hn, ownMatches_of_narrower h records hmatches⟩

/-- The samples that pass the narrower filter are among those that pass the wider one, in the
same order. -/
theorem ownSamples_sublist_of_narrower (n : Subject) :
    (n.ownSamples narrow records).Sublist (n.ownSamples wide records) := by
  by_cases htags : narrow.acceptsSubject n.tags = true
  · rw [← passingSamples_eq htags, ← passingSamples_eq (h.acceptsSubject htags)]
    apply List.monotone_filter_right
    intro s
    exact h.acceptsSample
  · rw [ownSamples, if_neg htags]
    exact List.nil_sublist _

/-- Whatever the answer to the narrower filter holds at an address, the answer to the wider one
holds there too, with more samples in between. -/
theorem holding_narrower (level : Option Nat) (root : Subject) {address : List Nat}
    {samples : List Sample} (hsamples : samples ∈ root.holding narrow records level address) :
    ∃ more ∈ root.holding wide records level address, samples.Sublist more := by
  obtain ⟨n, hat, hn⟩ := Option.bind_eq_some_iff.mp hsamples
  obtain ⟨hheld, hown⟩ := Option.ite_none_right_eq_some.mp hn
  obtain rfl := Option.some.inj hown
  rw [Bool.and_eq_true] at hheld
  refine ⟨n.ownSamples wide records, ?_, ownSamples_sublist_of_narrower h records n⟩
  rw [holding, Option.mem_def, hat, Option.bind_some, if_pos]
  rw [kept_of_narrower h records hheld.1, hheld.2]
  rfl

/-- The answer to a filter and the answer to a narrower one, for any depth: if there is none to
the wider filter there is none to the narrower. Otherwise both are what the tree leaves of the
addresses that they hold; and whatever the second holds at an address, the first holds there
too, with a sublist of its samples in the second. -/
theorem materialize_narrower (policy : DepthPolicy) (requested : Option Nat) (root : Subject)
    (asked : List String) :
    let answer := fun filter =>
      ((materialize policy (.total records) filter requested root).runFrom asked).1
    let held := fun filter =>
      root.holding filter records ((policy.effective requested).map (· + 1))
    (answer wide = .ok none → answer narrow = .ok none) ∧
    (answer wide = .ok (root.restrict (held wide)) ∧
      answer narrow = .ok (root.restrict (held narrow))) ∧
    ∀ address, ∀ samples ∈ held narrow address, ∃ more ∈ held wide address,
      samples.Sublist more := by
  intro answer held
  refine ⟨?_, ⟨materialize_eq_restrict .., materialize_eq_restrict ..⟩, ?_⟩
  · intro hnone
    have hwide : ¬ root.kept wide records = true := by
      intro hkept
      simp only [answer, materialize_total, if_pos hkept] at hnone
      cases hnone
    have hnarrow : ¬ root.kept narrow records = true := mt (kept_of_narrower h records) hwide
    simp only [answer, materialize_total, if_neg hnarrow]
  · intro address samples hsamples
    exact holding_narrower h records _ root hsamples

end Subject

/-! ### A case -/

/-- A sample of a metric of the subject `db.a`. -/
def sampleOfA (metric : String) (status : Status) : Sample :=
  ⟨Sample.nameFor "db.a" metric, metric, "7", .ofStatus status, [], none⟩

/-- Records of `db.a` alone, one of them critical. -/
def recordsOfA (path : String) : List Fields :=
  if path = "db.a" then
    [(sampleOfA "cpu" .critical).toFields, (sampleOfA "disk" .ok).toFields]
  else []

/-- The filter of two metrics. -/
def cpuOrDisk : FilterSpec := { metricName := some (.includeTexts ["cpu", "disk"]) }

/-- The filter of the critical samples of one of the two. -/
def criticalCpu : FilterSpec :=
  { metricName := some (.includeTexts ["cpu"])
    severity := some (.includeTexts ["critical"]) }

theorem materialize_narrower_criticalCpu :
    let root := (Subject.leaf "db").withChild (Subject.leaf "db.a")
    let held := fun filter => root.holding filter recordsOfA none
    criticalCpu.Narrower cpuOrDisk ∧
    held criticalCpu [0] = some [sampleOfA "cpu" .critical] ∧
    ∃ more ∈ held cpuOrDisk [0], [sampleOfA "cpu" .critical].Sublist more := by
  intro root held
  have hsubset : ∀ text ∈ (Dimension.normalize ["cpu"]).members,
      text ∈ (Dimension.normalize ["cpu", "disk"]).members := by decide +kernel
  have hnarrower : criticalCpu.Narrower cpuOrDisk :=
    ⟨.same none, .included hsubset, .same none, .set _⟩
  have hheld : held criticalCpu [0] = some [sampleOfA "cpu" .critical] := by decide +kernel
  obtain ⟨-, -, hall⟩ := Subject.materialize_narrower hnarrower recordsOfA .standard none root []
  exact ⟨hnarrower, hheld, hall [0] _ hheld⟩

end StatusBoard
