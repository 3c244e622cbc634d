import StatusBoard.Filter.Query
import StatusBoard.Proofs.Filter.Parse
import StatusBoard.Proofs.Sample.Record

/-!
# Severities of a query

The texts of a severity dimension are read as severities when a query is checked, and compared
with the names of severities when samples are filtered. Reading ignores the case of ASCII letters
in texts that are in lowercase already, and comparing turns the name into lowercase. Both come to
the same: a name is among the texts iff its severity is read from one of them. This holds also for
a letter outside ASCII that has a small ASCII letter as its lowercase form.

## Main definitions

* `Dimension.Names` — a dimension lets a severity through, by what its texts are read as

## Main results

* `Severity.ofText?_lowercase_iff` — which severity a lowercase form is read as
* `Query.readSeverity_eq_ok_iff` — when the severities of a query are accepted
* `Query.toSpec_severity` — which queries are accepted, and what their severities mean
-/

namespace StatusBoard

/-! ### Reading severities -/

namespace Severity

variable {text text' : String} {s : Severity}

theorem ofText?_congr (h : Text.sameIgnoringCase text text' = true) :
    ofText? text = ofText? text' := by
  have hsame : ∀ s : Severity,
      Text.sameIgnoringCase s.name text = Text.sameIgnoringCase s.name text' := by
    intro s
    rw [Bool.eq_iff_iff, Text.sameIgnoringCase_iff, Text.sameIgnoringCase_iff,
      Text.sameIgnoringCase_iff.mp h]
  simp only [ofText?, hsame]

theorem ofText?_eq_some_iff :
    ofText? text = some s ↔ Text.sameIgnoringCase s.name text = true := by
  constructor
  · intro h
    simpa using List.find?_some h
  · intro h
    rw [← ofText?_congr h, ofText?_name]

theorem read_eq_ok_iff : read text = .ok s ↔ ofText? text = some s := by
  unfold read
  cases ofText? text <;> simp

/-- The names are of ASCII letters. -/
theorem toList_lowercase_name (s : Severity) :
    (Text.lowercase s.name).toList = s.name.toList.map Char.toLower := by
  cases s with
  | ofStatus status => cases status <;> decide
  | invalid | timeout => decide

/-- A lowercase form is read as a severity iff it is the lowercase form of the name. -/
theorem ofText?_lowercase_iff :
    ofText? (Text.lowercase text) = some s ↔ Text.lowercase s.name = Text.lowercase text := by
  rw [ofText?_eq_some_iff, Text.sameIgnoringCase_iff, Text.map_toLower_lowercase,
    ← toList_lowercase_name, String.toList_inj]

end Severity

/-! ### Severity dimensions -/

namespace Dimension

/-- The dimension lets a severity through, by what its texts are read as: one of them is read as
the severity, or none is. If there is no dimension, every severity passes. -/
def Names (d? : Option Dimension) (s : Severity) : Prop :=
  match d? with
  | none => True
  | some (including values) => ∃ v ∈ values, Severity.read v = .ok s
  | some (excluding values) => ∀ v ∈ values, Severity.read v ≠ .ok s

/-- In normal texts, those that are read as a severity are the lowercase form of its name. -/
theorem lowercase_name_mem_iff {ts : List String} {s : Severity} :
    Text.lowercase s.name ∈ normalize ts ↔ ∃ v ∈ normalize ts, Severity.read v = .ok s := by
  constructor
  · intro hmem
    exact ⟨_, hmem, Severity.read_eq_ok_iff.mpr (Severity.ofText?_lowercase_iff.mpr rfl)⟩
  · rintro ⟨v, hv, hread⟩
    obtain ⟨t, -, -, rfl⟩ := mem_normalize.mp hv
    rw [Severity.read_eq_ok_iff, Severity.ofText?_lowercase_iff] at hread
    rw [hread]
    exact hv

/-- A parsed dimension accepts the names of the severities that it lets through. -/
theorem Parses.accepts_name_iff {raw : String} {d : Dimension} (h : Parses raw (.ok (some d)))
    (s : Severity) : d.accepts s.name = true ↔ Names (some d) s := by
  cases h with
  | included =>
    rw [includeTexts, accepts, acceptsAny_including]
    simp only [List.mem_singleton, exists_eq_left]
    exact lowercase_name_mem_iff
  | excluded =>
    rw [excludeTexts, accepts, acceptsAny_excluding, List.forall_mem_singleton]
    refine (not_congr lowercase_name_mem_iff).trans ?_
    simp only [not_exists, not_and]
    rfl

end Dimension

/-! ### Queries -/

namespace Query

theorem bind_eq_ok_iff {ε α β : Type} {x : Except ε α} {f : α → Except ε β} {b : β} :
    (x >>= f) = .ok b ↔ ∃ a, x = .ok a ∧ f a = .ok b := by
  cases x <;> simp [bind, Except.bind]

/-- A list is accepted iff its items are not partly marked. -/
theorem exists_readDimension_eq_ok_iff {raw? : Option String} :
    (∃ d?, readDimension raw? = .ok d?) ↔ ∀ raw ∈ raw?, ¬ Dimension.Mixes raw := by
  cases raw? with
  | none => simp [readDimension]
  | some raw =>
    simp only [readDimension, Option.mem_some, forall_eq']
    cases h : Dimension.parse raw with
    | ok d? =>
      have hmixes : ¬ Dimension.Mixes raw := fun hmixes => by
        rw [Dimension.parse_eq_iff.mpr (.rejected hmixes)] at h
        cases h
      simp [hmixes]
    | error fault => simp [(Dimension.parse_eq_error_iff.mp h).1]

/-- Checking in turn succeeds iff each check does. -/
theorem forIn_discard_eq_ok_iff {ε α β : Type} (check : α → Except ε β) (as : List α) :
    (forIn as PUnit.unit fun a (_ : PUnit) => do
      discard (check a)
      pure (ForInStep.yield PUnit.unit)) = Except.ok PUnit.unit ↔
        ∀ a ∈ as, ∃ b, check a = .ok b := by
  induction as with
  | nil => exact iff_of_true rfl (List.forall_mem_nil _)
  | cons a as ih =>
    rw [List.forIn_cons, List.forall_mem_cons, ← ih]
    cases check a with
    | error fault => exact iff_of_false nofun fun h => nomatch h.1
    | ok b => exact (and_iff_right ⟨b, rfl⟩).symm

theorem readSeverity_eq_ok_iff {raw? : Option String} {d? : Option Dimension} :
    readSeverity raw? = .ok d? ↔ readDimension raw? = .ok d? ∧
      ∀ d ∈ d?, ∀ v ∈ d.values, ∃ s, Severity.read v = .ok s := by
  rw [readSeverity, bind_eq_ok_iff]
  have hchecked : ∀ d : Dimension, (do
      for v in d.values.members do
        discard (Severity.read v)
      return some d) = Except.ok d? ↔
        (∀ v ∈ d.values, ∃ s, Severity.read v = .ok s) ∧ some d = d? := by
    intro d
    rw [bind_eq_ok_iff]
    have hloop := forIn_discard_eq_ok_iff Severity.read d.values.members
    constructor
    · rintro ⟨⟨⟩, hread, hd⟩
      exact ⟨hloop.mp hread, Except.ok.inj hd⟩
    · rintro ⟨hread, rfl⟩
      exact ⟨⟨⟩, hloop.mpr hread, rfl⟩
  constructor
  · rintro ⟨_ | d, hparsed, h⟩
    · cases h
      exact ⟨hparsed, nofun⟩
    · obtain ⟨hread, rfl⟩ := (hchecked d).mp h
      refine ⟨hparsed, fun d' hd' => ?_⟩
      cases hd'
      exact hread
  · rintro ⟨hparsed, hread⟩
    refine ⟨d?, hparsed, ?_⟩
    cases d? with
    | none => rfl
    | some d => exact (hchecked d).mpr ⟨hread d rfl, rfl⟩

/-- A query is accepted iff its dimensions are. -/
theorem toSpec_eq_ok_iff {q : Query} {spec : FilterSpec} :
    q.toSpec = .ok spec ↔ readSeverity q.severity = .ok spec.severity ∧
      readDimension q.entityTags = .ok spec.entityTags ∧
      readDimension q.metricName = .ok spec.metricName ∧
      readDimension q.metricTags = .ok spec.metricTags := by
  simp only [toSpec, bind_eq_ok_iff]
  constructor
  · rintro ⟨severity, hseverity, entityTags, hentity, metricName, hname, metricTags, htags, hspec⟩
    cases hspec
    exact ⟨hseverity, hentity, hname, htags⟩
  · rintro ⟨hseverity, hentity, hname, htags⟩
    exact ⟨_, hseverity, _, hentity, _, hname, _, htags, rfl⟩

theorem exists_toSpec_eq_ok_iff {q : Query} :
    (∃ spec, q.toSpec = .ok spec) ↔ (∃ d?, readSeverity q.severity = .ok d?) ∧
      (∃ d?, readDimension q.entityTags = .ok d?) ∧ (∃ d?, readDimension q.metricName = .ok d?) ∧
      ∃ d?, readDimension q.metricTags = .ok d? := by
  simp only [toSpec_eq_ok_iff]
  constructor
  · rintro ⟨spec, hseverity, hentity, hname, htags⟩
    exact ⟨⟨_, hseverity⟩, ⟨_, hentity⟩, ⟨_, hname⟩, ⟨_, htags⟩⟩
  · rintro ⟨⟨severity, hseverity⟩, ⟨entityTags, hentity⟩, ⟨metricName, hname⟩, metricTags, htags⟩
    exact ⟨⟨entityTags, metricName, metricTags, severity⟩, hseverity, hentity, hname, htags⟩

theorem exists_readSeverity_eq_ok_iff {raw? : Option String} :
    (∃ d?, readSeverity raw? = .ok d?) ↔ (∃ d?, readDimension raw? = .ok d?) ∧
      ∀ d, readDimension raw? = .ok (some d) → ∀ v ∈ d.values, ∃ s, Severity.read v = .ok s := by
  simp only [readSeverity_eq_ok_iff]
  constructor
  · rintro ⟨d?, hparsed, hread⟩
    refine ⟨⟨d?, hparsed⟩, fun d hd => hread d ?_⟩
    exact Except.ok.inj (hparsed.symm.trans hd)
  · rintro ⟨⟨d?, hparsed⟩, hread⟩
    refine ⟨d?, hparsed, fun d hd => hread d ?_⟩
    rw [hparsed, Option.mem_def.mp hd]

/-- The severities of an accepted query let through what their texts are read as. -/
theorem acceptsSample_severity_iff {q : Query} {d? : Option Dimension}
    (h : readDimension q.severity = .ok d?) (x : Sample) :
    FilterSpec.acceptsSample { severity := d? } x = true ↔ Dimension.Names d? x.status := by
  have honly : FilterSpec.acceptsSample { severity := d? } x =
      d?.all (·.accepts x.status.name) := by
    simp [FilterSpec.acceptsSample]
  rw [honly]
  cases d? with
  | none => exact iff_of_true rfl trivial
  | some d =>
    cases hraw : q.severity with
    | none =>
      rw [hraw] at h
      cases h
    | some raw =>
      rw [hraw, readDimension, Dimension.parse_eq_iff] at h
      exact h.accepts_name_iff x.status

/-- A query is accepted iff in none of its lists the items are partly marked and all texts of its
severity dimension can be read. If so, the filter lets a sample through iff the filter without
severities does, and its severity is one of those that the texts are read as, or none of them if
they are excluded. -/
theorem toSpec_severity (q : Query) :
    ((∃ spec, q.toSpec = .ok spec) ↔
      (∀ raw, some raw ∈ [q.entityTags, q.metricName, q.metricTags, q.severity] →
        ¬ Dimension.Mixes raw) ∧
      ∀ d, readDimension q.severity = .ok (some d) →
        ∀ v ∈ d.values, ∃ s, Severity.read v = .ok s) ∧
    ∀ spec, q.toSpec = .ok spec →
      readDimension q.severity = .ok spec.severity ∧
      ∀ x : Sample,
        (FilterSpec.acceptsSample { severity := spec.severity } x = true ↔
          Dimension.Names spec.severity x.status) ∧
        spec.acceptsSample x = (FilterSpec.acceptsSample { spec with severity := none } x &&
          FilterSpec.acceptsSample { severity := spec.severity } x) := by
  refine ⟨?_, fun spec hspec => ?_⟩
  · rw [exists_toSpec_eq_ok_iff, exists_readSeverity_eq_ok_iff]
    simp only [exists_readDimension_eq_ok_iff, List.mem_cons, List.not_mem_nil, or_false,
      Option.mem_def]
    constructor
    · rintro ⟨⟨hseverity, hread⟩, hentity, hname, htags⟩
      refine ⟨?_, hread⟩
      rintro raw (h | h | h | h)
      · exact hentity raw h.symm
      · exact hname raw h.symm
      · exact htags raw h.symm
      · exact hseverity raw h.symm
    · rintro ⟨hmixes, hread⟩
      refine ⟨⟨fun raw h => hmixes raw ?_, hread⟩, fun raw h => hmixes raw ?_,
        fun raw h => hmixes raw ?_, fun raw h => hmixes raw ?_⟩ <;> simp [h]
  · have hparsed := (readSeverity_eq_ok_iff.mp (toSpec_eq_ok_iff.mp hspec).1).1
    refine ⟨hparsed, fun x => ⟨acceptsSample_severity_iff hparsed x, ?_⟩⟩
    simp [FilterSpec.acceptsSample]

/-- A query that excludes a severity written with a Kelvin sign. -/
def kelvin : Query := ⟨none, none, some "slo", some " -O\u212A ,", none⟩

/-- The Kelvin sign has a small ASCII letter as its lowercase form, so the text is read. -/
theorem toSpec_severity_kelvin :
    let values := Dimension.normalize ["O\u212A"]
    readDimension kelvin.severity = .ok (some (.excluding values)) ∧
    (∀ v ∈ values, Severity.read v = .ok (.ofStatus .ok)) ∧
    ∃ spec, kelvin.toSpec = .ok spec ∧ ∀ x : Sample,
      (FilterSpec.acceptsSample { severity := spec.severity } x = true ↔
        ∀ v ∈ values, Severity.read v ≠ .ok x.status) := by
  intro values
  have htails : (Dimension.items " -O\u212A ,".toList).map (fun i => String.ofList i.tail) =
      ["O\u212A"] := by decide +kernel
  have hparses : Dimension.Parses " -O\u212A ," _ := .excluded (by decide) (by decide)
  rw [htails, ← Dimension.parse_eq_iff] at hparses
  have hparsed : readDimension kelvin.severity = .ok (some (.excluding values)) := hparses
  have hread : ∀ v ∈ values.members, Severity.read v = .ok (.ofStatus .ok) := by
    decide +kernel
  obtain ⟨haccepted, hmeans⟩ := toSpec_severity kelvin
  obtain ⟨spec, hspec⟩ := haccepted.mpr ⟨by
    rintro raw h
    simp only [kelvin, List.mem_cons, reduceCtorEq, Option.some.injEq, false_or,
      List.not_mem_nil, or_false] at h
    rcases h with rfl | rfl <;> decide, fun d hd => by
    cases hparsed.symm.trans hd
    exact fun v hv => ⟨_, hread v hv⟩⟩
  obtain ⟨hseverity, hsamples⟩ := hmeans spec hspec
  refine ⟨hparsed, hread, spec, hspec, fun x => ?_⟩
  have hnamed := (hsamples x).1
  rw [← Except.ok.inj (hparsed.symm.trans hseverity)] at hnamed ⊢
  exact hnamed

end Query

end StatusBoard
