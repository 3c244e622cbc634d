import StatusBoard.Proofs.Hierarchy.Pruning
import StatusBoard.Store

/-!
# No partial trees

A visit fails iff the records of some node whose tags pass cannot be read, wherever the node
is in the tree and whether or not the filter would leave it. Otherwise the outages of the
source do not show. A query that is rejected reads nothing.

## Main definitions

* `RecordSource.failing` — a source that fails on some subjects
* `Subject.Unreadable` — some node that a visit reads is among them

## Main results

* `Subject.outage_all_or_nothing` — what an outage does to visits, answers and queries
-/

namespace StatusBoard

/-! ### Sources that fail -/

namespace RecordSource

variable (failed : String → Bool) (outage : String → Outage) (records : String → List Fields)

/-- A source that fails on some subjects and has records of the others. -/
def failing : RecordSource := fun path =>
  if failed path then .error (outage path) else .ok (records path)

variable {failed outage records} {path : String}

theorem exists_failing_eq_error_iff :
    (∃ o, failing failed outage records path = .error o) ↔ failed path = true := by
  unfold failing
  split <;> simp [*]

end RecordSource

/-- The store offline is a source that fails on every subject. -/
theorem Store.sampleRecords_of_offline {s : Store} (hs : s.available = false)
    (records : String → List Fields) :
    s.sampleRecords = RecordSource.failing (fun _ => true) (fun _ => .offline) records := by
  funext path
  exact Store.whenAvailable_eq_error_iff.mpr ⟨hs, rfl⟩

/-! ### Rejected queries -/

/-- A computation fails only by rejecting a text. -/
def FailsByValidation {α : Type} (x : Except Fault α) : Prop :=
  ∀ fault, x = .error fault → ∃ text, fault.message = validationMessage text

namespace FailsByValidation

variable {α β : Type}

theorem pure (a : α) : FailsByValidation (Pure.pure a) := fun _ h => by cases h

theorem bind {x : Except Fault α} {f : α → Except Fault β} (hx : FailsByValidation x)
    (hf : ∀ a, FailsByValidation (f a)) : FailsByValidation (x >>= f) := by
  intro fault h
  cases x with
  | error cause => exact hx fault (by simpa [Bind.bind, Except.bind] using h)
  | ok a => exact hf a fault h

theorem forIn {f : α → PUnit → Except Fault (ForInStep PUnit)}
    (hf : ∀ a, FailsByValidation (f a ⟨⟩)) (as : List α) :
    FailsByValidation (ForIn.forIn as PUnit.unit f) := by
  induction as with
  | nil => exact pure _
  | cons a as ih =>
    rw [List.forIn_cons]
    refine (hf a).bind fun step => ?_
    cases step with
    | done => exact pure _
    | yield => exact ih

end FailsByValidation

namespace Query

theorem failsByValidation_readDimension (raw : Option String) :
    FailsByValidation (readDimension raw) := by
  intro fault h
  cases raw with
  | none => cases h
  | some text =>
    simp only [readDimension, Dimension.parse] at h
    split_ifs at h
    all_goals cases h
    exact ⟨_, rfl⟩

theorem failsByValidation_readSeverity (raw : Option String) :
    FailsByValidation (readSeverity raw) := by
  have hread : ∀ text, FailsByValidation (Severity.read text) := by
    intro text fault h
    unfold Severity.read at h
    split at h
    all_goals cases h
    exact ⟨_, rfl⟩
  refine (failsByValidation_readDimension raw).bind fun dimension? => ?_
  cases dimension? with
  | none => exact .pure _
  | some dimension =>
    -- The loop over the texts of the dimension fails where one of them names no severity.
    refine .bind (.forIn (fun text => .bind ?_ fun _ => .pure _) _) fun _ => .pure _
    exact (hread text).bind fun _ => .pure _

/-- A query is rejected for a text in it. -/
theorem failsByValidation_toSpec (q : Query) : FailsByValidation q.toSpec :=
  .bind (failsByValidation_readSeverity _) fun _ =>
    .bind (failsByValidation_readDimension _) fun _ =>
      .bind (failsByValidation_readDimension _) fun _ =>
        .bind (failsByValidation_readDimension _) fun _ => .pure _

end Query

/-! ### Visits, answers and queries -/

namespace Subject

/-- Some node whose tags pass is among the subjects on which the source fails. -/
def Unreadable (filter : FilterSpec) (failed : String → Bool) (s : Subject) : Prop :=
  ∃ n ∈ s.nodes, filter.acceptsSubject n.tags = true ∧ failed n.path = true

section Unreadable

variable {filter : FilterSpec} {failed : String → Bool} {outage : String → Outage}
  {records : String → List Fields} {root : Subject}

/-- A tree is unreadable iff a visit asks for a subject on which the source fails. -/
theorem exists_mem_reads_iff_unreadable :
    (∃ path ∈ root.reads filter, ∃ o,
      RecordSource.failing failed outage records path = .error o) ↔
        root.Unreadable filter failed := by
  simp only [RecordSource.exists_failing_eq_error_iff, mem_reads_iff, Unreadable]
  constructor
  · rintro ⟨path, ⟨n, hn, haccepts, rfl⟩, hfailed⟩
    exact ⟨n, hn, haccepts, hfailed⟩
  · rintro ⟨n, hn, haccepts, hfailed⟩
    exact ⟨n.path, ⟨n, hn, haccepts, rfl⟩, hfailed⟩

/-- If the tree is readable the failures of the source do not show. -/
theorem visit_failing_of_readable (h : ¬ root.Unreadable filter failed) :
    visit (.failing failed outage records) filter root = visit (.total records) filter root := by
  refine visit_congr fun path hpath => ?_
  obtain ⟨n, hn, haccepts, rfl⟩ := mem_reads_iff.mp hpath
  have hreadable : ¬ failed n.path = true := fun hfailed => h ⟨n, hn, haccepts, hfailed⟩
  rw [RecordSource.failing, if_neg hreadable, RecordSource.total]

end Unreadable

/-- With a source that fails on some subjects, a visit and an answer fail iff one of them is
the path of a node whose tags pass, and otherwise are the same as without failures. A store
that is offline is such a source. A query that is rejected asks for nothing. -/
theorem outage_all_or_nothing (failed : String → Bool) (outage : String → Outage)
    (records : String → List Fields) (filter : FilterSpec) (policy : DepthPolicy)
    (requested : Option Nat) (root : Subject) (asked : List String) :
    let source := RecordSource.failing failed outage records
    ((∃ o, ((visit source filter root).runFrom asked).1 = .error o) ↔
      root.Unreadable filter failed) ∧
    ((∃ o, ((materialize policy source filter requested root).runFrom asked).1 = .error o) ↔
      root.Unreadable filter failed) ∧
    (¬ root.Unreadable filter failed →
      visit source filter root = visit (.total records) filter root ∧
      materialize policy source filter requested root =
        materialize policy (.total records) filter requested root) ∧
    (∀ s : Store, s.available = false →
      s.sampleRecords = RecordSource.failing (fun _ => true) (fun _ => .offline) records) ∧
    ∀ query fault, query.toSpec = .error fault →
      (answer policy source query root).runFrom asked = (.error (.rejected fault), asked) ∧
      ∃ text, fault.message = validationMessage text := by
  intro source
  refine ⟨?_, ?_, fun hreadable => ?_, fun s hs => Store.sampleRecords_of_offline hs records,
    fun query fault hquery => ?_⟩
  · rw [visit_eq, RecordSource.exists_runFrom_fetchAll_eq_error_iff]
    exact exists_mem_reads_iff_unreadable
  · rw [materialize_eq, RecordSource.exists_runFrom_fetchAll_eq_error_iff]
    exact exists_mem_reads_iff_unreadable
  · have hvisit : visit source filter root = visit (.total records) filter root :=
      visit_failing_of_readable hreadable
    exact ⟨hvisit, by rw [materialize, materialize, hvisit]⟩
  · refine ⟨?_, query.failsByValidation_toSpec fault hquery⟩
    rw [answer, hquery]
    rfl

/-- A subject in production, and one below it that is not. -/
def productionWithTest : Subject :=
  ((leaf "db").withTags ["prod"]).withChild ((leaf "db.test").withTags ["test"])

/-- The filter of what is in production. -/
def production : FilterSpec := { entityTags := some (.includeTexts ["prod"]) }

/-- A query for a severity that there is not. -/
def fatalOnly : Query := ⟨none, none, none, some "Fatal", none⟩

theorem outage_productionWithTest :
    let source := RecordSource.failing (· = "db.test") .connectionReset fun _ => []
    let offline := Store.empty.setAvailable false
    ¬ productionWithTest.Unreadable production (· = "db.test") ∧
    visit source production productionWithTest =
      visit (.total fun _ => []) production productionWithTest ∧
    offline.available = false ∧
    offline.sampleRecords = RecordSource.failing (fun _ => true) (fun _ => .offline) (fun _ => []) ∧
    fatalOnly.toSpec = .error (.unknownSeverity "fatal") ∧
    (answer .standard source fatalOnly productionWithTest).runFrom [] =
      (.error (.rejected (.unknownSeverity "fatal")), []) := by
  intro source offline
  have hreadable : ¬ productionWithTest.Unreadable production (· = "db.test") := by
    unfold Unreadable
    decide +kernel
  have hrejected : fatalOnly.toSpec = .error (.unknownSeverity "fatal") := by decide +kernel
  obtain ⟨-, -, hsame, hoffline, hquery⟩ := outage_all_or_nothing (· = "db.test")
    .connectionReset (fun _ => []) production .standard none productionWithTest []
  exact ⟨hreadable, (hsame hreadable).1, rfl, hoffline offline rfl, hrejected,
    (hquery fatalOnly _ hrejected).1⟩

end Subject

end StatusBoard
