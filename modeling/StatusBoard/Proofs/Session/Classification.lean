import StatusBoard.Proofs.Classifier
import StatusBoard.Proofs.Session.Lookup

/-!
# Classifying over a run

A reading that is no number has a severity of its own. Any other reading is looked up, and
whatever marker is found, its label gives a status or is taken for invalid. So only an outage
makes a classification fail, and only the word for a timeout gives one. What else comes out is
the status in the label of a marker that the metric has at that moment.

## Main definitions

* `Marker.Explains` — a marker is why a value has a status

## Main results

* `Marker.resolve_eq_ofStatus_iff` — which labels give a status
* `Store.exists_classify_eq_error_iff`, `Store.classify_eq_timeout_iff` — failures and timeouts
* `Session.run_classify` — the outcomes of a classification after a run
-/

namespace StatusBoard

open Binary64

/-! ### Readings that are no number -/

theorem Reading.prepare_eq_timeout_iff {raw : Option String} :
    prepare raw = .error .timeout ↔ raw = some timeoutWord := by
  cases raw with
  | none => simp [prepare]
  | some text =>
    rw [Option.some_inj, prepare]
    split_ifs with hempty hword htrue hfalse
    · simp [hempty, timeoutWord]
    · simp [hword]
    · simp [hword]
    · simp [hword]
    · cases finite? text <;> simp [hword]

/-! ### Markers that are found -/

namespace Marker

variable {found : Option Marker} {value : Binary64} {status : Status}

/-- The marker is one of those listed, and its label gives the value its status: at a lower bound
the value is the score. If all scores are numbers, the value does not exceed that of the marker. -/
structure Explains (m : Marker) (listed : List Marker) (value : Binary64) (status : Status) :
    Prop where
  mem : m ∈ listed
  decodes : ∃ label, MarkerLabel.decode m.label = .ok label ∧ label.status = status ∧
    (label.kind = .min → m.score.equals value = true)
  reaches : (∀ n ∈ listed, n.score.IsNumber) → value.atMost m.score = true

theorem resolve_eq_ofStatus_iff : resolve found value = .ofStatus status ↔
    ∃ m ∈ found, ∃ label, MarkerLabel.decode m.label = .ok label ∧ label.status = status ∧
      (label.kind = .min → m.score.equals value = true) := by
  cases found with
  | none => simp [resolve]
  | some m =>
    simp only [resolve, MarkerLabel.decode, Option.mem_some_iff, exists_eq_left']
    cases MarkerLabel.decode? m.label with
    | none => simp
    | some label =>
      simp only [Except.ok.injEq, exists_eq_left']
      cases label.kind with
      | max => simp
      | min => by_cases hequals : m.score.equals value = true <;> simp [hequals]

theorem resolve_ne_timeout : resolve found value ≠ .timeout := by
  unfold resolve
  split
  · nofun
  · split
    · nofun
    · split
      · nofun
      · split_ifs <;> nofun

end Marker

/-! ### Classifying -/

namespace Store

variable {s : Store} {metric : String} {raw : Option String}

theorem classify_of_fault {fault : ReadingFault} (h : Reading.prepare raw = .error fault) :
    s.classify metric raw = .ok fault.severity := by
  rw [classify, h]

theorem classify_of_value {v : Binary64} (h : Reading.prepare raw = .ok v) :
    s.classify metric raw =
      s.whenAvailable (Marker.resolve (StatusBoard.firstAtOrAbove (s.indexOf metric) v) v) := by
  rw [classify_of_prepare h, firstAtOrAbove, whenAvailable, whenAvailable]
  split <;> rfl

/-- Only an outage makes a classification fail, and only if the reading is a number. -/
theorem exists_classify_eq_error_iff : (∃ outage, s.classify metric raw = .error outage) ↔
    s.available = false ∧ ∃ v, Reading.prepare raw = .ok v := by
  cases h : Reading.prepare raw with
  | error fault => simp [classify_of_fault h]
  | ok v => simp [classify_of_value h, whenAvailable_eq_error_iff]

theorem classify_eq_timeout_iff :
    s.classify metric raw = .ok .timeout ↔ raw = some Reading.timeoutWord := by
  rw [← Reading.prepare_eq_timeout_iff]
  cases h : Reading.prepare raw with
  | error fault =>
    rw [classify_of_fault h]
    cases fault <;> simp [ReadingFault.severity]
  | ok v => simp [classify_of_value h, whenAvailable_eq_ok_iff, Marker.resolve_ne_timeout]

/-- A reading that is no number is invalid in every store, unless it is the word for a timeout. -/
theorem classify_of_prepare_eq_error {fault : ReadingFault} (h : Reading.prepare raw = .error fault)
    (hraw : raw ≠ some Reading.timeoutWord) (s : Store) : s.classify metric raw = .ok .invalid := by
  rw [classify_of_fault h]
  cases fault with
  | invalidValue => rfl
  | timeout => exact absurd (Reading.prepare_eq_timeout_iff.mp h) hraw

theorem classify_eq_ofStatus_iff {status : Status} :
    s.classify metric raw = .ok (.ofStatus status) ↔
      ∃ v, Reading.prepare raw = .ok v ∧ s.available = true ∧
        Marker.resolve (StatusBoard.firstAtOrAbove (s.indexOf metric) v) v = .ofStatus status := by
  cases h : Reading.prepare raw with
  | error fault =>
    rw [classify_of_fault h]
    cases fault <;> simp [ReadingFault.severity]
  | ok v => simp [classify_of_value h, whenAvailable_eq_ok_iff]

end Store

namespace Session

/-- After any run, a status that a reading has is that of a marker which the metric has then. -/
theorem exists_explains_of_classify {policy : DepthPolicy} {ops : List Operation} {metric : String}
    {raw : Option String} {status : Status}
    (h : ((start policy).run ops).2.store.classify metric raw = .ok (.ofStatus status)) :
    ∃ v listed, Reading.prepare raw = .ok v ∧
      ((start policy).run ops).2.store.markersOf metric = .ok listed ∧
      ∃ m : Marker, m.Explains listed v status := by
  obtain ⟨v, hv, havailable, hresolve⟩ := Store.classify_eq_ofStatus_iff.mp h
  obtain ⟨m, hfound, hlabel⟩ := Marker.resolve_eq_ofStatus_iff.mp hresolve
  refine ⟨v, _, hv, if_pos havailable, m, List.mem_of_getElem? hfound, hlabel, fun hnumber => ?_⟩
  rw [indexOf_run_eq_index] at hfound hnumber
  have hwritten : ∀ n ∈ lastWritten metric ((start policy).events ops), n.score.IsNumber :=
    fun n hn => hnumber n ((Marker.index_perm _).mem_iff.mpr hn)
  have hvnumber := isNumber_of_isFinite (Reading.isFinite_of_prepare hv)
  exact ((firstAtOrAbove_index_eq_some_iff hwritten hvnumber m).mp hfound).reaches

/-- After any run, a classification fails iff the store is offline and the reading is a number,
and gives a timeout iff the reading is the word for one. Any other reading that is no number is
invalid, whatever a store holds and whether it can be reached or not. What else comes out is the
status in the label of a marker that the metric has then, and the reading does not exceed the
score of this marker if all scores are numbers. -/
theorem run_classify (policy : DepthPolicy) (ops : List Operation) (metric : String)
    (raw : Option String) :
    let store := ((start policy).run ops).2.store
    ((∃ outage, store.classify metric raw = .error outage) ↔
      store.available = false ∧ ∃ v, Reading.prepare raw = .ok v) ∧
    (store.classify metric raw = .ok .timeout ↔ raw = some "Timeout") ∧
    (∀ fault, Reading.prepare raw = .error fault → raw ≠ some "Timeout" →
      ∀ s : Store, s.classify metric raw = .ok .invalid) ∧
    ∀ severity, store.classify metric raw = .ok severity → severity ≠ .invalid →
      severity ≠ .timeout → ∃ status v listed, severity = .ofStatus status ∧
        Reading.prepare raw = .ok v ∧ store.markersOf metric = .ok listed ∧
        ∃ m : Marker, m.Explains listed v status := by
  intro store
  refine ⟨Store.exists_classify_eq_error_iff, Store.classify_eq_timeout_iff,
    fun fault hfault hraw => Store.classify_of_prepare_eq_error hfault hraw, ?_⟩
  intro severity hclassify hinvalid htimeout
  cases severity with
  | ofStatus status =>
    obtain ⟨v, listed, hv, hlisted, hm⟩ := exists_explains_of_classify hclassify
    exact ⟨status, v, listed, rfl, hv, hlisted, hm⟩
  | invalid => exact absurd rfl hinvalid
  | timeout => exact absurd rfl htimeout

/-- Markers that no range has. One has its status in small letters and the score of another
marker, one names a timeout as its status, and one has a text that is no label. -/
def mislabelled : List Marker :=
  [⟨ofNat 10, "7:max:critical:1e3"⟩, ⟨ofNat 5, "0:max:Timeout:5"⟩, ⟨ofNat 1, "critical"⟩]

/-- The markers are written directly, and stay through an outage. -/
def mislabelledRun : List Operation :=
  [.replaceMarkers "CPU" mislabelled, .setAvailable false, .clear "cpu", .setAvailable true]

/-- The label that names a timeout gives none. -/
theorem run_classify_mislabelled :
    let store := ((start .standard).run mislabelledRun).2.store
    store.classify "cpu" (some "3") = .ok .invalid ∧
    store.classify "cpu" (some " 7 ") = .ok (.ofStatus .critical) ∧
    (∃ v listed, Reading.prepare (some " 7 ") = .ok v ∧ store.markersOf "cpu" = .ok listed ∧
      ∃ m : Marker, m.Explains listed v .critical) ∧
    ∀ s : Store, s.classify "cpu" (some "timeout") = .ok .invalid := by
  intro store
  have hinvalid : store.classify "cpu" (some "3") = .ok .invalid := by decide +kernel
  have hcritical : store.classify "cpu" (some " 7 ") = .ok (.ofStatus .critical) := by
    decide +kernel
  have hfault : Reading.prepare (some "timeout") = .error (.invalidValue (some "timeout")) := by
    decide +kernel
  obtain ⟨-, -, hno, -⟩ := run_classify .standard mislabelledRun "cpu" (some "timeout")
  obtain ⟨-, -, -, hstatus⟩ := run_classify .standard mislabelledRun "cpu" (some " 7 ")
  obtain ⟨status, v, listed, heq, hv, hlisted, hm⟩ := hstatus _ hcritical nofun nofun
  obtain rfl := Severity.ofStatus.inj heq
  exact ⟨hinvalid, hcritical, ⟨v, listed, hv, hlisted, hm⟩, hno _ hfault (by decide)⟩

end Session

end StatusBoard
