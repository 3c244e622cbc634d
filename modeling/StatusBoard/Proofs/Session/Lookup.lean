import StatusBoard.Proofs.Marker.Scan
import StatusBoard.Proofs.Session.Isolation

/-!
# Lookups over a run

Whatever has been done before, the index of a metric holds the markers that were written for it
last, in order. A lookup gives the least of them that reaches the value, as a scan over the list
that was written would.

## Main definitions

* `Operation.written` — the markers that an operation writes
* `lastWritten` — the markers that were written last for a metric

## Main results

* `Session.indexOf_run_eq_index` — the index of a metric after a run
* `Session.run_lookup` — what is looked up and listed after a run
-/

namespace StatusBoard

open Binary64
open Store (keyOf)

namespace Operation

/-- The markers that the operation writes for its metric, as they are given to the store. -/
def written : Operation → List Marker
  | rebuild _ definition => markersFor definition.canonical
  | publish _ ranges => markersFor ranges
  | replaceMarkers _ given => given
  | _ => []

theorem index_eq (op : Operation) : op.index = Marker.index op.written := by
  cases op <;> rfl

end Operation

/-- The markers that were written last for a metric. There are none if its index was taken away
last, or never set. -/
def lastWritten (metric : String) (events : List Event) : List Marker :=
  ((last? (Event.indexing? (keyOf metric)) events).map Operation.written).getD []

namespace Session

/-- The index of a metric after a run from an empty store. -/
theorem indexOf_run_eq_index (policy : DepthPolicy) (ops : List Operation) (metric : String) :
    ((start policy).run ops).2.store.indexOf metric =
      Marker.index (lastWritten metric ((start policy).events ops)) := by
  rw [indexOf_run, lastWritten]
  cases last? (Event.indexing? (keyOf metric)) ((start policy).events ops) with
  | none => rfl
  | some op => exact op.index_eq

/-- After any run, a lookup in a store that can be reached gives the least marker by score and
label of those last written for the metric whose scores are not below the value, and nothing iff
there is none. All it takes is that the scores and the value are numbers. The markers that the
store lists are those last written, in order. -/
theorem run_lookup (policy : DepthPolicy) (ops : List Operation) (metric : String) :
    let store := ((start policy).run ops).2.store
    let written := lastWritten metric ((start policy).events ops)
    store.available = true →
    ((∀ m ∈ written, m.score.IsNumber) → ∀ value : Binary64, value.IsNumber →
      ∃ found, store.firstAtOrAbove metric value = .ok found ∧
        (∀ m, found = some m ↔ Marker.IsLeastReaching written value m) ∧
        (found = none ↔ ∀ m ∈ written, ¬ value.atMost m.score = true)) ∧
    ∃ listed, store.markersOf metric = .ok listed ∧ listed.Perm written ∧
      listed.Pairwise fun a b => a.le b = true := by
  intro store written havailable
  have hindex : store.indexOf metric = Marker.index written :=
    indexOf_run_eq_index policy ops metric
  constructor
  · intro hnumber value hv
    refine ⟨StatusBoard.firstAtOrAbove (Marker.index written) value, ?_, ?_, ?_⟩
    · rw [Store.firstAtOrAbove, hindex]
      exact if_pos havailable
    · exact firstAtOrAbove_index_eq_some_iff hnumber hv
    · exact firstAtOrAbove_index_eq_none_iff hnumber hv
  · refine ⟨Marker.index written, ?_, Marker.index_perm written, Marker.pairwise_index written⟩
    rw [Store.markersOf, hindex]
    exact if_pos havailable

/-- Markers out of order, at both zeros and twice at infinity. -/
def scattered : List Marker :=
  [⟨infinity false, "z"⟩, ⟨zero, "a"⟩, ⟨infinity false, "z"⟩, ⟨zero.neg, "b"⟩, ⟨zero.neg, "a"⟩,
    ⟨(ofNat 1).neg, "a"⟩]

/-- The markers are written once; what comes later is about another metric or meets an outage. -/
def scatteredRun : List Operation :=
  [.publish "cpu" [], .replaceMarkers "CPU" scattered, .clear "disk", .setAvailable false,
    .clear "cpu", .setAvailable true]

/-- Three markers are at zero. The least of them is at negative zero. -/
theorem run_lookup_scattered :
    let store := ((start .standard).run scatteredRun).2.store
    lastWritten "Cpu" ((start .standard).events scatteredRun) = scattered ∧
    store.available = true ∧ (∀ m ∈ scattered, m.score.IsNumber) ∧ zero.IsNumber ∧
    store.firstAtOrAbove "Cpu" zero = .ok (some ⟨zero.neg, "a"⟩) ∧
    ∃ listed, store.markersOf "Cpu" = .ok listed ∧ listed.Perm scattered ∧
      listed.Pairwise fun a b => a.le b = true := by
  have hwritten : lastWritten "Cpu" ((start .standard).events scatteredRun) = scattered := by
    decide +kernel
  have havailable : ((start .standard).run scatteredRun).2.store.available = true := by
    decide +kernel
  have hnumber : ∀ m ∈ scattered, m.score.IsNumber := by
    unfold IsNumber
    decide +kernel
  have hleast : Marker.IsLeastReaching scattered zero ⟨zero.neg, "a"⟩ :=
    ⟨by decide +kernel, by decide +kernel, by decide +kernel⟩
  obtain ⟨hfirst, hlisted⟩ := run_lookup .standard scatteredRun "Cpu" havailable
  rw [hwritten] at hfirst hlisted
  obtain ⟨found, hfound, hsome, -⟩ := hfirst hnumber zero rfl
  rw [(hsome _).mpr hleast] at hfound
  exact ⟨hwritten, havailable, hnumber, rfl, hfound, hlisted⟩

end Session

end StatusBoard
