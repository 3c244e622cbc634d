import StatusBoard.Access

/-!
# Recording readings

A reading is classified once, when it comes in, and cached with its severity and the tags
that its metric has at that moment.

## Main definitions

* `Access.tagsOf` — the tags of a metric
* `Access.record` — classifies a reading and caches the sample
-/

namespace StatusBoard.Access

/-- The tags of a metric; a metric without a record has none. -/
def tagsOf (metric : String) : Access (List String) := do
  match ← reading fun s => s.metricFields metric with
  | none => return []
  | some fields => checking fields.metricTags

/-- Classifies a reading at a moment and caches the sample. -/
def record (now : Instant) (subject metric : String) (raw : Option String) : Access Sample := do
  -- The reading is classified before its metric is looked up, so a failure there comes first.
  let status ← reading fun s => s.classify metric raw
  let metricTags ← tagsOf metric
  let sample : Sample :=
    { name := Sample.nameFor subject metric, metric, value := raw.getD "", status, metricTags,
      updatedAt := some now }
  writing fun s => s.putSample subject metric sample.toFields
  return sample

end StatusBoard.Access
