import StatusBoard.Calendar.Timestamp
import StatusBoard.Filter.Query
import StatusBoard.Json.Decoder
import StatusBoard.Subject
import StatusBoard.Threshold.Definition

/-!
# JSON documents

How the types of the domain are given as JSON. A field that may be absent has a default, or
holds a value that may be `null`.

## Main definitions

* `Status.ofJson`, `Severity.ofJson` — names
* `Range.ofJson`, `ThresholdDefinition.ofJson` — ranges and definitions
* `Sample.ofJson`, `Subject.ofJson` — samples and trees
* `Query.ofJson` — queries
-/

namespace StatusBoard

open Json (Decoder Slots slots?)

/-- A status by its exact name. -/
def Status.ofJson : Decoder Status := fun levels json =>
  (Decoder.choice levels json).bind Status.ofName?

/-- A severity by its exact name. -/
def Severity.ofJson : Decoder Severity := fun levels json =>
  (Decoder.choice levels json).bind Severity.ofName?

/-- A range. -/
def Range.ofJson : Decoder Range := fun levels json => do
  let (slots, levels) ← slots? [⟨"status", false⟩, ⟨"min", false⟩, ⟨"max", false⟩] levels json
  let status ← slots.field "status" none (Status.ofJson levels)
  let min ← slots.field "min" none (Decoder.binary64 levels)
  let max ← slots.field "max" none (Decoder.binary64 levels)
  return { status, min, max }

/-- An array of a lower and an upper bound. -/
def Bounds.ofJson : Decoder Bounds
  | levels + 1, .array [min, max] => do
    return (← Decoder.binary64 levels min, ← Decoder.binary64 levels max)
  | _, _ => none

/-- A threshold definition, each range of which may be absent. -/
def ThresholdDefinition.ofJson : Decoder ThresholdDefinition := fun levels json => do
  let names := ["criticalRange", "warningRange", "infoRange", "okRange"]
  let (slots, levels) ← slots? (names.map fun name => ⟨name, true⟩) levels json
  let bounds := fun name => slots.field name (some none) (Decoder.nullable Bounds.ofJson levels)
  return {
    critical := ← bounds "criticalRange"
    warning := ← bounds "warningRange"
    info := ← bounds "infoRange"
    ok := ← bounds "okRange"
  }

/-- A written time. -/
def Instant.ofJson : Decoder Instant := fun levels json =>
  (Decoder.text levels json).bind Timestamp.read?

/-- A sample. -/
def Sample.ofJson : Decoder Sample := fun levels json => do
  let (slots, levels) ← slots? [⟨"name", false⟩, ⟨"metricName", false⟩, ⟨"value", false⟩,
    ⟨"status", false⟩, ⟨"metricTags", true⟩, ⟨"updatedAt", false⟩] levels json
  let name ← slots.field "name" none (Decoder.text levels)
  let metric ← slots.field "metricName" none (Decoder.text levels)
  let value ← slots.field "value" none (Decoder.text levels)
  let status ← slots.field "status" none (Severity.ofJson levels)
  let metricTags ← slots.field "metricTags" (some []) (Decoder.list Decoder.text levels)
  let updatedAt ← slots.field "updatedAt" (some none) (Decoder.nullable Instant.ofJson levels)
  return { name, metric, value, status, metricTags, updatedAt }

/-- A tree of subjects. Each node and each list of children is a level of its own. -/
def Subject.ofJson : Decoder Subject
  | 0, _ => none
  | levels + 1, json => do
    let (slots, _) ← slots? [⟨"absolutePath", false⟩, ⟨"name", false⟩, ⟨"tags", true⟩,
      ⟨"children", true⟩, ⟨"samples", true⟩] (levels + 1) json
    let path ← slots.field "absolutePath" none (Decoder.text levels)
    let name ← slots.field "name" none (Decoder.text levels)
    let tags ← slots.field "tags" (some []) (Decoder.list Decoder.text levels)
    let children ← slots.field "children" (some []) fun json =>
      match levels, json with
      | inner + 1, .array items => items.mapM (Subject.ofJson inner)
      | _, _ => none
    let samples ← slots.field "samples" (some []) (Decoder.list Sample.ofJson levels)
    return { path, name, tags, children, samples }

/-- A query. -/
def Query.ofJson : Decoder Query := fun levels json => do
  let names := ["entityTags", "metricName", "metricTags", "severity", "depth"]
  let (slots, levels) ← slots? (names.map fun name => ⟨name, false⟩) levels json
  let optionalText := fun name =>
    slots.field name (some none) (Decoder.nullable Decoder.text levels)
  let depth ← slots.field "depth" (some none) (Decoder.nullable Decoder.unsigned levels)
  return {
    entityTags := ← optionalText "entityTags"
    metricName := ← optionalText "metricName"
    metricTags := ← optionalText "metricTags"
    severity := ← optionalText "severity"
    depth
  }

end StatusBoard
