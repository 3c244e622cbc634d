import StatusBoard.Classifier

/-!
# Access to the store

What is done with the store may take several steps, and each of them may fail. A failure ends
the access. What was written before it stays written, since the store takes nothing back.

## Main definitions

* `Access` — computations that read and write the store and may fail
* `Access.runOn` — the outcome on a store, and the store as it is left
* `Access.checking`, `Access.reading`, `Access.writing` — single steps
* `Access.rebuild` — the index of a metric from its definition
-/

namespace StatusBoard

/-- A computation on a store. Also if it fails it leaves a store. -/
abbrev Access (α : Type) := ExceptT Failure (StateM Store) α

namespace Access

variable {α : Type}

/-- The outcome on a store, and the store as it is left. -/
def runOn (s : Store) (access : Access α) : Except Failure α × Store := access.run.run s

/-- A step that does not touch the store but may reject a text. -/
def checking (result : Except Fault α) : Access α := fun s => (result.mapError .rejected, s)

/-- A step that reads the store. -/
def reading (operation : Store → Except Outage α) : Access α := fun s =>
  ((operation s).mapError .unavailable, s)

/-- A step that writes to the store, unless it fails. -/
def writing (operation : Store → Except Outage Store) : Access Unit := fun s =>
  match operation s with
  | .ok written => (.ok (), written)
  | .error outage => (.error (.unavailable outage), s)

/-- Publishes the canonical set of a definition as the index of a metric. -/
def rebuild (metric : String) (definition : ThresholdDefinition) : Access (List Range) := do
  -- The definition is checked before anything is written, so the old index outlives a bad one.
  let sorted ← checking definition.build
  let canonical := mergeOverlaps sorted
  writing fun s => s.publish metric canonical
  return canonical

end Access

end StatusBoard
