import StatusBoard.Fault
import StatusBoard.Text.Blank
import StatusBoard.Text.Cut
import StatusBoard.Text.Lowercase
import StatusBoard.TextSet

/-!
# Filter dimensions

A dimension is a set of texts, of which a candidate must have one or may have none. Texts
are compared by their lowercase forms.

## Main definitions

* `Dimension` — a set of included or of excluded texts
* `Dimension.includeTexts`, `Dimension.excludeTexts` — the dimension of a list of texts
* `Dimension.parse` — the dimension of a comma-separated list
* `Dimension.acceptsAny`, `Dimension.accepts` — the test of candidates

## Main results

* `acceptsAny_including`, `acceptsAny_excluding` — what the test means
-/

namespace StatusBoard

/-- One dimension of a filter. -/
inductive Dimension where
  | including (values : TextSet)
  | excluding (values : TextSet)
deriving DecidableEq

namespace Dimension

/-- The texts without blanks at their ends and in lowercase; empty ones are dropped. -/
def normalize (texts : List String) : TextSet :=
  .ofList ((texts.map fun t => Text.lowercase (Text.trim t)).filter (· ≠ ""))

/-- The dimension that a candidate must share a text with. -/
def includeTexts (texts : List String) : Dimension := including (normalize texts)

/-- The dimension that a candidate must share no text with. -/
def excludeTexts (texts : List String) : Dimension := excluding (normalize texts)

/-- The texts of a dimension. -/
def values : Dimension → TextSet
  | including values => values
  | excluding values => values

/-! ### Written dimensions -/

/-- The character that marks an excluded item. -/
def excludeMark : Char := '-'

/-- The items of a comma-separated list, without blanks at their ends; blank ones are
dropped. -/
def items (cs : List Char) : List (List Char) :=
  ((Text.pieces ',' cs).map Text.trimChars).filter (· ≠ [])

/-- The item is marked as excluded. -/
def isExcluded (item : List Char) : Bool := item.head? = some excludeMark

/-- The items without their marks and the blanks behind them; blank ones are dropped. -/
def unmarked (items : List (List Char)) : List (List Char) :=
  (items.map fun item => Text.trimChars item.tail).filter (· ≠ [])

/-- The dimension of a comma-separated list: included items, or items that are all marked as
excluded. It is unset if no items remain. -/
def parse (raw : String) : Except Fault (Option Dimension) :=
  let listed := items raw.toList
  if listed = [] then .ok none
  else if listed.all (!isExcluded ·) then
    .ok (some (includeTexts (listed.map String.ofList)))
  else if listed.all isExcluded then
    -- An item may be nothing but its mark.
    let excluded := unmarked listed
    if excluded = [] then .ok none
    else .ok (some (excludeTexts (excluded.map String.ofList)))
  else .error (.mixedFilter raw)

/-! ### Candidates -/

/-- Some candidate has its lowercase form among the texts. -/
def hits (values : TextSet) (candidates : List String) : Bool :=
  candidates.any fun c => values.contains (Text.lowercase c)

/-- The candidates pass: one of them is included, or none is excluded. -/
def acceptsAny (d : Dimension) (candidates : List String) : Bool :=
  match d with
  | including values => hits values candidates
  | excluding values => !hits values candidates

/-- A single candidate passes. -/
def accepts (d : Dimension) (candidate : String) : Bool := d.acceptsAny [candidate]

theorem acceptsAny_including {values : TextSet} {candidates : List String} :
    (including values).acceptsAny candidates = true ↔
      ∃ c ∈ candidates, Text.lowercase c ∈ values := by
  simp [acceptsAny, hits]

theorem acceptsAny_excluding {values : TextSet} {candidates : List String} :
    (excluding values).acceptsAny candidates = true ↔
      ∀ c ∈ candidates, Text.lowercase c ∉ values := by
  simp [acceptsAny, hits, ← TextSet.contains_iff]

end Dimension

end StatusBoard
