/-!
# Cutting a text at a separator

## Main definitions

* `Text.pieces` — all pieces between the separators
* `Text.cutFirst?` — the parts before and after the first separator
* `Text.afterLast?` — the part after the last separator

## Main results

* `pieces_ne_nil` — there is always a piece
* `cutFirst?_append` — a text made up of two parts and a separator is cut there
-/

namespace StatusBoard.Text

/-- The pieces of a text between the separators; without a separator it is one piece. -/
def pieces (separator : Char) : List Char → List (List Char)
  | [] => [[]]
  | c :: cs =>
    if c = separator then [] :: pieces separator cs
    else match pieces separator cs with
      | [] => [[c]]
      | piece :: rest => (c :: piece) :: rest

theorem pieces_ne_nil (separator : Char) (cs : List Char) : pieces separator cs ≠ [] := by
  cases cs with
  | nil => simp [pieces]
  | cons c cs =>
    unfold pieces
    split
    · simp
    · split <;> simp

/-- The parts before and after the first separator. -/
def cutFirst? (separator : Char) : List Char → Option (List Char × List Char)
  | [] => none
  | c :: cs =>
    if c = separator then some ([], cs)
    else (cutFirst? separator cs).map fun (before, after) => (c :: before, after)

/-- The first separator is the one behind a part without separators. -/
theorem cutFirst?_append {separator : Char} {before : List Char} (h : separator ∉ before)
    (after : List Char) : cutFirst? separator (before ++ separator :: after) =
      some (before, after) := by
  induction before with
  | nil => simp [cutFirst?]
  | cons c before ih =>
    rw [List.mem_cons, not_or] at h
    rw [List.cons_append, cutFirst?, if_neg (Ne.symm h.1), ih h.2]
    rfl

/-- The part after the last separator. -/
def afterLast? (separator : Char) (cs : List Char) : Option (List Char) :=
  if separator ∈ cs then some (cs.reverse.takeWhile (· ≠ separator)).reverse else none

end StatusBoard.Text
