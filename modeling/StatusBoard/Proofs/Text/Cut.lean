import StatusBoard.Text.Cut
import Mathlib.Data.List.Basic

/-!
# Pieces of a text

The pieces of a text are those of the library, so texts without separators are got back from
the text that they are joined to.

## Main results

* `pieces_eq_splitOn` — the pieces as those of the library
* `not_mem_of_mem_pieces` — a piece has no separators
* `pieces_map` — replacing characters before or after cutting
-/

namespace StatusBoard.Text

theorem pieces_eq_splitOn (separator : Char) (cs : List Char) :
    pieces separator cs = cs.splitOn separator := by
  induction cs with
  | nil => rfl
  | cons c cs ih =>
    obtain ⟨piece, rest, hsplit⟩ := List.exists_cons_of_ne_nil (pieces_ne_nil separator cs)
    rw [pieces, List.splitOn_cons_eq_if_modifyHead, ← ih, hsplit]
    simp only [beq_iff_eq, List.modifyHead_cons]

theorem not_mem_of_mem_pieces {separator : Char} {cs piece : List Char}
    (h : piece ∈ pieces separator cs) : separator ∉ piece := by
  induction cs generalizing piece with
  | nil => simp_all [pieces]
  | cons c cs ih =>
    obtain ⟨first, rest, hsplit⟩ := List.exists_cons_of_ne_nil (pieces_ne_nil separator cs)
    simp only [pieces, hsplit] at h ih
    split_ifs at h with hc
    · rcases List.mem_cons.mp h with rfl | h
      · exact List.not_mem_nil
      · exact ih h
    · rcases List.mem_cons.mp h with rfl | h
      · rw [List.mem_cons, not_or]
        exact ⟨Ne.symm hc, ih List.mem_cons_self⟩
      · exact ih (List.mem_cons_of_mem first h)

/-- Cutting does not see a replacement that keeps separators apart from the other characters. -/
theorem pieces_map {f : Char → Char} {separator : Char}
    (hf : ∀ c, f c = separator ↔ c = separator) (cs : List Char) :
    pieces separator (cs.map f) = (pieces separator cs).map (List.map f) := by
  induction cs with
  | nil => rfl
  | cons c cs ih =>
    obtain ⟨piece, rest, hsplit⟩ := List.exists_cons_of_ne_nil (pieces_ne_nil separator cs)
    simp only [List.map_cons, pieces, hf, ih, hsplit]
    split <;> rfl

end StatusBoard.Text
