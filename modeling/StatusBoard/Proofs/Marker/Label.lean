import StatusBoard.Marker.Label
import StatusBoard.Proofs.Binary64.Written
import Mathlib.Data.String.Basic

/-!
# Reading and ordering labels

None of the first three parts of a label has a colon in it, so a label is cut where its parts
were put together, and it is read back as what it packs, up to what its score is read as. A
score that is a number is read as itself, so labels with such scores have texts of their own.
The text of a label starts with its order, which therefore decides between labels of different
order as long as the numerals do.

## Main results

* `MarkerLabel.decode?_encode` — a label is read back, whatever its score
* `MarkerLabel.decode_encode` — a label with a number for its score is read back as it was
* `MarkerLabel.encode_lt_encode` — the order of labels within the width of the order
* `MarkerLabel.encode_lt_encode_of_tens_eq` — the order of labels that differ in the last digit
* `MarkerLabel.encode_lt_encode_of_rollover` — the order of labels at the end of the width
-/

namespace StatusBoard

theorem Status.ofText?_name (s : Status) : Status.ofText? s.name = some s := by
  cases s <;> decide

namespace MarkerKind

theorem ofName?_name (k : MarkerKind) : ofName? k.name = some k := by
  cases k <;> decide

end MarkerKind

namespace MarkerLabel

variable {label label' : MarkerLabel}

theorem decodeChars?_encodeChars {score : Binary64} (horder : label.order < Text.wordSize)
    (hscore : Binary64.ofChars? label.score.toChars = some score) :
    decodeChars? label.encodeChars = some { label with score } := by
  -- None of the first three parts contains a colon, so each colon found is the one behind a part.
  have hcut : Text.cutFirst? ':' label.encodeChars =
      some (Text.padded orderWidth label.order,
        label.kind.name.toList ++ ':' ::
          (label.status.name.toList ++ ':' :: label.score.toChars)) := by
    have hno : ':' ∉ Text.padded orderWidth label.order := fun h =>
      absurd (Text.isDigit_of_mem_padded h) (by decide)
    rw [← Text.cutFirst?_append hno]
    simp [encodeChars]
  have hkind : ':' ∉ label.kind.name.toList := by cases label.kind <;> decide
  have hstatus : ':' ∉ label.status.name.toList := by cases label.status <;> decide
  have hcut' := Text.cutFirst?_append hkind (label.status.name.toList ++ ':' :: label.score.toChars)
  have hcut'' := Text.cutFirst?_append hstatus label.score.toChars
  simp [decodeChars?, hcut, hcut', hcut'', Text.unsignedOfChars?_padded horder,
    MarkerKind.ofName?_name, Status.ofText?_name, hscore]

/-- A label whose order fits 64 bits is read back, with what its score is read as. -/
theorem decode?_encode {score : Binary64} (horder : label.order < Text.wordSize)
    (hscore : Binary64.ofChars? label.score.toChars = some score) :
    decode? label.encode = some { label with score } := by
  rw [decode?, encode, String.toList_ofList]
  exact decodeChars?_encodeChars horder hscore

/-- A label whose order fits 64 bits and whose score is a number is read back as it was, with the
sign of a zero, and any other such label has another text. -/
theorem decode_encode (horder : label.order < Text.wordSize) (hscore : label.score.IsNumber) :
    decode label.encode = .ok label ∧
      ∀ label' : MarkerLabel, label'.order < Text.wordSize → label'.score.IsNumber →
        label' ≠ label → label'.encode ≠ label.encode := by
  have hread : decode? label.encode = some label :=
    decode?_encode horder (Binary64.ofChars?_toChars hscore)
  refine ⟨by rw [decode, hread], fun label' horder' hscore' hne hsame => hne ?_⟩
  have hread' : decode? label'.encode = some label' :=
    decode?_encode horder' (Binary64.ofChars?_toChars hscore')
  rw [hsame, hread] at hread'
  exact (Option.some.inj hread').symm

/-- A label with the last order and negative zero for its score. -/
def lastNegativeZero : MarkerLabel :=
  ⟨Text.wordSize - 1, .min, .info, .number true 0 (Nat.zero_le _)⟩

theorem decode_encode_lastNegativeZero :
    lastNegativeZero.order < Text.wordSize ∧ lastNegativeZero.score.IsNumber ∧
    decode lastNegativeZero.encode = .ok lastNegativeZero ∧
    encode { lastNegativeZero with score := .zero } ≠ lastNegativeZero.encode := by
  have horder : lastNegativeZero.order < Text.wordSize := by decide
  have hscore : lastNegativeZero.score.IsNumber := rfl
  obtain ⟨hread, hother⟩ := decode_encode horder hscore
  exact ⟨horder, hscore, hread, hother _ horder rfl (by decide)⟩

/-! ### Order -/

/-- The text of a label starts with its order. -/
theorem exists_encodeChars_eq (label : MarkerLabel) :
    ∃ cs, label.encodeChars = Text.padded orderWidth label.order ++ cs :=
  ⟨_, by rw [encodeChars, List.append_assoc, List.append_assoc]⟩

/-- Labels are in the order of their orders' numerals, if these differ before one of them ends. -/
theorem encode_lt_encode_of_padded_lt
    (h : ∀ cs cs', Text.padded orderWidth label.order ++ cs <
      Text.padded orderWidth label'.order ++ cs') : label.encode < label'.encode := by
  obtain ⟨cs, hcs⟩ := label.exists_encodeChars_eq
  obtain ⟨cs', hcs'⟩ := label'.exists_encodeChars_eq
  rw [String.lt_iff_toList_lt, encode, encode, String.toList_ofList, String.toList_ofList, hcs,
    hcs']
  exact h cs cs'

theorem encode_lt_encode (h : label.order < label'.order)
    (h' : label'.order < 10 ^ orderWidth) : label.encode < label'.encode :=
  encode_lt_encode_of_padded_lt (Text.padded_append_lt (by decide) h h')

theorem encode_lt_encode_of_tens_eq (h : label.order < label'.order)
    (htens : label.order / 10 = label'.order / 10) : label.encode < label'.encode :=
  encode_lt_encode_of_padded_lt (Text.padded_append_lt_of_tens_eq (by decide) h htens)

/-- The first label whose order is longer than the width comes before the last one that fits. -/
theorem encode_lt_encode_of_rollover (h : label.order = 10 ^ orderWidth)
    (h' : label'.order = 10 ^ orderWidth - 1) : label.encode < label'.encode := by
  refine encode_lt_encode_of_padded_lt fun cs cs' => ?_
  rw [h, h']
  exact Text.padded_append_lt_of_rollover (by decide) cs cs'

end MarkerLabel

end StatusBoard
