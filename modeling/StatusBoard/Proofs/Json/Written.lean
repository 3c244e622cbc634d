import StatusBoard.Json.TextList
import Mathlib.Data.String.Basic

/-!
# Reading written lists of texts

Inside its quotes every written character is one piece again: most characters are themselves,
those with an escape of their own are what the escape stands for, and the other control
characters are units, none of which is half of a pair. So a written text is read back whatever
follows it, and a list of texts is read back as long as there is fuel for each of its items,
which the length of its written form is enough for.

## Main definitions

* `Json.pieceOf` — what a written character is scanned as

## Main results

* `Json.readValue_writeString` — a written text is read back
* `Json.TextList.read?_write` — so is a written list of texts
-/

namespace StatusBoard.Json

variable {c e : Char}

/-! ### Pieces of a string -/

/-- What a written character is scanned as: a unit if it is a control character without an
escape of its own. -/
def pieceOf (c : Char) : Piece :=
  if c.toNat < 0x20 ∧ c ∉ ['\x08', '\x0c', '\n', '\r', '\t'] then .unit c.toNat else .char c

theorem scanString_escape (hne : c ≠ 'u') (he : escaped? c = some e) (rest : List Char) :
    scanString ('\\' :: c :: rest) =
      (scanString rest).map fun (pieces, rest) => (.char e :: pieces, rest) := by
  rw [scanString, he]
  · cases scanString rest <;> rfl
  · simp [hne]

theorem hexDigit?_hexChar {n : Nat} (h : n < 16) : hexDigit? (hexChar n) = some n := by
  have hall : ∀ n < 16, hexDigit? (hexChar n) = some n := by decide
  exact hall n h

theorem hexUnit?_of_lt {n : Nat} (h : n < 0x100) :
    hexUnit? '0' '0' (hexChar (n / 16)) (hexChar (n % 16)) = some n := by
  have hzero : hexDigit? '0' = some 0 := rfl
  have hhigh := hexDigit?_hexChar (n := n / 16) (by omega)
  have hlow := hexDigit?_hexChar (n := n % 16) (by omega)
  simp only [hexUnit?, hzero, hhigh, hlow, Option.bind_eq_bind, Option.bind_some, Option.pure_def,
    Option.some.injEq]
  omega

theorem scanString_unit {n : Nat} (h : n < 0x100) (rest : List Char) :
    scanString ('\\' :: 'u' :: '0' :: '0' :: hexChar (n / 16) :: hexChar (n % 16) :: rest) =
      (scanString rest).map fun (pieces, rest) => (.unit n :: pieces, rest) := by
  rw [scanString, hexUnit?_of_lt h]
  cases scanString rest <;> rfl

theorem scanString_plain (hquote : c ≠ '"') (hbackslash : c ≠ '\\') (hcontrol : 0x20 ≤ c.toNat)
    (rest : List Char) : scanString (c :: rest) =
      (scanString rest).map fun (pieces, rest) => (.char c :: pieces, rest) := by
  rw [scanString]
  · rw [if_neg (by simp [hbackslash, hcontrol])]
  · exact hquote
  · simp [hbackslash]
  · simp [hbackslash]

/-- A written character is scanned as one piece, whatever follows it. -/
theorem scanString_writeChar (c : Char) (rest : List Char) :
    scanString (writeChar c ++ rest) =
      (scanString rest).map fun (pieces, rest) => (pieceOf c :: pieces, rest) := by
  unfold writeChar
  split_ifs with hquote hbackslash hb hf hn hr ht hcontrol
  -- The first seven cases are the characters with an escape of their own.
  iterate 7 · subst_vars; exact scanString_escape (by decide) rfl rest
  · have hpiece : pieceOf c = .unit c.toNat := if_pos ⟨hcontrol, by simp [hb, hf, hn, hr, ht]⟩
    rw [hpiece]
    exact scanString_unit (by omega) rest
  · have hpiece : pieceOf c = .char c := if_neg fun h => hcontrol h.1
    rw [hpiece]
    exact scanString_plain hquote hbackslash (Nat.not_lt.mp hcontrol) rest

theorem scanString_flatMap_writeChar (cs rest : List Char) :
    scanString (cs.flatMap writeChar ++ '"' :: rest) = some (cs.map pieceOf, rest) := by
  induction cs with
  | nil =>
    rw [List.flatMap_nil, List.nil_append, scanString]
    rfl
  | cons c cs ih =>
    rw [List.flatMap_cons, List.append_assoc, scanString_writeChar, ih]
    rfl

/-- A unit that is no half of a pair stands for a character by itself. -/
theorem joinPieces?_unit {code : Nat} (hlead : isLead code = false) (htrail : isTrail code = false)
    (ps : List Piece) :
    joinPieces? (.unit code :: ps) = (joinPieces? ps).map (Char.ofNat code :: ·) := by
  cases ps with
  | nil => simp [joinPieces?, hlead, htrail]
  | cons p ps => cases p <;> simp [joinPieces?, hlead, htrail]

theorem joinPieces?_pieceOf (c : Char) (ps : List Piece) :
    joinPieces? (pieceOf c :: ps) = (joinPieces? ps).map (c :: ·) := by
  unfold pieceOf
  split_ifs with h
  · have hlead : isLead c.toNat = false := decide_eq_false (by omega)
    have htrail : isTrail c.toNat = false := decide_eq_false (by omega)
    rw [joinPieces?_unit hlead htrail, Char.ofNat_toNat]
  · rw [joinPieces?]

theorem joinPieces?_map_pieceOf (cs : List Char) : joinPieces? (cs.map pieceOf) = some cs := by
  induction cs with
  | nil => rfl
  | cons c cs ih =>
    rw [List.map_cons, joinPieces?_pieceOf, ih]
    rfl

/-! ### Texts and lists of texts -/

/-- A written text is read back, whatever follows it. -/
theorem readValue_writeString (fuel : Nat) (text : String) (rest : List Char) :
    readValue (fuel + 1) (writeString text ++ rest) = some (.text (some text), rest) := by
  have hread : readString (text.toList.flatMap writeChar ++ '"' :: rest) =
      some (some text, rest) := by
    rw [readString, scanString_flatMap_writeChar]
    simp [joinPieces?_map_pieceOf]
  have hform : writeString text ++ rest =
      '"' :: (text.toList.flatMap writeChar ++ '"' :: rest) := by
    simp [writeString]
  have hblank : ∀ cs, skipBlanks ('"' :: cs) = '"' :: cs := fun _ => rfl
  rw [readValue, hform, hblank]
  simp [hread]

/-- An array that starts with a written text is not empty. -/
theorem readValue_bracket (fuel : Nat) (text : String) (rest : List Char) :
    readValue (fuel + 1) ('[' :: (writeString text ++ rest)) =
      (readItems fuel (writeString text ++ rest)).map fun (items, left) =>
        (.array items, left) := by
  have hbracket : ∀ cs, skipBlanks ('[' :: cs) = '[' :: cs := fun _ => rfl
  have hquote : ∀ cs, skipBlanks ('"' :: cs) = '"' :: cs := fun _ => rfl
  rw [readValue, hbracket]
  simp [writeString, hquote]

namespace TextList

/-- The items behind an opening bracket are read back if there is fuel for each of them. -/
theorem readItems_write {fuel : Nat} {text : String} {texts : List String}
    (h : texts.length + 2 ≤ fuel) (rest : List Char) :
    readItems fuel (writeString text ++ (writeRest texts ++ ']' :: rest)) =
      some ((text :: texts).map fun t => .text (some t), rest) := by
  -- An item takes one unit of fuel, and the last one a second unit to be read with.
  induction texts generalizing fuel text with
  | nil =>
    obtain ⟨fuel, rfl⟩ : ∃ n, fuel = n + 2 := ⟨fuel - 2, by omega⟩
    rw [readItems, readValue_writeString]
    rfl
  | cons next texts ih =>
    rw [List.length_cons] at h
    obtain ⟨fuel, rfl⟩ : ∃ n, fuel = n + 2 := ⟨fuel - 2, by omega⟩
    have hitems : readItems (fuel + 1) (writeString next ++ (writeRest texts ++ ']' :: rest)) =
        some ((next :: texts).map fun t => .text (some t), rest) := ih (by omega)
    rw [readItems, readValue_writeString]
    simp [writeRest, skipBlanks, isBlank, hitems]

theorem length_le_length_writeRest (texts : List String) :
    texts.length ≤ (writeRest texts).length := by
  induction texts with
  | nil => rfl
  | cons t ts ih =>
    simp only [writeRest, List.length_cons, List.length_append]
    omega

theorem ofChars?_writeChars (texts : List String) :
    ofChars? (writeChars texts) = some (.array (texts.map fun t => .text (some t))) := by
  cases texts with
  | nil => rfl
  | cons t ts =>
    have hlength := length_le_length_writeRest ts
    have hfuel : ts.length + 2 ≤ 2 * (writeChars (t :: ts)).length + 1 := by
      simp only [writeChars, List.length_append, List.length_cons]
      omega
    have hform : writeChars (t :: ts) = '[' :: (writeString t ++ (writeRest ts ++ [']'])) := by
      simp [writeChars]
    rw [ofChars?, hform, readValue_bracket, readItems_write (hform ▸ hfuel)]
    rfl

/-- A written list of texts is read back. -/
theorem read?_write (texts : List String) : read? (write texts) = some texts := by
  have hitems : (texts.map fun t => Json.text (some t)).mapM (Decoder.text (maxLevels - 1)) =
      some texts := by
    induction texts with
    | nil => rfl
    | cons t ts ih => simp [Decoder.text, ih]
  rw [read?, decode?, write, ofText?, String.toList_ofList, ofChars?_writeChars]
  exact hitems

end TextList

end StatusBoard.Json
