/-!
# Equality up to the case of ASCII letters

## Main definitions

* `Text.sameIgnoringCase` — equality of texts whose ASCII letters may differ in case
-/

namespace StatusBoard.Text

/-- The texts are equal up to the case of ASCII letters. -/
def sameIgnoringCase (a b : String) : Bool :=
  decide (a.toList.map Char.toLower = b.toList.map Char.toLower)

theorem sameIgnoringCase_self (a : String) : sameIgnoringCase a a = true := by
  simp [sameIgnoringCase]

end StatusBoard.Text
