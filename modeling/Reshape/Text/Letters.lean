/-!
# Texts that differ in the case of letters

`sameLetters` compares two texts and takes the letters `A` to `Z` for `a` to `z`. All
other characters, letters of other alphabets included, have to agree exactly.
-/

namespace Reshape.Text

/-- The two texts agree but for the case of the letters `A` to `Z`. -/
def sameLetters (a b : String) : Bool :=
  a.toList.map Char.toLower == b.toList.map Char.toLower

theorem sameLetters_iff {a b : String} :
    sameLetters a b = true ↔ a.toList.map Char.toLower = b.toList.map Char.toLower := by
  rw [sameLetters, beq_iff_eq]

@[simp]
theorem sameLetters_self (a : String) : sameLetters a a = true :=
  sameLetters_iff.mpr rfl

theorem sameLetters_comm {a b : String} : sameLetters a b = sameLetters b a := by
  rw [Bool.eq_iff_iff, sameLetters_iff, sameLetters_iff, eq_comm]

end Reshape.Text
