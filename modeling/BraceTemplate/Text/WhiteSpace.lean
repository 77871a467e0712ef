/-! # White space

The characters with the Unicode property `White_Space`, and the cuts made at them.
Tags are divided into words at these characters, and comments are trimmed of them.
-/

namespace BraceTemplate.Text

/-- The code points with the property `White_Space`, as ranges with both ends included. -/
def whiteSpaceRanges : List (Nat × Nat) :=
  [(0x0009, 0x000D), (0x0020, 0x0020), (0x0085, 0x0085), (0x00A0, 0x00A0), (0x1680, 0x1680),
   (0x2000, 0x200A), (0x2028, 0x2029), (0x202F, 0x202F), (0x205F, 0x205F), (0x3000, 0x3000)]

/-- Whether a character has the property `White_Space`. -/
def isWhiteSpace (c : Char) : Bool :=
  whiteSpaceRanges.any fun range => range.1 ≤ c.toNat && c.toNat ≤ range.2

/-- A text without the white space it begins with. -/
def skipSpace (cs : List Char) : List Char :=
  cs.dropWhile isWhiteSpace

/-- A text without the white space at either end. -/
def trim (cs : List Char) : List Char :=
  (skipSpace (skipSpace cs).reverse).reverse

/-! ## Lemmas -/

theorem skipSpace_suffix (cs : List Char) : skipSpace cs <:+ cs :=
  List.dropWhile_suffix isWhiteSpace

theorem length_skipSpace_le (cs : List Char) : (skipSpace cs).length ≤ cs.length :=
  (skipSpace_suffix cs).length_le

/-- What is left after skipping starts with no white space. -/
theorem skipSpace_eq_cons {cs rest : List Char} {c : Char} (h : skipSpace cs = c :: rest) :
    isWhiteSpace c = false := by
  have hne : cs.dropWhile isWhiteSpace ≠ [] := by
    intro hnil
    rw [skipSpace, hnil] at h
    cases h
  have hhead := List.head_dropWhile_not isWhiteSpace hne
  simp only [skipSpace] at h
  simpa [h] using hhead

/-- Skipping white space a second time changes nothing. -/
theorem skipSpace_skipSpace (cs : List Char) : skipSpace (skipSpace cs) = skipSpace cs := by
  cases h : skipSpace cs with
  | nil => rfl
  | cons c rest =>
    simp [skipSpace, skipSpace_eq_cons h]

end BraceTemplate.Text
