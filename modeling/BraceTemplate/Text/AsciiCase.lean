/-! # Names up to the case of ASCII letters

Two names are the same up to case when they have the same fold, in which every ASCII
capital letter is replaced by its small letter. Letters outside ASCII are compared as they are.
-/

namespace BraceTemplate.Text

/-- A name with its ASCII capital letters made small. -/
def foldCase (name : String) : List Char :=
  name.toList.map Char.toLower

/-- Whether two names differ at most in the case of ASCII letters. -/
def sameUpToCase (left right : String) : Bool :=
  foldCase left == foldCase right

@[simp] theorem sameUpToCase_iff {left right : String} :
    sameUpToCase left right = true ↔ foldCase left = foldCase right := by
  simp [sameUpToCase]

end BraceTemplate.Text
