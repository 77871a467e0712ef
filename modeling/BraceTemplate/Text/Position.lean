/-! # Positions in a text

A position counts lines and the characters of a line, both from one. Only the newline
character ends a line.
-/

namespace BraceTemplate

/-- A place in a text, by its line and its column. -/
structure Position where
  line : Nat
  column : Nat
  deriving Repr, DecidableEq, Inhabited

namespace Position

/-- The position of the first character of a text. -/
def start : Position := ⟨1, 1⟩

/-- The position after one more character. -/
def next (position : Position) (c : Char) : Position :=
  if c = '\n' then ⟨position.line + 1, 1⟩ else ⟨position.line, position.column + 1⟩

/-- The position after a run of characters. -/
def advance (position : Position) (passed : List Char) : Position :=
  passed.foldl next position

@[simp] theorem advance_nil (position : Position) : position.advance [] = position := rfl

theorem advance_cons (position : Position) (c : Char) (cs : List Char) :
    position.advance (c :: cs) = (position.next c).advance cs := rfl

@[simp] theorem advance_append (position : Position) (first second : List Char) :
    position.advance (first ++ second) = (position.advance first).advance second := by
  simp [advance]

/-- The line grows by the number of newlines that were passed. -/
theorem line_advance (position : Position) (passed : List Char) :
    (position.advance passed).line = position.line + passed.count '\n' := by
  induction passed generalizing position with
  | nil => rfl
  | cons c cs ih =>
    rw [advance_cons, ih, List.count_cons, next]
    by_cases h : c = '\n'
    · simp [h]
      omega
    · simp [h]

/-- Where no newline is passed, the column grows by the number of characters. -/
theorem column_advance {passed : List Char} (h : '\n' ∉ passed) (position : Position) :
    (position.advance passed).column = position.column + passed.length := by
  induction passed generalizing position with
  | nil => rfl
  | cons c cs ih =>
    rw [List.mem_cons, not_or] at h
    rw [advance_cons, ih h.2, next, if_neg (Ne.symm h.1), List.length_cons]
    exact Nat.add_right_comm _ _ _

end Position

end BraceTemplate
