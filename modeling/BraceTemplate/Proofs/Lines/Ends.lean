import BraceTemplate.Token.Lines
import Mathlib.Data.List.TakeWhile

/-!
# The ends of the lines of a text

`firstLine` and `lastLine` are the characters up to the first newline of a text and after the last
one, and `startOfLine` and `endOfLine` the positions where they begin and where the line after them
begins. Both ways of cutting a text at a newline are described by these positions.
-/

namespace BraceTemplate

/-- The characters before the first newline. -/
def firstLine (cs : List Char) : List Char :=
  cs.takeWhile (· ≠ '\n')

/-- The characters after the last newline. -/
def lastLine (cs : List Char) : List Char :=
  (firstLine cs.reverse).reverse

/-- The position after the first newline, or the end of the text. -/
def endOfLine (cs : List Char) : Nat :=
  min ((firstLine cs).length + 1) cs.length

/-- The position after the last newline, or the start of the text. -/
def startOfLine (cs : List Char) : Nat :=
  cs.length - (lastLine cs).length

/-! ## A newline keeps a line from what comes beyond it -/

theorem firstLine_newline {line : List Char} (hline : '\n' ∉ line) (rest : List Char) :
    firstLine (line ++ '\n' :: rest) = line := by
  have hpos : ∀ c ∈ line, decide (c ≠ '\n') = true := by
    intro c hc
    exact decide_eq_true fun heq => hline (heq ▸ hc)
  rw [firstLine, List.takeWhile_append_of_pos hpos]
  simp

theorem firstLine_eq_self {cs : List Char} (h : '\n' ∉ cs) : firstLine cs = cs := by
  rw [firstLine, List.takeWhile_eq_self_iff]
  intro c hc
  exact decide_eq_true fun heq => h (heq ▸ hc)

theorem firstLine_append {cs : List Char} (h : '\n' ∈ cs) (after : List Char) :
    firstLine (cs ++ after) = firstLine cs := by
  induction cs with
  | nil => cases h
  | cons c cs ih =>
    rw [List.cons_append, firstLine, firstLine, List.takeWhile_cons, List.takeWhile_cons]
    by_cases hc : c = '\n'
    · simp [hc]
    · have htail : '\n' ∈ cs := (List.mem_cons.1 h).resolve_left (Ne.symm hc)
      simp only [hc, ne_eq, not_false_eq_true, decide_true, if_true]
      exact congrArg (c :: ·) (ih htail)

theorem firstLine_append_of_not_mem {cs : List Char} (h : '\n' ∉ cs) (after : List Char) :
    firstLine (cs ++ after) = cs ++ firstLine after := by
  induction cs with
  | nil => rfl
  | cons c cs ih =>
    rw [List.mem_cons, not_or] at h
    rw [List.cons_append, firstLine, List.takeWhile_cons, if_pos (by simpa using Ne.symm h.1)]
    exact congrArg (c :: ·) (ih h.2)

theorem lastLine_append {cs : List Char} (h : '\n' ∈ cs) (before : List Char) :
    lastLine (before ++ cs) = lastLine cs := by
  rw [lastLine, lastLine, List.reverse_append, firstLine_append (List.mem_reverse.2 h)]

theorem lastLine_append_of_not_mem {cs : List Char} (h : '\n' ∉ cs) (before : List Char) :
    lastLine (before ++ cs) = lastLine before ++ cs := by
  rw [lastLine, lastLine, List.reverse_append,
    firstLine_append_of_not_mem (fun hmem => h (List.mem_reverse.1 hmem)), List.reverse_append,
    List.reverse_reverse]

/-! ## Positions -/

theorem length_lastLine_le (cs : List Char) : (lastLine cs).length ≤ cs.length := by
  have hle : (firstLine cs.reverse).length ≤ cs.reverse.length :=
    (List.takeWhile_prefix _).length_le
  rw [List.length_reverse] at hle
  rwa [lastLine, List.length_reverse]

theorem endOfLine_le (cs : List Char) : endOfLine cs ≤ cs.length :=
  Nat.min_le_right _ _

theorem endOfLine_newline {line : List Char} (hline : '\n' ∉ line) (rest : List Char) :
    endOfLine (line ++ '\n' :: rest) = line.length + 1 := by
  rw [endOfLine, firstLine_newline hline]
  simp

theorem endOfLine_of_not_mem {cs : List Char} (h : '\n' ∉ cs) : endOfLine cs = cs.length := by
  rw [endOfLine, firstLine_eq_self h]
  omega

theorem endOfLine_append {cs : List Char} (h : '\n' ∈ cs) (after : List Char) :
    endOfLine (cs ++ after) = endOfLine cs := by
  obtain ⟨line, rest, rfl, hline⟩ := List.eq_append_cons_of_mem h
  rw [List.append_assoc, List.cons_append, endOfLine_newline hline, endOfLine_newline hline]

theorem startOfLine_append {cs : List Char} (h : '\n' ∈ cs) (before : List Char) :
    startOfLine (before ++ cs) = before.length + startOfLine cs := by
  have := length_lastLine_le cs
  rw [startOfLine, startOfLine, lastLine_append h, List.length_append]
  omega

theorem startOfLine_of_not_mem {cs : List Char} (h : '\n' ∉ cs) : startOfLine cs = 0 := by
  have hself : lastLine cs = cs := by
    have := lastLine_append_of_not_mem h []
    rwa [List.nil_append, show lastLine [] = [] from rfl, List.nil_append] at this
  rw [startOfLine, hself, Nat.sub_self]

/-! ## Cutting at a newline -/

theorem splitFirstLine_eq {cs : List Char} :
    splitFirstLine cs =
      if '\n' ∈ cs then some (firstLine cs, cs.drop (endOfLine cs)) else none := by
  cases hsplit : splitFirstLine cs with
  | none => rw [if_neg (splitFirstLine_eq_none_iff.1 hsplit)]
  | some cut =>
    obtain ⟨line, rest⟩ := cut
    obtain ⟨rfl, hline⟩ := splitFirstLine_eq_some hsplit
    have hdrop : (line ++ '\n' :: rest).drop (line.length + 1) = rest := by
      rw [← List.drop_drop, List.drop_left, List.drop_one, List.tail_cons]
    rw [if_pos (by simp), firstLine_newline hline, endOfLine_newline hline, hdrop]

/-- The cut at the last newline in terms of `lastLine` and its start. -/
theorem splitLastLine_eq {cs : List Char} :
    splitLastLine cs =
      if '\n' ∈ cs then some (cs.take (startOfLine cs), lastLine cs) else none := by
  cases hsplit : splitLastLine cs with
  | none => rw [if_neg (splitLastLine_eq_none_iff.1 hsplit)]
  | some cut =>
    obtain ⟨before, line⟩ := cut
    obtain ⟨rfl, hlast, hline⟩ := splitLastLine_eq_some hsplit
    obtain ⟨init, rfl⟩ := List.getLast?_eq_some_iff.1 hlast
    have hend : lastLine (init ++ ['\n'] ++ line) = line := by
      have hempty : lastLine (init ++ ['\n']) = [] := by simp [lastLine, firstLine]
      rw [lastLine_append_of_not_mem hline, hempty, List.nil_append]
    have hstart : startOfLine (init ++ ['\n'] ++ line) = (init ++ ['\n']).length := by
      rw [startOfLine, hend, List.length_append, Nat.add_sub_cancel]
    rw [if_pos (by simp), hend, hstart, List.take_left]

theorem dropFirstLine_eq (cs : List Char) : dropFirstLine cs = cs.drop (endOfLine cs) := by
  rw [dropFirstLine, splitFirstLine_eq]
  by_cases h : '\n' ∈ cs
  · rw [if_pos h]
  · rw [if_neg h, endOfLine_of_not_mem h, List.drop_length]

theorem dropLastLine_eq (cs : List Char) : dropLastLine cs = cs.take (startOfLine cs) := by
  rw [dropLastLine, splitLastLine_eq]
  by_cases h : '\n' ∈ cs
  · rw [if_pos h]
  · rw [if_neg h, startOfLine_of_not_mem h, List.take_zero]

theorem dropFirstLine_newline {line : List Char} (hline : '\n' ∉ line) (rest : List Char) :
    dropFirstLine (line ++ '\n' :: rest) = rest := by
  rw [dropFirstLine_eq, endOfLine_newline hline, ← List.drop_drop, List.drop_left]
  rfl

theorem dropLastLine_of_not_mem {cs : List Char} (h : '\n' ∉ cs) : dropLastLine cs = [] := by
  rw [dropLastLine_eq, startOfLine_of_not_mem h, List.take_zero]

/-! ## Texts that end with a line -/

theorem lastLine_of_getLast? {line : List Char} (h : line.getLast? = some '\n') :
    lastLine line = [] := by
  obtain ⟨init, rfl⟩ := List.getLast?_eq_some_iff.1 h
  simp [lastLine, firstLine]

/-- The last line of a text depends on the last line of what comes before it only. -/
theorem lastLine_congr {before other : List Char} (h : lastLine before = lastLine other)
    (cs : List Char) : lastLine (before ++ cs) = lastLine (other ++ cs) := by
  by_cases hline : '\n' ∈ cs
  · rw [lastLine_append hline, lastLine_append hline]
  · rw [lastLine_append_of_not_mem hline, lastLine_append_of_not_mem hline, h]

theorem lastLine_append_of_nil {line : List Char} (h : lastLine line = []) (cs : List Char) :
    lastLine (line ++ cs) = lastLine cs :=
  @lastLine_congr line [] h cs

theorem dropFirstLine_append {line : List Char} (h : '\n' ∈ line) (cs : List Char) :
    dropFirstLine (line ++ cs) = dropFirstLine line ++ cs := by
  rw [dropFirstLine_eq, dropFirstLine_eq, endOfLine_append h,
    List.drop_append_of_le_length (endOfLine_le line)]

theorem dropLastLine_append {line : List Char} (h : lastLine line = []) (cs : List Char) :
    dropLastLine (line ++ cs) = line ++ dropLastLine cs := by
  have hle := length_lastLine_le cs
  have hstart : startOfLine (line ++ cs) = line.length + startOfLine cs := by
    rw [startOfLine, startOfLine, lastLine_append_of_nil h, List.length_append]
    omega
  rw [dropLastLine_eq, dropLastLine_eq, hstart, List.take_length_add_append]

/-- The first line of a text that goes on after a newline is cut off before the newline, and the
last line after it. -/
theorem keepText_append {line : List Char} (hmem : '\n' ∈ line) (hend : lastLine line = [])
    (aloneBefore aloneAfter : Bool) (cs : List Char) :
    Token.keepText aloneBefore aloneAfter (line ++ cs) =
      Token.keepText aloneBefore false line ++ Token.keepText false aloneAfter cs := by
  have hfirst := dropFirstLine_append hmem
  have hlast := dropLastLine_append hend cs
  cases aloneBefore with
  | false => cases aloneAfter <;> simp [Token.keepText, hlast]
  | true => cases aloneAfter <;> simp [Token.keepText, hfirst, hlast]

end BraceTemplate
