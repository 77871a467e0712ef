import BraceTemplate.Token.Scanner

/-! # The tokens of a template

All tokens of a template in order, or the first error. The scanner leaves less text with every
token that it gives, which is why the list of tokens is finite.
-/

namespace BraceTemplate.Scanner

/-! ## Progress -/

@[simp] theorem rest_pass (s : Scanner) (count : Nat) : (s.pass count).rest = s.rest.drop count :=
  rfl

@[simp] theorem rest_passSpace (s : Scanner) : s.passSpace.rest = Text.skipSpace s.rest := by
  rw [passSpace, rest_pass, Text.skipSpace]
  conv => lhs; arg 2; rw [← List.takeWhile_append_dropWhile (p := Text.isWhiteSpace) (l := s.rest)]
  exact List.drop_left

/-- A token is followed by less text than it was asked for with. -/
def Shortens (s : Scanner) (step : Step) : Prop :=
  ∀ token s', step = (.ok (some token), s') → s'.rest.length < s.rest.length

theorem shortens_error (s s' : Scanner) (error : Error) : s.Shortens (.error error, s') := by
  intro _ _ h
  cases h

theorem shortens_givePiece {s t : Scanner} {piece : Piece} {length : Nat}
    (hle : t.rest.length ≤ s.rest.length) (hrest : t.rest ≠ []) (hlength : 0 < length) :
    s.Shortens (t.givePiece piece length) := by
  intro token s' h
  cases h
  have := List.length_pos_iff.2 hrest
  simp only [rest_pass, List.length_drop]
  omega

/-- Outside of a tag a token takes the opening braces, the text before them, or all that is left. -/
theorem shortens_nextInText (s : Scanner) : s.Shortens s.nextInText := by
  intro token s' h
  rw [nextInText] at h
  split at h
  · next hsplit =>
    cases h
    have hlen := (Text.splitAtMarker_eq_some hsplit).2.length_le
    simp only [rest_pass, List.length_drop]
    have := (Text.splitAtMarker_eq_some hsplit).1
    simp only [openBraces, List.length_cons, List.length_nil, List.nil_append] at hlen this
    rw [this] at hlen
    omega
  · next hsplit =>
    cases h
    have := congrArg List.length (Text.splitAtMarker_eq_some hsplit).1
    simp only [List.length_append, List.length_cons] at this
    simp only [rest_pass, List.length_drop]
    omega
  · split at h
    · cases h
    · next hempty =>
      cases h
      have := List.length_pos_iff.2 (mt List.isEmpty_iff.2 hempty)
      simp only [rest_pass, List.length_drop]
      omega

theorem shortens_nextComment {s : Scanner} {mark : Char} {afterMark : List Char}
    (hrest : s.rest = mark :: afterMark) : s.Shortens (s.nextComment afterMark) := by
  rw [nextComment]
  cases commentBody? afterMark with
  | ok body => exact shortens_givePiece (Nat.le_refl _) (by simp [hrest]) (Nat.succ_pos _)
  | error fault => exact shortens_error _ _ _

theorem shortens_nextString {s t : Scanner} (hle : t.rest.length ≤ s.rest.length)
    (hrest : t.rest ≠ []) (quote : Char) (afterQuote : List Char) :
    s.Shortens (t.nextString quote afterQuote) := by
  rw [nextString]
  cases quotedString? quote afterQuote with
  | some value => exact shortens_givePiece hle hrest (Nat.succ_pos _)
  | none => exact shortens_error _ _ _

/-- A word that starts neither with white space nor with closing braces is not empty. -/
theorem wordLength_pos {c : Char} {cs : List Char} (hspace : Text.isWhiteSpace c = false)
    (hclose : closeBraces.isPrefixOf (c :: cs) = false) : 0 < wordLength (c :: cs) := by
  simp [wordLength, hspace, hclose]

theorem wordLength_le (cs : List Char) : wordLength cs ≤ cs.length := by
  induction cs with
  | nil => simp [wordLength]
  | cons c cs ih =>
    simp only [wordLength]
    split
    · simp
    · simpa using ih

theorem shortens_nextWord {s t : Scanner} (hle : t.rest.length ≤ s.rest.length)
    {c : Char} {cs : List Char} (hrest : t.rest = c :: cs)
    (hspace : Text.isWhiteSpace c = false)
    (hclose : closeBraces.isPrefixOf (c :: cs) = false) : s.Shortens t.nextWord := by
  rw [nextWord]
  refine shortens_givePiece hle (by simp [hrest]) ?_
  have hpos := wordLength_pos hspace hclose
  have := wordLength_le (c :: cs)
  simp only [hrest, List.length_take]
  omega

theorem shortens_nextSigil {s t : Scanner} (hle : t.rest.length ≤ s.rest.length)
    (hrest : t.rest ≠ []) (sigil : Sigil) : s.Shortens (t.nextSigil sigil) := by
  rw [nextSigil]
  split
  · exact shortens_error _ _ _
  · intro token s' h
    cases h
    have hpos := List.length_pos_iff.2 hrest
    have hspace := Text.length_skipSpace_le (t.rest.drop 1)
    simp only [rest_pass, rest_passSpace, List.length_drop] at hspace ⊢
    omega

/-- Inside of a tag a piece takes some characters, as white space has been passed before it. -/
theorem shortens_nextPiece {s t : Scanner} (hle : t.rest.length ≤ s.rest.length)
    (hspace : ∀ c cs, t.rest = c :: cs → Text.isWhiteSpace c = false) :
    s.Shortens t.nextPiece := by
  rw [nextPiece]
  split
  · exact shortens_error _ _ _
  · next c cs hrest =>
    split
    · intro token s' h
      cases h
      have hlen : t.rest.length = cs.length + 1 := by simp [hrest]
      simp only [rest_pass, List.length_drop]
      omega
    · next hclose =>
      split
      · exact shortens_nextString hle (by simp [hrest]) _ _
      · split
        · exact shortens_nextSigil hle (by simp [hrest]) _
        · exact shortens_nextWord hle hrest (hspace c cs hrest) (Bool.eq_false_iff.2 hclose)

theorem shortens_nextInTag (s : Scanner) : s.Shortens s.nextInTag := by
  rw [nextInTag]
  split
  · next hrest => exact shortens_nextComment hrest
  · refine shortens_nextPiece ?_ ?_
    · simpa using Text.length_skipSpace_le s.rest
    · intro c cs h
      exact Text.skipSpace_eq_cons (by simpa using h)

/-- Every token that is given leaves less text. -/
theorem shortens_next (s : Scanner) : s.Shortens s.next := by
  rw [next]
  split
  · exact shortens_nextInTag s
  · exact shortens_nextInText s

/-! ## All tokens -/

/-- The tokens of the text that is left, or the first error in it. -/
def tokens (s : Scanner) : Except Error (List Token) :=
  match _h : s.next with
  | (.ok none, _) => .ok []
  | (.ok (some token), s') => s'.tokens.map (token :: ·)
  | (.error error, _) => .error error
termination_by s.rest.length
decreasing_by exact shortens_next s _ _ _h

end Scanner

/-- The tokens of a template, or the first error in it. -/
def tokenize (template : String) : Except Error (List Token) :=
  (Scanner.start template).tokens

end BraceTemplate
