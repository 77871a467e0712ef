import BraceTemplate.Token

/-! # Lines that hold nothing but a tag

A tag that opens, closes or divides a block, refers to a partial or holds a comment takes its
line with it when it stands alone on it. Which tags stand alone is decided on the texts as
they were written, before anything is taken away from them.
-/

namespace BraceTemplate

/-! ## Blank lines -/

/-- The characters that leave a line blank. -/
def isBlankChar (c : Char) : Bool :=
  c = ' ' || c = '\t' || c = '\r'

/-- Whether a text leaves a line blank. -/
def isBlank (cs : List Char) : Bool :=
  cs.all isBlankChar

/-- The text up to the first newline, and the text after it. -/
def splitFirstLine : List Char → Option (List Char × List Char)
  | [] => none
  | c :: cs =>
    if c = '\n' then some ([], cs)
    else (splitFirstLine cs).map fun (line, rest) => (c :: line, rest)

/-- The text up to and with the last newline, and the text after it. -/
def splitLastLine : List Char → Option (List Char × List Char)
  | [] => none
  | c :: cs =>
    match splitLastLine cs with
    | some (before, line) => some (c :: before, line)
    | none => if c = '\n' then some (['\n'], cs) else none

/-- The first line and the rest make up the text with a newline between them. -/
theorem splitFirstLine_eq_some {cs line rest : List Char}
    (h : splitFirstLine cs = some (line, rest)) : line ++ '\n' :: rest = cs ∧ '\n' ∉ line := by
  induction cs generalizing line with
  | nil => cases h
  | cons c cs ih =>
    rw [splitFirstLine] at h
    split at h
    · next hc => cases h; exact ⟨by rw [hc]; rfl, List.not_mem_nil⟩
    · next hc =>
      obtain ⟨⟨first, after⟩, hsplit, heq⟩ := Option.map_eq_some_iff.1 h
      cases heq
      obtain ⟨happ, hmem⟩ := ih hsplit
      refine ⟨by rw [List.cons_append, happ], ?_⟩
      rw [List.mem_cons]
      rintro (heq | hin)
      · exact hc heq.symm
      · exact hmem hin

/-- A text without a first line has no newline. -/
theorem splitFirstLine_eq_none_iff {cs : List Char} :
    splitFirstLine cs = none ↔ '\n' ∉ cs := by
  induction cs with
  | nil => simp [splitFirstLine]
  | cons c cs ih =>
    rw [splitFirstLine]
    split
    · next hc => simp [hc]
    · next hc => simp [ih, Ne.symm hc]

/-- A text without a last line has no newline. -/
theorem splitLastLine_eq_none_iff {cs : List Char} :
    splitLastLine cs = none ↔ '\n' ∉ cs := by
  induction cs with
  | nil => simp [splitLastLine]
  | cons c cs ih =>
    rw [splitLastLine]
    cases hsplit : splitLastLine cs with
    | some parts =>
      have hin : '\n' ∈ cs := Decidable.of_not_not fun hnot => by simp [ih.2 hnot] at hsplit
      simp [hin]
    | none =>
      have hnot := ih.1 hsplit
      by_cases hc : c = '\n'
      · simp [hc]
      · simp [hc, Ne.symm hc, hnot]

/-- What comes before the last line ends in a newline, and the last line has none. -/
theorem splitLastLine_eq_some {cs before line : List Char}
    (h : splitLastLine cs = some (before, line)) :
    before ++ line = cs ∧ before.getLast? = some '\n' ∧ '\n' ∉ line := by
  induction cs generalizing before with
  | nil => cases h
  | cons c cs ih =>
    rw [splitLastLine] at h
    cases hsplit : splitLastLine cs with
    | some parts =>
      obtain ⟨first, last⟩ := parts
      rw [hsplit] at h
      cases h
      obtain ⟨happ, hlast, hmem⟩ := ih hsplit
      refine ⟨by rw [List.cons_append, happ], ?_, hmem⟩
      cases first with
      | nil => cases hlast
      | cons d first => rw [List.getLast?_cons_cons]; exact hlast
    -- No newline behind this character: it is the last one itself or there is none.
    | none =>
      rw [hsplit] at h
      by_cases hc : c = '\n'
      · subst hc
        cases h
        exact ⟨rfl, rfl, splitLastLine_eq_none_iff.1 hsplit⟩
      · simp [hc] at h

/-- A text without its last line. -/
def dropLastLine (cs : List Char) : List Char :=
  match splitLastLine cs with
  | some (before, _) => before
  | none => []

/-- A text without its first line. -/
def dropFirstLine (cs : List Char) : List Char :=
  match splitFirstLine cs with
  | some (_, rest) => rest
  | none => []

namespace Token

/-! ## Which tags stand alone -/

/-- Whether a tag may take its line with it, given the tokens after its opening braces. -/
def isStrippable : List Token → Bool
  | .piece (.word value sigil) :: _ =>
    match sigil with
    | some .blockOpen | some .blockClose | some .inverted | some .partialCall
    | some .comment => true
    | none => value == "else"
    | _ => false
  | _ => false

/-- The tokens after the next closing braces. -/
def afterTag? : List Token → Option (List Token)
  | [] => none
  | .tagClose :: later => some later
  | _ :: later => afterTag? later

/-- Whether the line is blank up to the end of some tokens, of which the last one comes first. -/
def isBlankBefore : List Token → Bool
  | [] => true
  | .text content :: earlier =>
    match splitLastLine content.toList with
    | some (_, line) => isBlank line
    | none => earlier.isEmpty && isBlank content.toList
  | _ => false

/-- Whether the line goes on blank from the start of some tokens. -/
def isBlankAfter : List Token → Bool
  | [] => true
  | .text content :: later =>
    match splitFirstLine content.toList with
    | some (line, _) => isBlank line
    | none => later.isEmpty && isBlank content.toList
  | _ => false

/-- Whether a tag stands alone on its line, given the tokens before its opening braces, of which
the last one comes first, and the tokens after them. -/
def standsAlone (earlier later : List Token) : Bool :=
  isStrippable later && isBlankBefore earlier && (afterTag? later).any isBlankAfter

/-! ## Taking the lines away -/

/-- Whether some tokens begin with a tag that stands alone, given the tokens before them. -/
def opensAlone (earlier : List Token) : List Token → Bool
  | .tagOpen :: later => standsAlone earlier later
  | _ => false

/-- What is kept of a text, given whether a tag that stands alone comes before and after it. -/
def keepText (aloneBefore aloneAfter : Bool) (cs : List Char) : List Char :=
  let kept := if aloneAfter then dropLastLine cs else cs
  if aloneBefore then dropFirstLine kept else kept

/-- Takes from every text the parts of the lines of tags that stand alone, and leaves out the
texts that become empty. The tokens before are given with the last one first; the flag says
whether the last tag of them stands alone and no text has come after it. -/
def stripFrom (earlier : List Token) (alone : Bool) : List Token → List Token
  | [] => []
  | .text content :: later =>
    let kept := keepText alone (opensAlone (.text content :: earlier) later) content.toList
    let rest := stripFrom (.text content :: earlier) false later
    if kept.isEmpty then rest else .text (String.ofList kept) :: rest
  | .tagOpen :: later =>
    .tagOpen :: stripFrom (.tagOpen :: earlier) (standsAlone earlier later) later
  | token :: later => token :: stripFrom (token :: earlier) alone later

/-- The tokens of a template without the lines of tags that stand alone. -/
def stripLines (tokens : List Token) : List Token :=
  stripFrom [] false tokens

/-! ## Comments -/

/-- The tokens without the tags that hold a comment: the opening braces and the two tokens after
them are left out. -/
def dropComments : List Token → List Token
  | [] => []
  | [.tagOpen, .piece (.word _ (some .comment))] => []
  | .tagOpen :: .piece (.word _ (some .comment)) :: _ :: tokens => dropComments tokens
  | token :: tokens => token :: dropComments tokens

end Token

end BraceTemplate
