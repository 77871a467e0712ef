import BraceTemplate.Proofs.Scanning.Bytes

/-!
# Scanning by bytes

A `Cursor` scans like a `Scanner`, but it keeps the template and the number of bytes before its place
in it, and reckons in bytes. Every slice of the template that it takes is checked, and without the
slice there is no answer. `follows_next` says that from the same place a cursor gives the answer of
the scanner and comes to the same place, so that no slice is ever missing.
-/

namespace BraceTemplate

open String (utf8Len)

/-- A place in a template by bytes, and what is known about the tag around it. -/
structure Cursor where
  /-- The number of bytes before the place. -/
  offset : Nat
  /-- Whether the place is inside a tag. -/
  inTag : Bool
  /-- The number of bytes before the braces that opened the last tag. -/
  tagStart : Nat
  /-- Whether the tag has given no piece yet. -/
  atHead : Bool
  deriving Repr, DecidableEq, Inhabited

namespace Cursor

open Scanner (openBraces closeBraces longCommentEnd headSigil? pathSigil unescape)

/-- The answer to a call, and the cursor to call next. -/
abbrev Call := Except Error (Option Token) × Cursor

def start : Cursor := ⟨0, false, 0, false⟩

def advance (c : Cursor) (bytes : Nat) : Cursor := { c with offset := c.offset + bytes }

/-- The text from the cursor on. -/
def remaining? (template : List Char) (c : Cursor) : Option (List Char) :=
  Text.dropBytes? c.offset template

def skipSpace? (template : List Char) (c : Cursor) : Option Cursor := do
  let rest ← c.remaining? template
  some (c.advance (utf8Len rest - utf8Len (Text.skipSpace rest)))

/-- Gives a piece of the given number of bytes. -/
def givePiece (c : Cursor) (piece : Piece) (bytes : Nat) : Call :=
  (.ok (some (.piece piece)), c.advance bytes)

/-- The error that the last tag has the given fault. -/
def fault? (template : List Char) (c : Cursor) (fault : LexFault) : Option Call := do
  let position ← Text.lineAndColumn? c.tagStart template
  some (.error (.lex position fault), c)

/-! ## The parts of a tag -/

/-- The number of bytes before the end of the word that a text begins with. -/
def wordEnd? (rest : List Char) : List (Nat × Char) → Option Nat
  | [] => some (utf8Len rest)
  | (index, char) :: more =>
    if Text.isWhiteSpace char then some index
    else do
      let left ← Text.dropBytes? index rest
      if closeBraces.isPrefixOf left then some index else wordEnd? rest more

def readWord? (template : List Char) (c : Cursor) : Option (List Char × Cursor) := do
  let rest ← c.remaining? template
  let last ← wordEnd? rest (Text.charIndices 0 rest)
  let word ← Text.takeBytes? last rest
  some (word, c.advance last)

/-- The value of a string from its first character on, and the number of bytes up to the end of its
closing quote. -/
def quotedString? (quote : Char) : List (Nat × Char) → Option (List Char × Nat)
  | [] => none
  | (index, char) :: more =>
    if char = quote then
      some ([], index + char.utf8Size)
    else if char = '\\' then
      match more with
      | [] => none
      | (_, escaped) :: more =>
        (quotedString? quote more).map fun (value, last) => (unescape escaped :: value, last)
    else
      (quotedString? quote more).map fun (value, last) => (char :: value, last)

/-- The comment that stands right after the braces of a tag. -/
def comment? (template : List Char) (c : Cursor) : Option Call := do
  let c := { c with atHead := false }
  let rest ← c.remaining? template
  if "!--".toList.isPrefixOf rest then
    let long := rest.drop 3
    match Text.findMarker? longCommentEnd long with
    | some last => do
      let body ← Text.takeBytes? last long
      some (c.givePiece (.word (String.ofList (Text.trim body)) (some .comment)) (3 + last + 2))
    | none => c.fault? template .unterminatedComment
  else
    match Text.findMarker? closeBraces rest with
    | some last => do
      let body ← Text.slice? 1 last rest
      some (c.givePiece (.word (String.ofList (Text.trim body)) (some .comment)) last)
    | none => c.fault? template .unterminatedExpression

/-- The string in quotes that the text begins with. -/
def string? (template : List Char) (c : Cursor) (quote : Char) : Option Call := do
  let c := { c with atHead := false }
  let rest ← c.remaining? template
  match quotedString? quote ((Text.charIndices 0 rest).drop 1) with
  | some (value, last) => some (c.givePiece (.quoted (String.ofList value)) last)
  | none => c.fault? template .unterminatedString

/-- The word that the text begins with. -/
def word? (template : List Char) (c : Cursor) : Option Call := do
  let (word, c) ← { c with atHead := false }.readWord? template
  some (.ok (some (.piece (.word (String.ofList word) (pathSigil word)))), c)

/-- The word after a sigil at the head of a tag. -/
def sigil? (template : List Char) (c : Cursor) (sigil : Sigil) : Option Call := do
  let c ← ({ c with atHead := false }.advance 1).skipSpace? template
  let rest ← c.remaining? template
  if rest.isEmpty then
    c.fault? template .unterminatedExpression
  else if closeBraces.isPrefixOf rest then
    some (c.givePiece (.word "" (some sigil)) 0)
  else do
    let (word, c) ← c.readWord? template
    some (.ok (some (.piece (.word (String.ofList word) (some sigil)))), c)

/-! ## The next token -/

/-- The next token outside of a tag. -/
def nextInText? (template : List Char) (c : Cursor) : Option Call := do
  let rest ← c.remaining? template
  if rest.isEmpty then
    some (.ok none, c)
  else
    match Text.findMarker? openBraces rest with
    | some 0 =>
      some (.ok (some .tagOpen),
        { c.advance 2 with inTag := true, tagStart := c.offset, atHead := true })
    | some index => do
      let content ← Text.takeBytes? index rest
      some (.ok (some (.text (String.ofList content))), c.advance index)
    | none => some (.ok (some (.text (String.ofList rest))), c.advance (utf8Len rest))

/-- The next token inside a tag, from the first character that is no white space. -/
def nextPiece? (template : List Char) (c : Cursor) : Option Call := do
  let rest ← c.remaining? template
  match rest with
  | [] => c.fault? template .unterminatedExpression
  | first :: _ =>
    if closeBraces.isPrefixOf rest then
      some (.ok (some .tagClose), { c.advance 2 with inTag := false })
    else if first = '"' ∨ first = '\'' then
      c.string? template first
    else
      match c.atHead, headSigil? first with
      | true, some sigil => c.sigil? template sigil
      | _, _ => c.word? template

/-- The next token inside a tag. -/
def nextInTag? (template : List Char) (c : Cursor) : Option Call := do
  let rest ← c.remaining? template
  if c.atHead && ['!'].isPrefixOf rest then
    c.comment? template
  else do
    let c ← c.skipSpace? template
    c.nextPiece? template

/-- The next token, if all slices that are taken for it are there. -/
def next? (template : List Char) (c : Cursor) : Option Call :=
  if c.inTag then c.nextInTag? template else c.nextInText? template

/-! ## The same place -/

/-- A cursor and a scanner are at the same place of a template, and know the same about the tag. -/
structure Tracks (template : List Char) (c : Cursor) (s : Scanner) : Prop where
  inTag : c.inTag = s.inTag
  atHead : c.atHead = s.atHead
  place : ∃ passed, template = passed ++ s.rest ∧ utf8Len passed = c.offset ∧
    Position.start.advance passed = s.position
  opening : ∃ before left, template = before ++ left ∧ utf8Len before = c.tagStart ∧
    Position.start.advance before = s.tagStart

/-- A call is answered like the scanner answers, and comes to the same place. -/
def Follows (template : List Char) (call : Option Call) (step : Scanner.Step) : Prop :=
  ∃ c', call = some (step.1, c') ∧ Tracks template c' step.2

variable {template : List Char} {c : Cursor} {s : Scanner}

theorem tracks_start (template : String) : Tracks template.toList start (.start template) where
  inTag := rfl
  atHead := rfl
  place := ⟨[], rfl, rfl, rfl⟩
  opening := ⟨[], template.toList, rfl, rfl, rfl⟩

namespace Tracks

theorem remaining? (h : Tracks template c s) : c.remaining? template = some s.rest := by
  obtain ⟨passed, rfl, hbytes, -⟩ := h.place
  rw [Cursor.remaining?, ← hbytes, Text.dropBytes?_append]

theorem head (h : Tracks template c s) :
    Tracks template { c with atHead := false } { s with atHead := false } :=
  { h with atHead := rfl }

/-- Both go on by the same characters. -/
theorem pass (h : Tracks template c s) {count bytes : Nat}
    (hbytes : utf8Len (s.rest.take count) = bytes) :
    Tracks template (c.advance bytes) (s.pass count) := by
  obtain ⟨passed, htemplate, hoffset, hposition⟩ := h.place
  refine { h with place := ⟨passed ++ s.rest.take count, ?_, ?_, ?_⟩ }
  · rw [Scanner.rest_pass, List.append_assoc, List.take_append_drop]
    exact htemplate
  · rw [String.utf8Len_append, hoffset, hbytes]
    rfl
  · rw [Position.advance_append, hposition]
    rfl

theorem skipSpace? (h : Tracks template c s) :
    ∃ c', c.skipSpace? template = some c' ∧ Tracks template c' s.passSpace := by
  rw [Cursor.skipSpace?, h.remaining?]
  refine ⟨_, rfl, h.pass ?_⟩
  have hsplit : s.rest.takeWhile Text.isWhiteSpace ++ Text.skipSpace s.rest = s.rest :=
    List.takeWhile_append_dropWhile
  have hlen := congrArg utf8Len hsplit
  rw [String.utf8Len_append] at hlen
  rw [← List.prefix_iff_eq_take.1 (List.takeWhile_prefix Text.isWhiteSpace)]
  omega

theorem fault? (h : Tracks template c s) (fault : LexFault) :
    Follows template (c.fault? template fault) (.error (s.fault fault), s) := by
  obtain ⟨before, left, rfl, hbytes, hposition⟩ := h.opening
  refine ⟨c, ?_, h⟩
  rw [Cursor.fault?, ← hbytes, Text.lineAndColumn?_append, hposition]
  rfl

theorem givePiece (h : Tracks template c s) (piece : Piece) {count bytes : Nat}
    (hbytes : utf8Len (s.rest.take count) = bytes) :
    Follows template (some (c.givePiece piece bytes)) (s.givePiece piece count) :=
  ⟨_, rfl, h.pass hbytes⟩

end Tracks

/-! ## Words -/

/-- The cursor finds the end of a word by its bytes where the scanner counts its characters. -/
theorem wordEnd?_charIndices (before left : List Char) :
    wordEnd? (before ++ left) (Text.charIndices (utf8Len before) left) =
      some (utf8Len before + utf8Len (left.take (Scanner.wordLength left))) := by
  -- The word goes on as long as no character ends it, so the induction moves these to the front.
  induction left generalizing before with
  | nil =>
    rw [Text.charIndices, wordEnd?, String.utf8Len_append]
    rfl
  | cons c left ih =>
    have hstep := ih (before ++ [c])
    have hmore : utf8Len (before ++ [c]) = utf8Len before + c.utf8Size := by
      rw [String.utf8Len_append, String.utf8Len_cons, String.utf8Len_nil, Nat.zero_add]
    rw [List.append_assoc, List.singleton_append, hmore] at hstep
    rw [Text.charIndices, wordEnd?, Text.dropBytes?_append, hstep, Scanner.wordLength]
    simp only [Option.bind_eq_bind, Option.bind_some, Bool.or_eq_true]
    by_cases hspace : Text.isWhiteSpace c = true
    · rw [if_pos hspace, if_pos (.inl hspace)]
      rfl
    · rw [if_neg hspace]
      by_cases hclose : closeBraces.isPrefixOf (c :: left) = true
      · rw [if_pos hclose, if_pos (.inr hclose)]
        rfl
      · rw [if_neg hclose, if_neg (not_or.2 ⟨hspace, hclose⟩), List.take_succ_cons,
          String.utf8Len_cons]
        exact congrArg some (by omega)

theorem takeBytes?_take (count : Nat) (cs : List Char) :
    Text.takeBytes? (utf8Len (cs.take count)) cs = some (cs.take count) := by
  have hsplit := Text.takeBytes?_append (cs.take count) (cs.drop count)
  rwa [List.take_append_drop] at hsplit

theorem Tracks.readWord? (h : Tracks template c s) : c.readWord? template =
    some (s.rest.take (Scanner.wordLength s.rest),
      c.advance (utf8Len (s.rest.take (Scanner.wordLength s.rest)))) := by
  have hlast : wordEnd? s.rest (Text.charIndices 0 s.rest) =
      some (utf8Len (s.rest.take (Scanner.wordLength s.rest))) := by
    have hword := wordEnd?_charIndices [] s.rest
    rwa [List.nil_append, String.utf8Len_nil, Nat.zero_add] at hword
  rw [Cursor.readWord?, h.remaining?]
  simp only [Option.bind_eq_bind, Option.bind_some, hlast, takeBytes?_take]

theorem take_length_word (cs : List Char) :
    cs.take (cs.take (Scanner.wordLength cs)).length = cs.take (Scanner.wordLength cs) := by
  rw [List.length_take, Nat.min_eq_left (Scanner.wordLength_le cs)]

theorem follows_word (h : Tracks template c s) : Follows template (c.word? template) s.nextWord := by
  rw [word?, h.head.readWord?, Scanner.nextWord]
  exact h.head.givePiece _ (congrArg utf8Len (take_length_word s.rest))

/-- Before closing braces a word is empty. -/
theorem wordLength_closeBraces {cs : List Char} (h : closeBraces.isPrefixOf cs = true) :
    Scanner.wordLength cs = 0 := by
  cases cs with
  | nil => rfl
  | cons c cs => rw [Scanner.wordLength, if_pos (by rw [h, Bool.or_true])]

theorem utf8Size_of_headSigil? {first : Char} {sigil : Sigil}
    (h : headSigil? first = some sigil) : first.utf8Size = 1 := by
  unfold headSigil? at h
  split at h
  · rfl
  · rfl
  · rfl
  · rfl
  · cases h

/-- The cursor follows the scanner over a sigil and the word behind it. -/
theorem follows_sigil (h : Tracks template c s) (sigil : Sigil)
    (hfirst : utf8Len (s.rest.take 1) = 1) :
    Follows template (c.sigil? template sigil) (s.nextSigil sigil) := by
  obtain ⟨c', hskip, htracks⟩ := (h.head.pass hfirst).skipSpace?
  rw [sigil?, hskip]
  have hnext : s.nextSigil sigil = (fun t : Scanner =>
      if t.rest.isEmpty then (.error (t.fault .unterminatedExpression), t)
      else t.givePiece
        (.word (String.ofList (t.rest.take (Scanner.wordLength t.rest))) (some sigil))
        (t.rest.take (Scanner.wordLength t.rest)).length)
      ({ s with atHead := false }.pass 1).passSpace := rfl
  rw [hnext]
  -- Both stand behind the blank now; it does not matter how they got there.
  generalize ({ s with atHead := false }.pass 1).passSpace = t at htracks
  simp only [Option.bind_eq_bind, Option.bind_some, htracks.remaining?, htracks.readWord?]
  split
  · exact htracks.fault? .unterminatedExpression
  · split
    · next hclose =>
      rw [wordLength_closeBraces hclose, List.take_zero]
      exact htracks.givePiece _ rfl
    · exact htracks.givePiece _ (congrArg utf8Len (take_length_word t.rest))

/-! ## Strings and comments -/

/-- The cursor reads a quoted string off its places, up to where the scanner's length leads. -/
theorem quotedString?_charIndices (quote : Char) (start : Nat) (cs : List Char) :
    quotedString? quote (Text.charIndices start cs) =
      (Scanner.quotedString? quote cs).map fun (value, length) =>
        (value, start + utf8Len (cs.take length)) := by
  -- The recursion of the scanner takes an escaped character with its backslash, as the cursor does.
  induction cs using Scanner.quotedString?.induct quote generalizing start with
  | case1 => rfl
  | case2 cs =>
    rw [Text.charIndices, quotedString?.eq_def, Scanner.quotedString?_quote]
    simp only [if_true, Option.map_some, List.take_succ_cons, List.take_zero, String.utf8Len_cons,
      String.utf8Len_nil, Nat.zero_add]
  | case3 hquote =>
    rw [Text.charIndices, quotedString?.eq_def, Scanner.quotedString?_slash hquote]
    simp only [hquote, if_false, if_true, Text.charIndices, Option.map_none]
  | case4 escaped cs hquote ih =>
    rw [Text.charIndices, quotedString?.eq_def, Scanner.quotedString?_escape hquote]
    simp only [hquote, if_false, if_true, Text.charIndices, ih, Option.map_map]
    congr 1
    funext parts
    simp only [Function.comp_apply, List.take_succ_cons, String.utf8Len_cons, Prod.mk.injEq,
      true_and]
    omega
  | case5 c cs hquote hslash ih =>
    rw [Text.charIndices, quotedString?.eq_def, Scanner.quotedString?_char hquote hslash]
    simp only [hquote, hslash, if_false, ih, Option.map_map]
    congr 1
    funext parts
    simp only [Function.comp_apply, List.take_succ_cons, String.utf8Len_cons, Prod.mk.injEq,
      true_and]
    omega

/-- The cursor follows the scanner over a quoted string. -/
theorem follows_string (h : Tracks template c s) {quote : Char} {cs : List Char}
    (hrest : s.rest = quote :: cs) (hquote : quote = '"' ∨ quote = '\'') :
    Follows template (c.string? template quote) (s.nextString quote cs) := by
  have hsize : quote.utf8Size = 1 := by
    rcases hquote with rfl | rfl <;> rfl
  have hcursor : quotedString? quote ((Text.charIndices 0 s.rest).drop 1) =
      (Scanner.quotedString? quote cs).map fun (value, length) =>
        (value, utf8Len (s.rest.take (length + 1))) := by
    rw [hrest, Text.charIndices, List.drop_one, List.tail_cons, quotedString?_charIndices]
    congr 1
    funext ⟨value, length⟩
    dsimp only
    rw [List.take_succ_cons, String.utf8Len_cons, hsize, Nat.zero_add, Nat.add_comm]
  rw [string?, h.head.remaining?]
  simp only [Option.bind_eq_bind, Option.bind_some, hcursor, Scanner.nextString]
  cases Scanner.quotedString? quote cs with
  | none => exact h.head.fault? .unterminatedString
  | some parts => exact h.head.givePiece _ rfl

theorem findMarker?_mark (cs : List Char) : Text.findMarker? closeBraces ('!' :: cs) =
    (Text.splitAtMarker closeBraces cs).map fun cut => utf8Len cut.1 + 1 := by
  rw [Text.findMarker?, if_neg (by simp [closeBraces]), Text.findMarker?_eq, Option.map_map]
  rfl

/-- A comment without dashes goes on to the closing braces. -/
theorem commentBody?_of_not_long {cs : List Char}
    (h : ¬ "!--".toList.isPrefixOf ('!' :: cs) = true) :
    Scanner.commentBody? cs = (Text.splitAtMarker closeBraces cs).elim
      (.error .unterminatedExpression) fun cut => .ok (cut.1, cut.1.length) := by
  rw [Scanner.commentBody?.eq_def]
  split
  · next body => exact absurd (List.isPrefixOf_iff_prefix.2 ⟨body, rfl⟩) h
  · cases Text.splitAtMarker closeBraces cs <;> rfl

/-- The cursor follows the scanner over a comment of either form. -/
theorem follows_comment (h : Tracks template c s) {cs : List Char} (hrest : s.rest = '!' :: cs) :
    Follows template (c.comment? template) (s.nextComment cs) := by
  rw [comment?, h.head.remaining?]
  simp only [Option.bind_eq_bind, Option.bind_some, hrest]
  by_cases hlong : "!--".toList.isPrefixOf ('!' :: cs) = true
  · obtain ⟨body, rfl⟩ : ∃ body, cs = '-' :: '-' :: body := by
      obtain ⟨body, hbody⟩ := List.isPrefixOf_iff_prefix.1 hlong
      exact ⟨body, (List.cons.inj hbody).2.symm⟩
    rw [if_pos hlong, List.drop_succ_cons, List.drop_succ_cons, List.drop_succ_cons, List.drop_zero,
      Text.findMarker?_eq, Scanner.nextComment, Scanner.commentBody?]
    cases hsplit : Text.splitAtMarker longCommentEnd body with
    | none => exact h.head.fault? .unterminatedComment
    | some cut =>
      obtain ⟨before, left⟩ := cut
      obtain ⟨rfl, after, rfl⟩ := Text.splitAtMarker_eq_some hsplit
      simp only [Option.map_some, Text.takeBytes?_append, Option.bind_some]
      refine h.head.givePiece _ ?_
      have htake : (before ++ (longCommentEnd ++ after)).take (before.length + 2) =
          before ++ ['-', '-'] := List.take_length_add_append 2
      rw [hrest, List.take_succ_cons, List.take_succ_cons, List.take_succ_cons, htake]
      simp only [String.utf8Len_cons, String.utf8Len_append, String.utf8Len_nil]
      show utf8Len before + (0 + 1 + 1) + 1 + 1 + 1 = 3 + utf8Len before + 2
      omega
  · rw [if_neg hlong, findMarker?_mark, Scanner.nextComment, commentBody?_of_not_long hlong]
    cases hsplit : Text.splitAtMarker closeBraces cs with
    | none => exact h.head.fault? .unterminatedExpression
    | some cut =>
      obtain ⟨before, left⟩ := cut
      obtain ⟨rfl, -⟩ := Text.splitAtMarker_eq_some hsplit
      have hslice : Text.slice? 1 (utf8Len before + 1) ('!' :: (before ++ left)) = some before := by
        rw [Nat.add_comm]
        exact Text.slice?_append ['!'] before left
      simp only [Option.map_some, hslice, Option.bind_some]
      refine h.head.givePiece _ ?_
      rw [hrest, List.take_succ_cons, List.take_left, String.utf8Len_cons]
      rfl

/-! ## The next token -/

/-- Opening braces begin a tag at the place before them. -/
theorem Tracks.openTag (h : Tracks template c s) {after : List Char}
    (hrest : s.rest = openBraces ++ after) :
    Tracks template { c.advance 2 with inTag := true, tagStart := c.offset, atHead := true }
      { s.pass 2 with inTag := true, tagStart := s.position, atHead := true } := by
  have hbytes : utf8Len (s.rest.take 2) = 2 := by
    rw [hrest]
    rfl
  obtain ⟨passed, htemplate, hoffset, hposition⟩ := h.place
  exact ⟨rfl, rfl, (h.pass hbytes).place, passed, s.rest, htemplate, hoffset, hposition⟩

/-- The cursor follows the scanner outside of a tag: to the next tag, into it, or to the end. -/
theorem follows_nextInText (h : Tracks template c s) :
    Follows template (c.nextInText? template) s.nextInText := by
  rw [nextInText?, h.remaining?, Scanner.nextInText]
  simp only [Option.bind_eq_bind, Option.bind_some, Text.findMarker?_eq]
  cases hsplit : Text.splitAtMarker openBraces s.rest with
  | none =>
    dsimp only [Option.map_none]
    split
    · exact ⟨c, rfl, h⟩
    · exact ⟨_, rfl, h.pass (by rw [List.take_length])⟩
  | some cut =>
    obtain ⟨before, left⟩ := cut
    obtain ⟨hrest, after, rfl⟩ := Text.splitAtMarker_eq_some hsplit
    have hne : ¬ s.rest.isEmpty = true := by
      rw [← hrest, List.isEmpty_iff, List.append_eq_nil_iff]
      exact fun hnil => List.cons_ne_nil _ _ hnil.2
    rw [if_neg hne, Option.map_some]
    cases before with
    | nil => exact ⟨_, rfl, h.openTag hrest.symm⟩
    -- The marker is not in front, so that the text before it has some bytes.
    | cons first before =>
      obtain ⟨bytes, hbytes⟩ : ∃ bytes, utf8Len (first :: before) = bytes + 1 :=
        Nat.exists_eq_add_one.2 (Nat.add_pos_right _ first.utf8Size_pos)
      have htake : Text.takeBytes? (bytes + 1) s.rest = some (first :: before) := by
        rw [← hbytes, ← hrest, Text.takeBytes?_append]
      dsimp only
      rw [hbytes]
      simp only [htake, Option.bind_some]
      refine ⟨_, rfl, h.pass ?_⟩
      rw [← hrest, ← hbytes, List.cons_append, List.take_succ_cons, List.take_left]

/-- The cursor follows the scanner to the next piece of a tag, or to the end of the tag. -/
theorem follows_nextPiece (h : Tracks template c s) :
    Follows template (c.nextPiece? template) s.nextPiece := by
  rw [nextPiece?, h.remaining?, Scanner.nextPiece]
  simp only [Option.bind_eq_bind, Option.bind_some]
  cases hrest : s.rest with
  | nil => exact h.fault? .unterminatedExpression
  | cons first cs =>
    dsimp only
    split
    · next hclose =>
      obtain ⟨after, hafter⟩ := List.isPrefixOf_iff_prefix.1 hclose
      -- Braces are single bytes, so that two bytes are two characters.
      have hbytes : utf8Len (s.rest.take 2) = 2 := by
        rw [hrest, ← hafter]
        rfl
      exact ⟨_, rfl, { h.pass hbytes with inTag := rfl }⟩
    · split
      · next hquote => exact follows_string h hrest hquote
      · rw [h.atHead]
        cases hsigil : headSigil? first with
        | none => cases s.atHead <;> exact follows_word h
        | some sigil =>
          cases s.atHead with
          | false => exact follows_word h
          | true =>
            refine follows_sigil h sigil ?_
            rw [hrest, List.take_succ_cons, List.take_zero, String.utf8Len_cons,
              utf8Size_of_headSigil? hsigil]
            rfl

/-- The cursor follows the scanner inside of a tag. -/
theorem follows_nextInTag (h : Tracks template c s) :
    Follows template (c.nextInTag? template) s.nextInTag := by
  rw [nextInTag?, h.remaining?, h.atHead]
  simp only [Option.bind_eq_bind, Option.bind_some, Bool.and_eq_true]
  split
  -- An exclamation mark is a comment in front only, before any blank is passed.
  · next hmark =>
    obtain ⟨hhead, hmark⟩ := hmark
    obtain ⟨cs, hcs⟩ := List.isPrefixOf_iff_prefix.1 hmark
    have hnext : s.nextInTag = s.nextComment cs := by
      rw [Scanner.nextInTag, hhead, ← hcs]
      rfl
    rw [hnext]
    exact follows_comment h hcs.symm
  · next hmark =>
    have hnext : s.nextInTag = s.passSpace.nextPiece := by
      refine Scanner.nextInTag_eq fun hhead cs hrest => hmark ⟨hhead, ?_⟩
      rw [hrest]
      rfl
    obtain ⟨c', hskip, htracks⟩ := h.skipSpace?
    rw [hnext, hskip]
    exact follows_nextPiece htracks

/-- A cursor answers like the scanner at the same place, and all slices that it takes are there. -/
theorem follows_next (h : Tracks template c s) : Follows template (c.next? template) s.next := by
  rw [next?, Scanner.next, h.inTag]
  split
  · exact follows_nextInTag h
  · exact follows_nextInText h

end Cursor

end BraceTemplate
