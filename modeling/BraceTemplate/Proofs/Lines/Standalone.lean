import BraceTemplate.Proofs.Lines.Ends
import BraceTemplate.Proofs.Scanning.Layout
import BraceTemplate.Proofs.Segment

/-!
# Tags that stand alone, by the characters of the template

The pass over the tokens decides from the tokens next to a tag whether the tag stands alone.
`stripFrom_eq` shows that it decides as the characters of the template do: a tag stands alone if
its line is blank before its opening braces and after its closing braces.
-/

namespace BraceTemplate

open Scanner (openBraces closeBraces TagText tagTokens)

/-- Whether a tag stands alone on its line, given all characters before and after it. -/
def standsAlone (before : List Char) (pieces : List Piece) (after : List Char) : Bool :=
  Token.isStrippable (pieces.map .piece) && isBlank (lastLine before) && isBlank (firstLine after)

/-- Whether some parts begin with a tag that stands alone, given all characters before them. -/
def opensAlone (before : List Char) : List Part → Bool
  | .tag _ pieces :: parts => standsAlone before pieces (parts.flatMap Part.source)
  | _ => false

/-- The texts and tags of a template without the lines of the tags that stand alone. The characters
before are given; the flag says whether a tag that stands alone comes right before. -/
def strip (before : List Char) (alone : Bool) : List Part → List (Segment String (List Piece))
  | [] => []
  | .text content :: parts =>
    let kept := Token.keepText alone (opensAlone (before ++ content) parts) content
    let rest := strip (before ++ content) false parts
    if kept.isEmpty then rest else .outside (String.ofList kept) :: rest
  | .tag body pieces :: parts =>
    .tag pieces :: strip (before ++ openBraces ++ body)
      (standsAlone before pieces (parts.flatMap Part.source)) parts

/-! ## Blank lines next to a tag -/

theorem isBlank_append (first second : List Char) :
    isBlank (first ++ second) = (isBlank first && isBlank second) :=
  List.all_append

theorem closeBraces_suffix_tagText {atHead : Bool} {body : List Char} {pieces : List Piece}
    (h : TagText atHead body pieces) : closeBraces <:+ body := by
  induction h with
  | close hspace => exact List.suffix_append _ _
  | piece hpiece htag ih => exact ih.trans (List.suffix_append _ _)

/-- The end of a tag is not blank. -/
theorem isBlank_lastLine_tag {body : List Char} {pieces : List Piece} (h : TagText true body pieces)
    (before : List Char) : isBlank (lastLine (before ++ body)) = false := by
  obtain ⟨init, rfl⟩ := closeBraces_suffix_tagText h
  rw [← List.append_assoc, lastLine_append_of_not_mem (by decide), isBlank_append]
  exact Bool.and_false _

/-- The start of a tag is not blank. -/
theorem isBlank_firstLine_tag (after : List Char) :
    isBlank (firstLine (openBraces ++ after)) = false := rfl

/-- Whether some tokens go on with a blank line is seen from their characters. -/
theorem isBlankAfter_eq {parts : List Part} (h : Layout parts) :
    Token.isBlankAfter (parts.flatMap Part.tokens) =
      isBlank (firstLine (parts.flatMap Part.source)) := by
  cases h with
  | nil => rfl
  | tag => rfl
  | @lastText content =>
    rw [List.flatMap_singleton, List.flatMap_singleton, Part.tokens, Part.source,
      Token.isBlankAfter, String.toList_ofList, splitFirstLine_eq]
    by_cases hline : '\n' ∈ content
    · rw [if_pos hline]
    · rw [if_neg hline, firstLine_eq_self hline]
      rfl
  | @text content body pieces parts =>
    -- A text without a newline leads up to a tag, so that its line is not blank to the end.
    have htokens : (Part.text content :: .tag body pieces :: parts).flatMap Part.tokens =
        .text (String.ofList content) :: (Part.tag body pieces :: parts).flatMap Part.tokens := rfl
    have hsource : (Part.text content :: .tag body pieces :: parts).flatMap Part.source =
        content ++ (openBraces ++ body ++ parts.flatMap Part.source) := rfl
    rw [htokens, hsource, Token.isBlankAfter, String.toList_ofList, splitFirstLine_eq]
    by_cases hline : '\n' ∈ content
    · rw [if_pos hline, firstLine_append hline]
    · rw [if_neg hline, firstLine_append_of_not_mem hline, isBlank_append, List.append_assoc,
        isBlank_firstLine_tag, Bool.and_false]
      rfl

/-! ## The pass over the tokens -/

theorem isStrippable_tagTokens (pieces : List Piece) (later : List Token) :
    Token.isStrippable (tagTokens pieces later) = Token.isStrippable (pieces.map .piece) := by
  cases pieces with
  | nil => rfl
  | cons piece pieces => cases piece <;> rfl

theorem afterTag?_tagTokens (pieces : List Piece) (later : List Token) :
    Token.afterTag? (tagTokens pieces later) = some later := by
  induction pieces with
  | nil => rfl
  | cons piece pieces ih => exact ih

theorem stripFrom_tagTokens (earlier : List Token) (alone : Bool) (pieces : List Piece)
    (later : List Token) :
    Token.stripFrom earlier alone (tagTokens pieces later) =
      tagTokens pieces
        (Token.stripFrom (.tagClose :: ((pieces.map .piece).reverse ++ earlier)) alone later) := by
  induction pieces generalizing earlier with
  | nil => rfl
  | cons piece pieces ih =>
    have hrest := ih (.piece piece :: earlier)
    rw [List.map_cons, List.reverse_cons, List.append_assoc, List.singleton_append]
    exact congrArg (Token.piece piece :: ·) hrest

theorem standsAlone_tagTokens {earlier : List Token} {before : List Char} {pieces : List Piece}
    {parts : List Part} (hbefore : Token.isBlankBefore earlier = isBlank (lastLine before))
    (h : Layout parts) :
    Token.standsAlone earlier (tagTokens pieces (parts.flatMap Part.tokens)) =
      standsAlone before pieces (parts.flatMap Part.source) := by
  rw [Token.standsAlone, isStrippable_tagTokens, afterTag?_tagTokens, Option.any_some, hbefore,
    isBlankAfter_eq h, standsAlone]

theorem opensAlone_tokens {earlier : List Token} {before : List Char} {parts : List Part}
    (hbefore : Token.isBlankBefore earlier = isBlank (lastLine before)) (h : Layout parts) :
    Token.opensAlone earlier (parts.flatMap Part.tokens) = opensAlone before parts := by
  cases h with
  | nil => rfl
  | lastText => rfl
  | text => rfl
  | @tag body pieces parts hbody h =>
    rw [List.flatMap_cons, Part.tokens, List.cons_append, Scanner.tagTokens_append]
    exact standsAlone_tagTokens hbefore h

/-- Whether the line is blank after a text, if none comes before it but at the start. -/
theorem isBlankBefore_text {earlier : List Token} {before : List Char} (content : List Char)
    (hstart : earlier.isEmpty = isBlank (lastLine before)) :
    Token.isBlankBefore (.text (String.ofList content) :: earlier) =
      isBlank (lastLine (before ++ content)) := by
  rw [Token.isBlankBefore, String.toList_ofList, splitLastLine_eq]
  by_cases hline : '\n' ∈ content
  · rw [if_pos hline, lastLine_append hline]
  · rw [if_neg hline, lastLine_append_of_not_mem hline, isBlank_append, hstart]

/-- The pass over the tokens takes away the lines of the tags that stand alone by the characters. -/
theorem stripFrom_eq {parts : List Part} (h : Layout parts) {earlier : List Token}
    {before : List Char} (alone : Bool)
    (hbefore : Token.isBlankBefore earlier = isBlank (lastLine before))
    (hstart : ∀ content rest, parts = .text content :: rest →
      earlier.isEmpty = isBlank (lastLine before)) :
    Token.stripFrom earlier alone (parts.flatMap Part.tokens) =
      (strip before alone parts).flatMap Segment.toTokens := by
  -- After a tag the two hypotheses on what comes before hold again: its closing braces end both the
  -- tokens and the characters, and they are not blank.
  induction parts generalizing earlier before alone with
  | nil => rfl
  | cons part parts ih =>
    have hparts := h.tail
    cases part with
    | text content =>
      have hblank := isBlankBefore_text content (hstart content parts rfl)
      have hnext : ∀ next rest, parts = .text next :: rest →
          (Token.text (String.ofList content) :: earlier).isEmpty =
            isBlank (lastLine (before ++ content)) := by
        rintro next rest rfl
        cases h
      have hrest := ih hparts false hblank hnext
      rw [List.flatMap_cons, Part.tokens, List.singleton_append, Token.stripFrom,
        opensAlone_tokens hblank hparts, hrest, String.toList_ofList, strip]
      split
      · rfl
      · rfl
    | tag body pieces =>
      cases h with
      | tag hbody =>
        have hend := isBlank_lastLine_tag hbody (before ++ openBraces)
        have hrest := @ih hparts
          (.tagClose :: ((pieces.map .piece).reverse ++ .tagOpen :: earlier)) _
          (standsAlone before pieces (parts.flatMap Part.source)) hend.symm (fun _ _ _ => hend.symm)
        rw [List.flatMap_cons, Part.tokens, List.cons_append, Scanner.tagTokens_append,
          List.nil_append, Token.stripFrom, stripFrom_tagTokens,
          standsAlone_tagTokens hbefore hparts, hrest, strip, List.flatMap_cons, Segment.toTokens]
        simp [tagTokens]

/-- The tokens of a template without the lines of the tags that stand alone. -/
theorem stripLines_eq {parts : List Part} (h : Layout parts) :
    Token.stripLines (parts.flatMap Part.tokens) =
      (strip [] false parts).flatMap Segment.toTokens :=
  stripFrom_eq h false rfl fun _ _ _ => rfl

/-- The texts and tags of a template without the lines of the tags that stand alone. -/
theorem ofTokens_stripLines {parts : List Part} (h : Layout parts) :
    Segment.ofTokens (Token.stripLines (parts.flatMap Part.tokens)) = strip [] false parts := by
  rw [stripLines_eq h, Segment.ofTokens_flatMap_toTokens]

/-! ## The tags that are left -/

/-- A part without the characters of its tag. -/
def Part.segment : Part → Segment String (List Piece)
  | .text content => .outside (String.ofList content)
  | .tag _ pieces => .tag pieces

theorem ofTokens_parts (parts : List Part) :
    Segment.ofTokens (parts.flatMap Part.tokens) = parts.map Part.segment := by
  have htokens : parts.flatMap Part.tokens =
      (parts.map Part.segment).flatMap Segment.toTokens := by
    rw [List.flatMap_map]
    apply congrArg parts.flatMap
    funext part
    cases part <;> rfl
  rw [htokens, Segment.ofTokens_flatMap_toTokens]

/-- No tag is taken away with a line. -/
theorem filterMap_tag?_strip (before : List Char) (alone : Bool) (parts : List Part) :
    (strip before alone parts).filterMap Segment.tag? =
      (parts.map Part.segment).filterMap Segment.tag? := by
  induction parts generalizing before alone with
  | nil => rfl
  | cons part parts ih =>
    cases part with
    | text content =>
      rw [strip, List.map_cons, List.filterMap_cons_none (by rfl)]
      split
      · exact ih _ _
      · rw [List.filterMap_cons_none (by rfl)]
        exact ih _ _
    | tag body pieces =>
      rw [strip, List.map_cons, List.filterMap_cons_some (by rfl),
        List.filterMap_cons_some (b := pieces) (by rfl), ih]

/-- The tags that are left of a template are those that it has. -/
theorem tags_strip (parts : List Part) :
    (strip [] false parts).filterMap Segment.tag? = Segment.tags (parts.flatMap Part.tokens) := by
  rw [Segment.tags, ofTokens_parts, filterMap_tag?_strip]

/-- Nothing is taken away where there is no text. -/
theorem strip_of_tags {parts : List Part} {tags : List (List Piece)}
    (h : parts.map Part.segment = tags.map .tag) (before : List Char) (alone : Bool) :
    strip before alone parts = tags.map .tag := by
  induction parts generalizing tags before alone with
  | nil =>
    obtain rfl := List.map_eq_nil_iff.1 h.symm
    rfl
  | cons part parts ih =>
    obtain ⟨pieces, tags, rfl, hpart, hparts⟩ := List.map_eq_cons_iff.1 h.symm
    cases part with
    | text content => cases hpart
    | tag body pieces' =>
      cases hpart
      rw [strip, ih hparts.symm]
      rfl

end BraceTemplate
