import BraceTemplate.Proofs.Scanning.TagText

/-!
# The texts and tags of a template

A template that can be scanned is made up of parts: stretches of text and tags. `Layout` says which
rows of parts there are, and `tokenize_eq_ok_iff` that the tokens of a template are those of its
parts. A template has one layout at most.
-/

namespace BraceTemplate

open Scanner (openBraces closeBraces TagText tagTokens)
open Text (IsSpace)

/-- A stretch of text, or a tag with the characters after its opening braces and its pieces. -/
inductive Part where
  | text (content : List Char)
  | tag (body : List Char) (pieces : List Piece)
  deriving DecidableEq

namespace Part

/-- The characters of a part as they stand in the template. -/
def source : Part → List Char
  | .text content => content
  | .tag body _ => openBraces ++ body

/-- The tokens of a part. -/
def tokens : Part → List Token
  | .text content => [.text (String.ofList content)]
  | .tag _ pieces => .tagOpen :: tagTokens pieces []

end Part

/-- The parts of a template in a row. Two texts never meet, and the last brace of a text is not
taken for the first brace of the tag after it. -/
inductive Layout : List Part → Prop
  | nil : Layout []
  | lastText {content : List Char} (hne : content ≠ [])
      (hbraces : ¬ openBraces <:+: content) : Layout [.text content]
  | text {content body : List Char} {pieces : List Piece} {parts : List Part} (hne : content ≠ [])
      (hbraces : ¬ openBraces <:+: content ++ ['\x7b'])
      (h : Layout (.tag body pieces :: parts)) :
      Layout (.text content :: .tag body pieces :: parts)
  | tag {body : List Char} {pieces : List Piece} {parts : List Part}
      (hbody : TagText true body pieces) (h : Layout parts) : Layout (.tag body pieces :: parts)

namespace Layout

theorem tail {part : Part} {parts : List Part} (h : Layout (part :: parts)) : Layout parts := by
  cases h with
  | lastText => exact .nil
  | text _ _ h => exact h
  | tag _ h => exact h

theorem of_append {first second : List Part} (h : Layout (first ++ second)) : Layout second := by
  induction first with
  | nil => exact h
  | cons part first ih => exact ih h.tail

end Layout

namespace Scanner

/-! ## From the parts to the tokens -/

theorem tagTokens_append (pieces : List Piece) (first second : List Token) :
    tagTokens pieces first ++ second = tagTokens pieces (first ++ second) := by
  rw [tagTokens, tagTokens, List.append_assoc, List.cons_append]

theorem next_of_inText {s : Scanner} (hout : s.inTag = false) : s.next = s.nextInText := by
  rw [next, hout, if_neg Bool.false_ne_true]

theorem tokens_nil {s : Scanner} (hout : s.inTag = false) (hrest : s.rest = []) :
    s.tokens = .ok [] := by
  have hnext : s.next = (.ok none, s) := by
    rw [next_of_inText hout, nextInText, hrest]
    rfl
  rw [tokens]
  split
  · rfl
  · next heq => rw [hnext] at heq; cases heq
  · next heq => rw [hnext] at heq; cases heq

/-- Outside of a tag the scanner gives the text up to the next opening braces. -/
theorem next_of_text {s : Scanner} {content after : List Char} (hout : s.inTag = false)
    (hne : content ≠ []) (hrest : s.rest = content ++ after)
    (hsplit : Text.splitAtMarker openBraces (content ++ after) = some (content, after) ∨
      after = [] ∧ ¬ openBraces <:+: content) :
    s.next = (.ok (some (.text (String.ofList content))), s.pass content.length) := by
  obtain ⟨c, cs, rfl⟩ := List.exists_cons_of_ne_nil hne
  rw [next_of_inText hout, nextInText, hrest]
  rcases hsplit with hsplit | ⟨rfl, hbraces⟩
  · rw [hsplit]
    rfl
  · rw [List.append_nil, Text.splitAtMarker_eq_none_iff.2 hbraces]
    rfl

theorem next_of_open {s : Scanner} {after : List Char} (hout : s.inTag = false)
    (hrest : s.rest = openBraces ++ after) :
    s.next = (.ok (some .tagOpen),
      { s.pass 2 with inTag := true, tagStart := s.position, atHead := true }) := by
  have hsplit : Text.splitAtMarker openBraces (openBraces ++ after) =
      some ([], openBraces ++ after) := by
    rw [openBraces, List.cons_append, Text.splitAtMarker, if_pos (by simp)]
  rw [next_of_inText hout, nextInText, hrest, hsplit]

/-- A text with nothing but braces missing at its end is cut off before a tag. -/
theorem splitAtMarker_openBraces {content after : List Char}
    (hbraces : ¬ openBraces <:+: content ++ ['\x7b']) :
    Text.splitAtMarker openBraces (content ++ (openBraces ++ after)) =
      some (content, openBraces ++ after) :=
  (Text.splitAtMarker_append_eq_some_iff (by simp [openBraces])).2
    ⟨List.prefix_append _ _, hbraces⟩

theorem next_of_layout_text {content : List Char} {parts : List Part} {s : Scanner}
    (h : Layout (.text content :: parts)) (hout : s.inTag = false)
    (hrest : s.rest = content ++ parts.flatMap Part.source) :
    s.next = (.ok (some (.text (String.ofList content))), s.pass content.length) := by
  cases h with
  | lastText hne hbraces => exact next_of_text hout hne hrest (.inr ⟨rfl, hbraces⟩)
  | text hne hbraces h =>
    refine next_of_text hout hne hrest (.inl ?_)
    rw [List.flatMap_cons, Part.source, List.append_assoc]
    exact splitAtMarker_openBraces hbraces

/-- A scanner that passes a tag gives its tokens and goes on with what comes after it. -/
theorem exists_tokens_after_tag {body more : List Char} {pieces : List Piece} {s : Scanner}
    (hbody : TagText true body pieces) (hout : s.inTag = false)
    (hrest : s.rest = openBraces ++ (body ++ more)) :
    ∃ t : Scanner, t.inTag = false ∧ t.rest = more ∧
      t.position = s.position.advance (openBraces ++ body) ∧
      s.tokens = t.tokens.map ((Part.tag body pieces).tokens ++ ·) := by
  have hleft : s.rest.drop 2 = body ++ more := congrArg (List.drop 2) hrest
  have htake : s.rest.take 2 = openBraces := congrArg (List.take 2) hrest
  let inside : Scanner := { s.pass 2 with inTag := true, tagStart := s.position, atHead := true }
  obtain ⟨atHead, htokens⟩ := hbody.tokens_eq (s := inside) rfl rfl hleft
  refine ⟨inside.leaveTag body.length atHead, rfl, ?_, ?_, ?_⟩
  · show (s.rest.drop 2).drop body.length = more
    rw [hleft, List.drop_left]
  · show (s.position.advance (s.rest.take 2)).advance ((s.rest.drop 2).take body.length) = _
    rw [htake, hleft, List.take_left, Position.advance_append]
  · rw [tokens_of_next (next_of_open hout hrest), htokens, Results.map_map]
    refine congrArg (Except.map · _) (funext fun later => ?_)
    rw [Part.tokens, List.cons_append, tagTokens_append]
    rfl

/-- The tokens of a text that is laid out in parts are the tokens of the parts. -/
theorem tokens_of_layout {parts : List Part} (h : Layout parts) {s : Scanner}
    (hout : s.inTag = false) (hrest : s.rest = parts.flatMap Part.source) :
    s.tokens = .ok (parts.flatMap Part.tokens) := by
  induction parts generalizing s with
  | nil => exact tokens_nil hout hrest
  | cons part parts ih =>
    cases part with
    | text content =>
      rw [List.flatMap_cons, Part.source] at hrest
      have hpass : (s.pass content.length).rest = parts.flatMap Part.source := by
        rw [rest_pass, hrest, List.drop_left]
      rw [tokens_of_next (next_of_layout_text h hout hrest), ih h.tail (s := s.pass _) hout hpass]
      rfl
    | tag body pieces =>
      rw [List.flatMap_cons, Part.source, List.append_assoc] at hrest
      cases h with
      | tag hbody hparts =>
        -- The scanner leaves the tag where the next part begins.
        obtain ⟨t, htout, htrest, -, htokens⟩ := exists_tokens_after_tag hbody hout hrest
        rw [htokens, ih hparts htout htrest]
        rfl

/-! ## From the tokens to the parts -/

/-- Parts whose characters begin with opening braces begin with a tag. -/
theorem exists_tag_of_open {parts : List Part} (h : Layout parts)
    (hopen : openBraces <+: parts.flatMap Part.source) :
    ∃ body pieces rest, parts = .tag body pieces :: rest := by
  cases h with
  | nil => simp [openBraces] at hopen
  | lastText hne hbraces =>
    rw [List.flatMap_singleton] at hopen
    exact absurd hopen.isInfix hbraces
  | @text content body pieces parts hne hbraces h =>
    -- Not even the brace after the text makes a pair with its first character.
    rw [List.flatMap_cons, Part.source, List.flatMap_cons, Part.source, List.append_assoc] at hopen
    have hsplit : Text.splitAtMarker openBraces
        (content ++ (openBraces ++ (body ++ parts.flatMap Part.source))) = some (content, _) :=
      splitAtMarker_openBraces hbraces
    obtain ⟨c, cs, rfl⟩ := List.exists_cons_of_ne_nil hne
    rw [List.cons_append] at hopen hsplit
    rw [Text.splitAtMarker, if_pos (List.isPrefixOf_iff_prefix.2 hopen)] at hsplit
    cases hsplit
  | tag => exact ⟨_, _, _, rfl⟩

/-- A text before a tag ends before the first opening braces. -/
theorem layout_text_cons {content : List Char} {parts : List Part} (hne : content ≠ [])
    (h : Layout parts)
    (hsplit : Text.splitAtMarker openBraces (content ++ parts.flatMap Part.source) =
      some (content, parts.flatMap Part.source)) : Layout (.text content :: parts) := by
  obtain ⟨hopen, hbraces⟩ := (Text.splitAtMarker_append_eq_some_iff (by simp [openBraces])).1 hsplit
  obtain ⟨body, pieces, rest, rfl⟩ := exists_tag_of_open h hopen
  exact .text hne hbraces h

/-- A text that begins with opening braces and can be scanned begins with a tag. -/
theorem exists_tag_of_tokens {s : Scanner} {left : List Char} {found : List Token}
    (hout : s.inTag = false) (hrest : s.rest = openBraces ++ left) (h : s.tokens = .ok found) :
    ∃ (s' : Scanner) (body : List Char) (pieces : List Piece) (later : List Token),
      TagText true body pieces ∧ left = body ++ s'.rest ∧ s'.inTag = false ∧
      s'.tokens = .ok later ∧ found = .tagOpen :: tagTokens pieces later := by
  rw [tokens_of_next (next_of_open hout hrest)] at h
  obtain ⟨tail, htail, rfl⟩ := Results.map_eq_ok.1 h
  obtain ⟨body, pieces, after, atHead', later, htag, hleft, hlater, rfl⟩ :=
    exists_tagText_of_tokens rfl htail
  have hbody : left = body ++ after := by
    rw [← hleft]
    exact (congrArg (List.drop 2) hrest).symm
  refine ⟨_, body, pieces, later, htag, ?_, rfl, hlater, rfl⟩
  rw [rest_leaveTag, hleft, List.drop_left, hbody]

/-- Every text that can be scanned is laid out in parts. -/
theorem exists_layout_of_tokens {s : Scanner} {found : List Token} (hout : s.inTag = false)
    (h : s.tokens = .ok found) :
    ∃ parts, Layout parts ∧ s.rest = parts.flatMap Part.source ∧
      found = parts.flatMap Part.tokens := by
  -- A text or a tag at the start leaves less text, which is laid out before it is put in front.
  induction hn : s.rest.length using Nat.strongRecOn generalizing s found with
  | ind n ih =>
    cases hsplit : Text.splitAtMarker openBraces s.rest with
    | none =>
      have hbraces := Text.splitAtMarker_eq_none_iff.1 hsplit
      by_cases hne : s.rest = []
      · rw [tokens_nil hout hne] at h
        cases h
        exact ⟨[], .nil, hne, rfl⟩
      · have hparts : Layout [.text s.rest] := .lastText hne hbraces
        have hrest : s.rest = [Part.text s.rest].flatMap Part.source := (List.append_nil _).symm
        rw [tokens_of_layout hparts hout hrest] at h
        cases h
        exact ⟨_, hparts, hrest, rfl⟩
    | some cut =>
      obtain ⟨content, after⟩ := cut
      obtain ⟨hrest, hopen⟩ := Text.splitAtMarker_eq_some hsplit
      by_cases hne : content = []
      · obtain ⟨left, rfl⟩ := hopen
        rw [hne, List.nil_append] at hrest
        obtain ⟨s', body, pieces, later, htag, rfl, hout', hlater, rfl⟩ :=
          exists_tag_of_tokens hout hrest.symm h
        have hshort : s'.rest.length < n := by
          rw [← hn, ← hrest]
          simp only [openBraces, List.length_append, List.length_cons]
          omega
        obtain ⟨parts, hparts, hsource, rfl⟩ := ih _ hshort hout' hlater rfl
        refine ⟨.tag body pieces :: parts, .tag htag hparts, ?_, ?_⟩
        · rw [List.flatMap_cons, Part.source, List.append_assoc, ← hsource, hrest]
        · rw [List.flatMap_cons, Part.tokens, List.cons_append, tagTokens_append, List.nil_append]
      · rw [← hrest] at hsplit
        rw [tokens_of_next (next_of_text hout hne hrest.symm (.inl hsplit))] at h
        obtain ⟨tail, htail, rfl⟩ := Results.map_eq_ok.1 h
        have hafter : (s.pass content.length).rest = after := by
          rw [rest_pass, ← hrest, List.drop_left]
        have hshort : (s.pass content.length).rest.length < n := by
          have := List.length_pos_iff.2 hne
          rw [hafter, ← hn, ← hrest, List.length_append]
          omega
        obtain ⟨parts, hparts, hsource, rfl⟩ :=
          ih _ hshort (s := s.pass content.length) hout htail rfl
        rw [hafter] at hsource
        subst hsource
        exact ⟨.text content :: parts, layout_text_cons hne hparts hsplit, hrest.symm, rfl⟩

/-! ## One layout at most -/

/-- Two beginnings of a text are the same if the same is left after them. -/
theorem append_inj_of_drop {cs cs' after after' : List Char} (heq : cs ++ after = cs' ++ after')
    (hdrop : (cs ++ after).drop cs.length = (cs ++ after).drop cs'.length) : cs = cs' := by
  rw [List.drop_left, heq, List.drop_left] at hdrop
  rw [hdrop] at heq
  exact List.append_cancel_right heq

/-- Two pieces that a text begins with are the same. -/
theorem pieceText_unique {atHead : Bool} {cs cs' after after' : List Char} {piece piece' : Piece}
    (h : PieceText atHead cs after piece) (h' : PieceText atHead cs' after' piece')
    (heq : cs ++ after = cs' ++ after') : cs = cs' ∧ piece = piece' := by
  have hnext := next_of_pieceText (s := ⟨cs ++ after, .start, true, .start, atHead⟩) rfl rfl rfl h
  have hnext' := next_of_pieceText (s := ⟨cs ++ after, .start, true, .start, atHead⟩) rfl rfl heq h'
  rw [hnext, Prod.mk.injEq] at hnext'
  obtain ⟨htoken, hscanner⟩ := hnext'
  refine ⟨append_inj_of_drop heq (congrArg rest hscanner), ?_⟩
  injection htoken with htoken
  injection htoken with htoken
  injection htoken

/-- The end of a tag is not a piece, because the scanner gives one token for the text. -/
theorem close_ne_piece {atHead : Bool} {space cs after after' : List Char} {piece : Piece}
    (hspace : IsSpace space) (hpiece : PieceText atHead cs after' piece) :
    space ++ (closeBraces ++ after) ≠ cs ++ after' := by
  intro heq
  have hnext := next_of_close (s := ⟨space ++ (closeBraces ++ after), .start, true, .start, atHead⟩)
    rfl hspace rfl
  rw [next_of_pieceText rfl rfl heq hpiece] at hnext
  cases hnext

theorem skipSpace_close {space after : List Char} (hspace : IsSpace space) :
    Text.skipSpace (space ++ closeBraces ++ after) = closeBraces ++ after := by
  rw [List.append_assoc, Text.skipSpace_append hspace]
  rfl

/-- Two tags that a text begins with are the same. -/
theorem tagText_unique {atHead : Bool} {body body' after after' : List Char}
    {pieces pieces' : List Piece} (h : TagText atHead body pieces)
    (h' : TagText atHead body' pieces') (heq : body ++ after = body' ++ after') :
    body = body' ∧ pieces = pieces' := by
  -- Closing braces and a piece never begin alike, so both tags end after the same pieces.
  induction h generalizing body' pieces' with
  | @close atHead space hspace =>
    cases h' with
    | @close _ space' hspace' =>
      have hafter := congrArg Text.skipSpace heq
      rw [skipSpace_close hspace, skipSpace_close hspace'] at hafter
      rw [List.append_cancel_left hafter] at heq
      exact ⟨List.append_cancel_right heq, rfl⟩
    | piece hpiece' htag' =>
      rw [List.append_assoc, List.append_assoc] at heq
      exact absurd heq (close_ne_piece hspace (hpiece'.append htag'.ne_nil after'))
  | @piece atHead cs rest piece pieces hpiece htag ih =>
    rw [List.append_assoc] at heq
    cases h' with
    | close hspace' =>
      rw [List.append_assoc] at heq
      exact absurd heq.symm (close_ne_piece hspace' (hpiece.append htag.ne_nil after))
    | @piece _ cs' rest' piece' pieces' hpiece' htag' =>
      rw [List.append_assoc] at heq
      obtain ⟨rfl, rfl⟩ := pieceText_unique (hpiece.append htag.ne_nil after)
        (hpiece'.append htag'.ne_nil after') heq
      obtain ⟨rfl, rfl⟩ := ih htag' (List.append_cancel_left heq)
      exact ⟨rfl, rfl⟩

theorem source_ne_nil {part : Part} {parts : List Part} (h : Layout (part :: parts)) :
    (part :: parts).flatMap Part.source ≠ [] := by
  rw [List.flatMap_cons]
  cases h with
  | lastText hne _ => simp [Part.source, hne]
  | text hne _ _ => simp [Part.source, hne]
  | tag _ _ => simp [Part.source, openBraces]

/-- No characters are those of a text and of a tag at once. -/
theorem source_text_ne_tag {content body : List Char} {pieces : List Piece}
    {parts parts' : List Part} (h : Layout (.text content :: parts)) :
    (Part.text content :: parts).flatMap Part.source ≠
      (Part.tag body pieces :: parts').flatMap Part.source := by
  intro heq
  have hopen : openBraces <+: (Part.text content :: parts).flatMap Part.source := by
    rw [heq, List.flatMap_cons, Part.source, List.append_assoc]
    exact List.prefix_append _ _
  obtain ⟨_, _, _, hparts⟩ := exists_tag_of_open h hopen
  cases hparts

/-- A text is laid out in parts in one way at most. -/
theorem layout_unique {parts parts' : List Part} (h : Layout parts) (h' : Layout parts')
    (heq : parts.flatMap Part.source = parts'.flatMap Part.source) : parts = parts' := by
  induction parts generalizing parts' with
  | nil =>
    cases parts' with
    | nil => rfl
    | cons part' parts' => exact absurd heq.symm (source_ne_nil h')
  | cons part parts ih =>
    cases parts' with
    | nil => exact absurd heq (source_ne_nil h)
    | cons part' parts' =>
      cases part with
      | text content =>
        cases part' with
        | tag body' pieces' => exact absurd heq (source_text_ne_tag h)
        | text content' =>
          rw [List.flatMap_cons, List.flatMap_cons, Part.source, Part.source] at heq
          -- Both texts are the token that the scanner gives first.
          have hnext := next_of_layout_text h
            (s := ⟨content ++ parts.flatMap Part.source, .start, false, .start, false⟩) rfl rfl
          rw [next_of_layout_text h' rfl heq, Prod.mk.injEq] at hnext
          have hcontent := append_inj_of_drop heq (congrArg rest hnext.2).symm
          rw [hcontent] at heq
          rw [hcontent, ih h.tail h'.tail (List.append_cancel_left heq)]
      | tag body pieces =>
        cases part' with
        | text content' => exact absurd heq.symm (source_text_ne_tag h')
        | tag body' pieces' =>
          rw [List.flatMap_cons, List.flatMap_cons, Part.source, Part.source, List.append_assoc,
            List.append_assoc] at heq
          have hsame := List.append_cancel_left heq
          cases h with
          | tag hbody hparts =>
            cases h' with
            | tag hbody' hparts' =>
              obtain ⟨rfl, rfl⟩ := tagText_unique hbody hbody' hsame
              rw [ih hparts hparts' (List.append_cancel_left hsame)]

end Scanner

/-- The tokens of a template are those of the parts that it is laid out in. -/
theorem tokenize_eq_ok_iff {template : String} {found : List Token} :
    tokenize template = .ok found ↔
      ∃ parts, Layout parts ∧ template.toList = parts.flatMap Part.source ∧
        found = parts.flatMap Part.tokens := by
  constructor
  · intro h
    exact Scanner.exists_layout_of_tokens rfl h
  · rintro ⟨parts, hparts, hsource, rfl⟩
    exact Scanner.tokens_of_layout hparts rfl hsource

end BraceTemplate
