import BraceTemplate.Proofs.Lines.Ends
import BraceTemplate.Proofs.Scanning.Layout

/-!
# Tags that are not closed

If a template cannot be scanned then one of its tags is not closed: `Unclosed` says which characters
after opening braces begin with no tag, because a comment or a string in them is not ended or because
the template ends first. The error carries the position of the opening braces. What comes before them
is a template of its own, and what comes after them does not begin with a tag, however it is cut off.
-/

namespace BraceTemplate

open Text (IsSpace)

namespace Scanner

/-! ## Strings without an end -/

/-- The characters of a string before its closing quote: a backslash stands for the character after
it, whatever that is. -/
inductive StringText (quote : Char) : List Char → Prop
  | nil : StringText quote []
  | char {c : Char} {cs : List Char} (hquote : c ≠ quote) (hslash : c ≠ '\\')
      (h : StringText quote cs) : StringText quote (c :: cs)
  | escape {c : Char} {cs : List Char} (h : StringText quote cs) :
      StringText quote ('\\' :: c :: cs)

/-- A text goes on with a string up to the given quote. -/
def HasClosingQuote (quote : Char) (cs : List Char) : Prop :=
  ∃ text after, StringText quote text ∧ cs = text ++ quote :: after

theorem HasClosingQuote.here (quote : Char) (cs : List Char) : HasClosingQuote quote (quote :: cs) :=
  ⟨[], cs, .nil, rfl⟩

/-- A character that is no quote does not close a string. -/
theorem hasClosingQuote_char {quote c : Char} (hquote : c ≠ quote) (hslash : c ≠ '\\')
    (cs : List Char) : HasClosingQuote quote (c :: cs) ↔ HasClosingQuote quote cs := by
  constructor
  · rintro ⟨text, after, htext, heq⟩
    cases htext with
    | nil => exact absurd (List.cons.inj heq).1 hquote
    | char _ _ htext => exact ⟨_, after, htext, (List.cons.inj heq).2⟩
    | escape _ => exact absurd (List.cons.inj heq).1 hslash
  · rintro ⟨text, after, htext, rfl⟩
    exact ⟨c :: text, after, .char hquote hslash htext, rfl⟩

/-- The character after a backslash does not close a string. -/
theorem hasClosingQuote_escape {quote : Char} (hquote : '\\' ≠ quote) (c : Char) (cs : List Char) :
    HasClosingQuote quote ('\\' :: c :: cs) ↔ HasClosingQuote quote cs := by
  constructor
  · rintro ⟨text, after, htext, heq⟩
    cases htext with
    | nil => exact absurd (List.cons.inj heq).1 hquote
    | char _ hslash _ => exact absurd (List.cons.inj heq).1.symm hslash
    | escape htext => exact ⟨_, after, htext, (List.cons.inj (List.cons.inj heq).2).2⟩
  · rintro ⟨text, after, htext, rfl⟩
    exact ⟨'\\' :: c :: text, after, .escape htext, rfl⟩

theorem not_hasClosingQuote_slash {quote : Char} (hquote : '\\' ≠ quote) :
    ¬ HasClosingQuote quote ['\\'] := by
  rintro ⟨text, after, htext, heq⟩
  cases htext with
  | nil => exact hquote (List.cons.inj heq).1
  | char _ hslash _ => exact hslash (List.cons.inj heq).1.symm
  | escape _ => cases (List.cons.inj heq).2

theorem not_hasClosingQuote_nil (quote : Char) : ¬ HasClosingQuote quote [] := by
  rintro ⟨text, after, -, heq⟩
  cases text <;> cases heq

/-- The scanner finds the end of every string that has one. -/
theorem quotedString?_eq_none_iff {quote : Char} (hquote : '\\' ≠ quote) (cs : List Char) :
    quotedString? quote cs = none ↔ ¬ HasClosingQuote quote cs := by
  -- A backslash takes the next character with it, so the induction is on the recursion of the scan.
  induction cs using quotedString?.induct quote with
  | case1 => simp [quotedString?, not_hasClosingQuote_nil]
  | case2 cs =>
    rw [quotedString?_quote]
    simp [HasClosingQuote.here]
  | case3 _ => simp [quotedString?_slash hquote, not_hasClosingQuote_slash hquote]
  | case4 c cs _ ih =>
    rw [quotedString?_escape hquote, Option.map_eq_none_iff, ih,
      hasClosingQuote_escape hquote]
  | case5 c cs hc hslash ih =>
    rw [quotedString?_char hc hslash, Option.map_eq_none_iff, ih,
      hasClosingQuote_char hc hslash]

/-! ## Tags without an end -/

/-- The characters of pieces in a row, when the given text comes after them. The flag says whether no
piece of the tag has come before. -/
inductive PiecesText : Bool → List Char → List Char → List Piece → Prop
  | nil {atHead : Bool} {after : List Char} : PiecesText atHead [] after []
  | cons {atHead : Bool} {cs rest after : List Char} {piece : Piece} {pieces : List Piece}
      (hpiece : PieceText atHead cs (rest ++ after) piece)
      (hrest : PiecesText false rest after pieces) :
      PiecesText atHead (cs ++ rest) after (piece :: pieces)

/-- The text goes on with pieces of a tag, and then with characters that the tag cannot go on with. -/
def Unclosed (atHead : Bool) (left : List Char) (fault : LexFault) : Prop :=
  ∃ cs after pieces, PiecesText atHead cs after pieces ∧ left = cs ++ after ∧
    FaultText (atHead && pieces.isEmpty) after fault

/-- The text goes on with pieces of a tag, and then with a string that is not closed. -/
def HasOpenString (left : List Char) : Prop :=
  ∃ cs space quote after pieces, PiecesText true cs (space ++ quote :: after) pieces ∧
    left = cs ++ (space ++ quote :: after) ∧ IsSpace space ∧ (quote = '"' ∨ quote = '\'') ∧
    ¬ HasClosingQuote quote after

variable {atHead : Bool} {left : List Char} {fault : LexFault}

theorem FaultText.unclosed (h : FaultText atHead left fault) : Unclosed atHead left fault :=
  ⟨[], left, [], .nil, rfl, by rwa [List.isEmpty_nil, Bool.and_true]⟩

theorem Unclosed.cons {cs : List Char} {piece : Piece} (hpiece : PieceText atHead cs left piece)
    (h : Unclosed false left fault) : Unclosed atHead (cs ++ left) fault := by
  obtain ⟨cs', after, pieces, hpieces, rfl, hfault⟩ := h
  refine ⟨cs ++ cs', after, piece :: pieces, .cons hpiece hpieces, ?_, ?_⟩
  · rw [List.append_assoc]
  · rwa [List.isEmpty_cons, Bool.and_false]

/-- A piece does not begin where a tag cannot go on. -/
theorem FaultText.ne_piece (h : FaultText atHead left fault) {cs after : List Char} {piece : Piece}
    (hpiece : PieceText atHead cs after piece) : left ≠ cs ++ after := by
  intro heq
  let s : Scanner := ⟨cs ++ after, .start, true, .start, atHead⟩
  obtain ⟨s', hnext⟩ := next_of_faultText (s := s) rfl rfl heq.symm h
  rw [next_of_pieceText (s := s) rfl rfl rfl hpiece] at hnext
  cases hnext

/-- A tag does not end where it cannot go on. -/
theorem FaultText.ne_close (h : FaultText atHead left fault) {space after : List Char}
    (hspace : IsSpace space) : left ≠ space ++ (closeBraces ++ after) := by
  intro heq
  let s : Scanner := ⟨space ++ (closeBraces ++ after), .start, true, .start, atHead⟩
  obtain ⟨s', hnext⟩ := next_of_faultText (s := s) rfl rfl heq.symm h
  rw [next_of_close (s := s) rfl hspace rfl] at hnext
  cases hnext

/-- A text that goes on with an unclosed tag does not begin with a tag. -/
theorem Unclosed.ne_tag (h : Unclosed atHead left fault) {body more : List Char}
    {pieces : List Piece} (htag : TagText atHead body pieces) : left ≠ body ++ more := by
  obtain ⟨cs, after, found, hpieces, rfl, hfault⟩ := h
  -- The tag and the pieces begin with the same pieces, and after these the tag cannot end.
  induction hpieces generalizing body pieces with
  | nil =>
    rw [List.isEmpty_nil, Bool.and_true] at hfault
    cases htag with
    | close hspace =>
      rw [List.append_assoc]
      exact hfault.ne_close hspace
    | piece hpiece htag =>
      rw [List.append_assoc]
      exact hfault.ne_piece (hpiece.append htag.ne_nil more)
  | @cons atHead cs rest after piece found hpiece hrest ih =>
    intro heq
    rw [List.isEmpty_cons, Bool.and_false] at hfault
    rw [List.append_assoc] at heq
    cases htag with
    | close hspace =>
      rw [List.append_assoc] at heq
      exact close_ne_piece hspace hpiece heq.symm
    | piece hpiece' htag =>
      rw [List.append_assoc] at heq
      obtain ⟨rfl, -⟩ :=
        pieceText_unique hpiece (hpiece'.append htag.ne_nil more) heq
      exact ih htag (by rwa [Bool.false_and]) (List.append_cancel_left heq)

/-- The scanner finds what is wrong with an unclosed tag. -/
theorem Unclosed.tokens_eq (h : Unclosed atHead left fault) {s : Scanner} (hin : s.inTag = true)
    (hhead : s.atHead = atHead) (hrest : s.rest = left) : s.tokens = .error (s.fault fault) := by
  obtain ⟨cs, after, pieces, hpieces, rfl, hfault⟩ := h
  induction hpieces generalizing s with
  | nil =>
    rw [List.isEmpty_nil, Bool.and_true] at hfault
    obtain ⟨s', hnext⟩ := next_of_faultText hin hhead hrest hfault
    exact tokens_of_next_error hnext
  | @cons atHead cs rest after piece pieces hpiece hpieces ih =>
    rw [List.append_assoc] at hrest
    rw [List.isEmpty_cons, Bool.and_false] at hfault
    have htokens := @ih { s.pass cs.length with atHead := false } hin rfl
      (by rwa [Bool.false_and]) (by rw [rest_pass, hrest, List.drop_left])
    rw [tokens_of_next (next_of_pieceText hin hhead hrest hpiece), htokens]
    rfl

/-- A tag is unclosed for one reason. -/
theorem Unclosed.unique {fault' : LexFault} (h : Unclosed atHead left fault)
    (h' : Unclosed atHead left fault') : fault = fault' := by
  let s : Scanner := ⟨left, .start, true, .start, atHead⟩
  have htokens := h.tokens_eq (s := s) rfl rfl rfl
  rw [h'.tokens_eq (s := s) rfl rfl rfl] at htokens
  injection htokens with herror
  injection herror with _ hfault
  exact hfault.symm

/-! ## What is wrong with a tag -/

/-- A comment that is ended is all of its tag. -/
theorem exists_tagText_of_commentBody? {cs body : List Char} {length : Nat}
    (h : commentBody? cs = .ok (body, length)) :
    ∃ text more pieces, TagText true text pieces ∧ '!' :: cs = text ++ more := by
  obtain ⟨hle, more, hmore⟩ := commentBody?_rest h
  have hsplit : cs.take length ++ (closeBraces ++ more) = cs := by
    rw [hmore, List.take_append_drop]
  have hpiece : PieceText true ('!' :: cs.take length) (closeBraces ++ more)
      (.word (String.ofList (Text.trim body)) (some .comment)) := by
    apply PieceText.comment
    rw [hsplit, h, List.length_take, Nat.min_eq_left hle]
  refine ⟨'!' :: cs.take length ++ closeBraces, more, _,
    .piece (hpiece.of_append (Nat.le_refl 2)) (TagText.close Text.isSpace_nil), ?_⟩
  rw [List.append_assoc, List.cons_append, hsplit]

/-- A tag with two dashes after its exclamation mark is unclosed just if the comment is not ended. -/
theorem Unclosed.comment_iff (h : Unclosed true left fault) :
    fault = .unterminatedComment ↔ ['!', '-', '-'] <+: left := by
  constructor
  · rintro rfl
    obtain ⟨cs, after, pieces, hpieces, rfl, hfault⟩ := h
    cases hpieces with
    | nil =>
      cases hfault with
      | comment hbody =>
        rw [commentBody?.eq_def] at hbody
        split at hbody
        · next body => exact List.prefix_append ['!', '-', '-'] body
        · split at hbody <;> cases hbody
    -- Behind a piece an exclamation mark begins a word, not a comment.
    | cons _ _ =>
      rw [List.isEmpty_cons, Bool.and_false] at hfault
      cases hfault
  · rintro ⟨body, rfl⟩
    cases hsplit : Text.splitAtMarker longCommentEnd body with
    | none =>
      have hbody : commentBody? ('-' :: '-' :: body) = .error .unterminatedComment := by
        rw [commentBody?, hsplit]
      exact h.unique (FaultText.comment hbody).unclosed
    | some cut =>
      obtain ⟨before, rest⟩ := cut
      have hbody : commentBody? ('-' :: '-' :: body) = .ok (before, before.length + 4) := by
        rw [commentBody?, hsplit]
      obtain ⟨text, more, piece, htag, htext⟩ := exists_tagText_of_commentBody? hbody
      exact absurd htext (h.ne_tag htag)

theorem slash_ne_quote {quote : Char} (h : quote = '"' ∨ quote = '\'') : '\\' ≠ quote := by
  rcases h with rfl | rfl <;> decide

/-- A fault is a string without an end just if there is one. -/
theorem Unclosed.string_iff (h : Unclosed true left fault) :
    fault = .unterminatedString ↔ HasOpenString left := by
  constructor
  · rintro rfl
    obtain ⟨cs, after, pieces, hpieces, rfl, hfault⟩ := h
    generalize (true && pieces.isEmpty) = atHead at hfault
    cases hfault with
    | comment hbody =>
      rw [commentBody?.eq_def] at hbody
      split at hbody <;> split at hbody <;> cases hbody
    | @quoted _ space after quote hspace hquote hvalue =>
      exact ⟨cs, space, quote, after, pieces, hpieces, rfl, hspace, hquote,
        (quotedString?_eq_none_iff (slash_ne_quote hquote) after).1 hvalue⟩
  · rintro ⟨cs, space, quote, after, pieces, hpieces, rfl, hspace, hquote, hopen⟩
    have hvalue := (quotedString?_eq_none_iff (slash_ne_quote hquote) after).2 hopen
    exact h.unique ⟨cs, _, pieces, hpieces, rfl, .quoted hspace hquote hvalue⟩

/-! ## The tag that an error is about -/

/-- A scanner that fails inside a tag either finds the tag unclosed or fails after the tag. -/
theorem unclosed_or_exists_tagText {s : Scanner} {error : Error} (hin : s.inTag = true)
    (h : s.tokens = .error error) :
    (∃ fault, Unclosed s.atHead s.rest fault ∧ error = s.fault fault) ∨
      ∃ body pieces after atHead', TagText s.atHead body pieces ∧ s.rest = body ++ after ∧
        (s.leaveTag body.length atHead').tokens = .error error := by
  -- Every piece leaves less text, and the first token that is no piece decides.
  induction hn : s.rest.length using Nat.strongRecOn generalizing s with
  | ind n ih =>
    have hstep := tagStep_next hin
    have hshort := shortens_next s
    generalize hnext : s.next = step at hstep hshort
    cases hstep with
    | @piece cs after piece hrest hpiece =>
      rw [tokens_of_next hnext, Results.map_eq_error] at h
      have hlt := hshort _ _ rfl
      have hafter : ({ s.pass cs.length with atHead := false } : Scanner).rest = after := by
        rw [rest_pass, hrest, List.drop_left]
      rcases @ih _ (hn ▸ hlt) { s.pass cs.length with atHead := false } hin h rfl with
        ⟨fault, hunclosed, rfl⟩ | ⟨body, pieces, left, atHead', htag, hleft, htokens⟩
      · rw [hafter] at hunclosed
        exact .inl ⟨fault, hrest ▸ hunclosed.cons hpiece, rfl⟩
      · rw [hafter] at hleft
        rw [hleft] at hpiece
        refine .inr ⟨cs ++ body, piece :: pieces, left, atHead', ?_, ?_, ?_⟩
        · exact .piece (hpiece.of_append htag.two_le_length) htag
        · rw [hrest, hleft, List.append_assoc]
        · rw [List.length_append, ← leaveTag_pass]
          exact htokens
    | @close space after hrest hspace =>
      rw [tokens_of_next hnext, Results.map_eq_error] at h
      refine .inr ⟨space ++ closeBraces, [], after, s.atHead, .close hspace, ?_, ?_⟩
      · rw [hrest, List.append_assoc]
      · rw [List.length_append]
        exact h
    | fault s' hfault =>
      rw [tokens_of_next_error hnext] at h
      cases h
      exact .inl ⟨_, hfault.unclosed, rfl⟩

/-- The parts before a tag are a layout of their own. -/
theorem layout_before_tag {parts : List Part} {body : List Char} {pieces : List Piece}
    (h : Layout (parts ++ [.tag body pieces])) : Layout parts := by
  induction parts with
  | nil => exact .nil
  | cons part parts ih =>
    cases part with
    | tag body' pieces' =>
      cases h with
      | tag hbody h => exact .tag hbody (ih h)
    | text content =>
      cases parts with
      | nil =>
        cases h with
        | text hne hbraces _ =>
          exact .lastText hne fun hopen => hbraces (hopen.trans (List.prefix_append _ _).isInfix)
      | cons part parts =>
        cases h with
        | text hne hbraces h => exact .text hne hbraces (ih h)

/-- A scanner that fails from opening braces on either finds the tag unclosed or fails after it. -/
theorem unclosed_or_exists_tag {s : Scanner} {left : List Char} {error : Error}
    (hout : s.inTag = false) (hrest : s.rest = openBraces ++ left) (h : s.tokens = .error error) :
    (∃ fault, Unclosed true left fault ∧ error = .lex s.position fault) ∨
      ∃ (s' : Scanner) (body : List Char) (pieces : List Piece), TagText true body pieces ∧
        left = body ++ s'.rest ∧ s'.inTag = false ∧
        s'.position = s.position.advance (openBraces ++ body) ∧ s'.tokens = .error error := by
  rw [tokens_of_next (next_of_open hout hrest), Results.map_eq_error] at h
  have hleft : s.rest.drop 2 = left := congrArg (List.drop 2) hrest
  have htake : s.rest.take 2 = openBraces := congrArg (List.take 2) hrest
  rcases unclosed_or_exists_tagText rfl h with
    ⟨fault, hunclosed, rfl⟩ | ⟨body, pieces, after, atHead', htag, hbody, htokens⟩
  · exact .inl ⟨fault, hleft ▸ hunclosed, rfl⟩
  · have hbody : left = body ++ after := hleft.symm.trans hbody
    refine .inr ⟨_, body, pieces, htag, ?_, rfl, ?_, htokens⟩
    · show left = body ++ (s.rest.drop 2).drop body.length
      rw [hleft, hbody, List.drop_left]
    · show (s.position.advance (s.rest.take 2)).advance ((s.rest.drop 2).take body.length) = _
      rw [htake, hleft, hbody, List.take_left, Position.advance_append]

/-- A text before a tag goes on with the same parts before any other tag. -/
theorem layout_text_before_tag {content left : List Char} {parts : List Part} (hne : content ≠ [])
    (h : Layout (parts ++ [.tag closeBraces []]))
    (hsplit : Text.splitAtMarker openBraces
        (content ++ (parts.flatMap Part.source ++ (openBraces ++ left))) =
      some (content, parts.flatMap Part.source ++ (openBraces ++ left))) :
    Layout (.text content :: (parts ++ [.tag closeBraces []])) := by
  obtain ⟨hopen, hbraces⟩ := (Text.splitAtMarker_append_eq_some_iff (by simp [openBraces])).1 hsplit
  have hsource : openBraces <+: (parts ++ [Part.tag closeBraces []]).flatMap Part.source := by
    rw [← List.append_assoc] at hopen
    have hshort := List.prefix_of_prefix_length_le hopen (List.prefix_append _ _) (by simp)
    rw [List.flatMap_append, List.flatMap_singleton, Part.source, ← List.append_assoc]
    exact hshort.trans (List.prefix_append _ _)
  obtain ⟨body, pieces, rest, hparts⟩ := exists_tag_of_open h hsource
  rw [hparts] at h ⊢
  exact .text hne hbraces h

/-- A text that cannot be scanned has an unclosed tag after parts that can be scanned. The error is
at the opening braces of the tag. -/
theorem exists_unclosed_of_tokens {s : Scanner} {error : Error} (hout : s.inTag = false)
    (h : s.tokens = .error error) :
    ∃ parts left fault, Layout (parts ++ [.tag closeBraces []]) ∧
      s.rest = parts.flatMap Part.source ++ (openBraces ++ left) ∧ Unclosed true left fault ∧
      error = .lex (s.position.advance (parts.flatMap Part.source)) fault := by
  -- A text or a tag at the start leaves less text, in which the unclosed tag is found.
  induction hn : s.rest.length using Nat.strongRecOn generalizing s with
  | ind n ih =>
    cases hsplit : Text.splitAtMarker openBraces s.rest with
    | none =>
      have hbraces := Text.splitAtMarker_eq_none_iff.1 hsplit
      by_cases hne : s.rest = []
      · rw [tokens_nil hout hne] at h
        cases h
      · rw [tokens_of_layout (.lastText hne hbraces) hout (List.append_nil _).symm] at h
        cases h
    | some cut =>
      obtain ⟨content, after⟩ := cut
      obtain ⟨hrest, hopen⟩ := Text.splitAtMarker_eq_some hsplit
      by_cases hne : content = []
      · obtain ⟨left, rfl⟩ := hopen
        rw [hne, List.nil_append] at hrest
        rcases unclosed_or_exists_tag hout hrest.symm h with
          ⟨fault, hunclosed, rfl⟩ | ⟨s', body, pieces, htag, rfl, hout', hposition, htokens⟩
        · exact ⟨[], left, fault, .tag (.close Text.isSpace_nil) .nil, hrest.symm, hunclosed, rfl⟩
        · have hshort : s'.rest.length < n := by
            rw [← hn, ← hrest]
            simp only [openBraces, List.length_append, List.length_cons]
            omega
          obtain ⟨parts, left, fault, hparts, hrest', hunclosed, rfl⟩ := ih _ hshort hout' htokens rfl
          refine ⟨.tag body pieces :: parts, left, fault, .tag htag hparts, ?_, hunclosed, ?_⟩
          · rw [← hrest, hrest', List.flatMap_cons, Part.source, List.append_assoc, List.append_assoc]
          · rw [List.flatMap_cons, Part.source, Position.advance_append, hposition]
      · rw [← hrest] at hsplit
        rw [tokens_of_next (next_of_text hout hne hrest.symm (.inl hsplit)),
          Results.map_eq_error] at h
        have hafter : (s.pass content.length).rest = after := by
          rw [rest_pass, ← hrest, List.drop_left]
        have htake : s.rest.take content.length = content := by
          rw [← hrest, List.take_left]
        have hshort : (s.pass content.length).rest.length < n := by
          have := List.length_pos_iff.2 hne
          rw [hafter, ← hn, ← hrest, List.length_append]
          omega
        obtain ⟨parts, left, fault, hparts, hrest', hunclosed, rfl⟩ :=
          ih _ hshort (s := s.pass content.length) hout h rfl
        rw [hafter] at hrest'
        subst hrest'
        refine ⟨.text content :: parts, left, fault, layout_text_before_tag hne hparts hsplit, ?_,
          hunclosed, ?_⟩
        · rw [← hrest, List.flatMap_cons, Part.source, List.append_assoc]
        · rw [List.flatMap_cons, Part.source, Position.advance_append]
          show Error.lex ((s.position.advance (s.rest.take content.length)).advance _) fault = _
          rw [htake]

/-- No beginning of an unclosed tag is a template that ends with a tag. -/
theorem Unclosed.not_ends_with_tag (h : Unclosed true left fault) {first : List Char}
    (hfirst : first <+: openBraces ++ left) (found : List Token) :
    tokenize (String.ofList first) ≠ .ok (found ++ [.tagClose]) := by
  intro htokens
  obtain ⟨parts, hparts, hsource, hfound⟩ := tokenize_eq_ok_iff.1 htokens
  rw [String.toList_ofList] at hsource
  cases hparts with
  | nil => simp at hfound
  | lastText _ _ =>
    have hlast := congrArg List.getLast? hfound
    simp [Part.tokens] at hlast
  | @text content body pieces parts hne hbraces h' =>
    -- The braces of the unclosed tag would be in the text.
    have hlen : openBraces.length ≤ first.length := by
      rw [hsource]
      simp [Part.source, openBraces]
      omega
    have hopen : openBraces <+: first :=
      List.prefix_of_prefix_length_le (List.prefix_append _ _) hfirst hlen
    obtain ⟨_, _, _, hparts⟩ := exists_tag_of_open (.text hne hbraces h') (hsource ▸ hopen)
    cases hparts
  | @tag body pieces parts hbody _ =>
    obtain ⟨more, hmore⟩ := hfirst
    rw [hsource, List.flatMap_cons, Part.source, List.append_assoc, List.append_assoc] at hmore
    exact h.ne_tag hbody (List.append_cancel_left hmore).symm

end Scanner

/-- The column is that of the character after the last line. -/
theorem column_advance_start (cs : List Char) :
    (Position.start.advance cs).column = 1 + (lastLine cs).length := by
  induction cs using List.reverseRecOn with
  | nil => rfl
  | append_singleton cs c ih =>
    rw [Position.advance_append, Position.advance_cons, Position.advance_nil, Position.next]
    by_cases hc : c = '\n'
    · rw [if_pos hc, hc, lastLine_of_getLast? (by simp)]
      rfl
    · have hline : '\n' ∉ [c] := by
        rw [List.mem_singleton]
        exact Ne.symm hc
      rw [if_neg hc, ih, lastLine_append_of_not_mem hline, List.length_append, List.length_singleton,
        Nat.add_assoc]

open Scanner (openBraces HasOpenString)

/-- A template that cannot be scanned has a tag that is not closed, and the error is at the opening
braces of this tag. What comes before them can be scanned, and no beginning of what comes from them
on ends with a tag. The fault is a comment without an end just if the tag begins as a comment with
dashes, a string without an end just if a string of the tag is not closed, and a missing end of the
tag otherwise. -/
theorem tokenize_error_at_unclosed_tag (template : String) (error : Error)
    (h : tokenize template = .error error) :
    ∃ before left position fault, template.toList = before ++ (openBraces ++ left) ∧
      error = .lex position fault ∧
      (∃ found, tokenize (String.ofList before) = .ok found) ∧
      (∀ first found, first <+: openBraces ++ left →
        tokenize (String.ofList first) ≠ .ok (found ++ [.tagClose])) ∧
      position.line = 1 + before.count '\n' ∧
      position.column = 1 + (lastLine before).length ∧
      (fault = .unterminatedComment ↔ "!--".toList <+: left) ∧
      (fault = .unterminatedString ↔ HasOpenString left) ∧
      (fault = .unterminatedExpression ↔ ¬ "!--".toList <+: left ∧ ¬ HasOpenString left) := by
  obtain ⟨parts, left, fault, hparts, hsource, hunclosed, rfl⟩ :=
    Scanner.exists_unclosed_of_tokens rfl h
  have hcomment : fault = .unterminatedComment ↔ "!--".toList <+: left := hunclosed.comment_iff
  have hstring := hunclosed.string_iff
  refine ⟨parts.flatMap Part.source, left, _, fault, hsource, rfl, ?_, ?_, ?_, ?_, hcomment, hstring,
    ?_⟩
  · exact ⟨_, tokenize_eq_ok_iff.2
      ⟨parts, Scanner.layout_before_tag hparts, String.toList_ofList, rfl⟩⟩
  · intro first found hfirst
    exact hunclosed.not_ends_with_tag hfirst found
  · exact Position.line_advance _ _
  · exact column_advance_start _
  -- There are three faults, and two of them are described.
  · rw [← hcomment, ← hstring]
    cases fault <;> simp

/-- A tag in the second line with a string that its closing braces belong to. -/
theorem tokenize_error_at_unclosed_string :
    tokenize "a\n\x7b\x7bx 'y\x7d\x7d" = .error (.lex ⟨2, 1⟩ .unterminatedString) ∧
      ∃ before left, "a\n\x7b\x7bx 'y\x7d\x7d".toList = before ++ (openBraces ++ left) ∧
        HasOpenString left ∧ before.count '\n' = 1 ∧ lastLine before = [] := by
  have hfault : Scanner.FaultText false [' ', '\'', 'y', '\x7d', '\x7d'] .unterminatedString :=
    @Scanner.FaultText.quoted false [' '] _ _ (fun c hc => List.mem_singleton.1 hc ▸ rfl) (.inr rfl)
      (by simp [Scanner.quotedString?])
  have herror :
      tokenize "a\n\x7b\x7bx 'y\x7d\x7d" = .error (.lex ⟨2, 1⟩ .unterminatedString) := by
    rw [tokenize]
    iterate 3 rw [Scanner.tokens_of_next rfl]
    rw [hfault.unclosed.tokens_eq rfl rfl rfl]
    rfl
  obtain ⟨before, left, position, fault, htemplate, hfault, -, -, hline, hcolumn, -, hstring, -⟩ :=
    tokenize_error_at_unclosed_tag _ _ herror
  obtain ⟨rfl, rfl⟩ := Error.lex.inj hfault
  exact ⟨herror, before, left, htemplate, hstring.1 rfl, (Nat.add_left_cancel hline).symm,
    List.length_eq_zero_iff.1 (Nat.add_left_cancel hcolumn).symm⟩

end BraceTemplate
