import BraceTemplate.Proofs.Results
import BraceTemplate.Proofs.Scanning.Lookahead

/-!
# The text of a tag

`PieceText` says which characters spell a piece of a tag, and `TagText` which characters spell all
that stands after the opening braces, the closing braces included. The scanner reads a tag from a
text exactly if the text begins with a `TagText`: `TagText.tokens_eq` and
`exists_tagText_of_tokens`. Neither depends on what comes after the closing braces. `FaultText` says
which characters no piece begins with, and what is wrong with a tag that goes on with them.
-/

namespace BraceTemplate.Scanner

open Text (IsSpace skipSpace isWhiteSpace)

/-- The characters of a piece with the white space before it, when the given text comes after it.
The flag says whether it is the first piece of its tag. -/
inductive PieceText : Bool → List Char → List Char → Piece → Prop
  | comment {cs after body : List Char}
      (hbody : commentBody? (cs ++ after) = .ok (body, cs.length)) :
      PieceText true ('!' :: cs) after (.word (String.ofList (Text.trim body)) (some .comment))
  | quoted {atHead : Bool} {space cs after value : List Char} {quote : Char}
      (hspace : IsSpace space) (hquote : quote = '"' ∨ quote = '\'')
      (hvalue : quotedString? quote (cs ++ after) = some (value, cs.length)) :
      PieceText atHead (space ++ quote :: cs) after (.quoted (String.ofList value))
  | sigil {space gap word after : List Char} {c : Char} {sigil : Sigil}
      (hspace : IsSpace space) (hsigil : headSigil? c = some sigil) (hgap : IsSpace gap)
      (hstart : skipSpace (word ++ after) = word ++ after) (hafter : word ++ after ≠ [])
      (hword : wordLength (word ++ after) = word.length) :
      PieceText true (space ++ c :: (gap ++ word)) after
        (.word (String.ofList word) (some sigil))
  | word {atHead : Bool} {space cs after : List Char} {c : Char}
      (hspace : IsSpace space) (hquote : ¬ (c = '"' ∨ c = '\''))
      (hhead : atHead = true → headSigil? c = none ∧ (space = [] → c ≠ '!'))
      (hword : wordLength (c :: cs ++ after) = (c :: cs).length) :
      PieceText atHead (space ++ c :: cs) after
        (.word (String.ofList (c :: cs)) (pathSigil (c :: cs)))

/-- The characters of a tag after its opening braces, and the pieces that they spell. The flag says
whether no piece of the tag has come before. -/
inductive TagText : Bool → List Char → List Piece → Prop
  | close {atHead : Bool} {space : List Char} (hspace : IsSpace space) :
      TagText atHead (space ++ closeBraces) []
  | piece {atHead : Bool} {cs rest : List Char} {piece : Piece} {pieces : List Piece}
      (hpiece : PieceText atHead cs rest piece) (hrest : TagText false rest pieces) :
      TagText atHead (cs ++ rest) (piece :: pieces)

/-- The characters of a text that a tag cannot go on with, and its fault: a comment or a string that is
not ended, or white space up to the end of the text, maybe after a sigil at the head of the tag. -/
inductive FaultText : Bool → List Char → LexFault → Prop
  | comment {cs : List Char} {fault : LexFault} (hbody : commentBody? cs = .error fault) :
      FaultText true ('!' :: cs) fault
  | quoted {atHead : Bool} {space cs : List Char} {quote : Char} (hspace : IsSpace space)
      (hquote : quote = '"' ∨ quote = '\'') (hvalue : quotedString? quote cs = none) :
      FaultText atHead (space ++ quote :: cs) .unterminatedString
  | sigil {space gap : List Char} {c : Char} {sigil : Sigil} (hspace : IsSpace space)
      (hsigil : headSigil? c = some sigil) (hgap : IsSpace gap) :
      FaultText true (space ++ c :: gap) .unterminatedExpression
  | blank {atHead : Bool} {space : List Char} (hspace : IsSpace space) :
      FaultText atHead space .unterminatedExpression

/-! ## One step -/

theorem pass_pass (s : Scanner) (first second : Nat) :
    (s.pass first).pass second = s.pass (first + second) := by
  simp only [pass, List.drop_drop, ← Position.advance_append, List.take_add]

theorem passSpace_eq {s : Scanner} {space cs : List Char} (hspace : IsSpace space)
    (hcs : skipSpace cs = cs) (hrest : s.rest = space ++ cs) :
    s.passSpace = s.pass space.length := by
  rw [passSpace, hrest, Text.takeWhile_isWhiteSpace_append hspace hcs]

theorem next_of_inTag {s : Scanner} (hin : s.inTag = true) : s.next = s.nextInTag := by
  rw [next, if_pos hin]

/-- Inside a tag, the next token comes after white space unless a comment begins here. -/
theorem nextInTag_eq {s : Scanner} (h : s.atHead = true → ∀ cs, s.rest ≠ '!' :: cs) :
    s.nextInTag = s.passSpace.nextPiece := by
  rw [nextInTag]
  split
  · next cs hhead hrest => exact absurd hrest (h hhead cs)
  · rfl

theorem nextPiece_close {s : Scanner} {after : List Char} (hrest : s.rest = closeBraces ++ after) :
    s.nextPiece = (.ok (some .tagClose), { s.pass 2 with inTag := false }) := by
  rw [nextPiece, hrest]
  simp [closeBraces]

theorem nextPiece_quote {s : Scanner} {c : Char} {cs : List Char} (hrest : s.rest = c :: cs)
    (hquote : c = '"' ∨ c = '\'') : s.nextPiece = s.nextString c cs := by
  have hclose : closeBraces.isPrefixOf (c :: cs) = false := by
    rcases hquote with rfl | rfl <;> rfl
  simp only [nextPiece, hrest, hclose, hquote, if_true, Bool.false_eq_true, if_false]

theorem nextPiece_sigil {s : Scanner} {c : Char} {cs : List Char} {sigil : Sigil}
    (hrest : s.rest = c :: cs) (hhead : s.atHead = true) (hsigil : headSigil? c = some sigil) :
    s.nextPiece = s.nextSigil sigil := by
  have hc : c = '#' ∨ c = '/' ∨ c = '^' ∨ c = '>' := by
    rw [headSigil?.eq_def] at hsigil
    split at hsigil <;> simp_all
  have hclose : closeBraces.isPrefixOf (c :: cs) = false := by
    rcases hc with rfl | rfl | rfl | rfl <;> rfl
  have hquote : ¬ (c = '"' ∨ c = '\'') := by
    rcases hc with rfl | rfl | rfl | rfl <;> decide
  simp only [nextPiece, hrest, hclose, hquote, hhead, hsigil, Bool.false_eq_true, if_false]

theorem nextPiece_word {s : Scanner} {c : Char} {cs : List Char} (hrest : s.rest = c :: cs)
    (hclose : closeBraces.isPrefixOf (c :: cs) = false) (hquote : ¬ (c = '"' ∨ c = '\''))
    (hhead : s.atHead = true → headSigil? c = none) : s.nextPiece = s.nextWord := by
  simp only [nextPiece, hrest, hclose, hquote, Bool.false_eq_true, if_false]
  cases hb : s.atHead with
  | false => rfl
  | true => rw [hhead hb]

/-- A word that is not empty starts neither with white space nor with closing braces. -/
theorem start_of_wordLength_pos {c : Char} {cs : List Char} (h : 0 < wordLength (c :: cs)) :
    isWhiteSpace c = false ∧ closeBraces.isPrefixOf (c :: cs) = false := by
  rw [wordLength] at h
  split at h
  · exact absurd h (Nat.lt_irrefl 0)
  · next hstop =>
    rw [Bool.or_eq_true, not_or, Bool.not_eq_true, Bool.not_eq_true] at hstop
    exact hstop

/-- Behind white space the scanner reads the next piece; a comment begins without any. -/
theorem nextInTag_of_space {s : Scanner} {space cs : List Char} {c : Char}
    (hspace : IsSpace space) (hc : isWhiteSpace c = false) (hrest : s.rest = space ++ c :: cs)
    (hmark : s.atHead = true → space = [] → c ≠ '!') :
    s.nextInTag = (s.pass space.length).nextPiece ∧ (s.pass space.length).rest = c :: cs := by
  have hnot : s.atHead = true → ∀ tail, s.rest ≠ '!' :: tail := by
    intro hhead tail heq
    rw [hrest] at heq
    cases space with
    | nil => exact hmark hhead rfl (List.cons.inj heq).1
    | cons d space =>
      have hd := hspace d List.mem_cons_self
      rw [(List.cons.inj heq).1] at hd
      cases hd
  constructor
  · rw [nextInTag_eq hnot, passSpace_eq hspace (Text.skipSpace_eq_self hc) hrest]
  · rw [rest_pass, hrest, List.drop_left]

theorem nextString_eq {s : Scanner} {quote : Char} {cs value : List Char} {length : Nat}
    (hvalue : quotedString? quote cs = some (value, length)) :
    s.nextString quote cs =
      (.ok (some (.piece (.quoted (String.ofList value)))),
        { s.pass (length + 1) with atHead := false }) := by
  rw [nextString, hvalue]
  rfl

theorem nextWord_eq {s : Scanner} {word after : List Char} (hrest : s.rest = word ++ after)
    (hword : wordLength (word ++ after) = word.length) :
    s.nextWord =
      (.ok (some (.piece (.word (String.ofList word) (pathSigil word)))),
        { s.pass word.length with atHead := false }) := by
  rw [nextWord]
  simp only [hrest, hword, List.take_left]
  rw [givePiece, pass, pass, hrest]

/-- A sigil takes the blank and the word behind it with it. -/
theorem nextSigil_eq {s : Scanner} {c : Char} {gap word after : List Char} (sigil : Sigil)
    (hrest : s.rest = c :: (gap ++ (word ++ after))) (hgap : IsSpace gap)
    (hstart : skipSpace (word ++ after) = word ++ after) (hafter : word ++ after ≠ [])
    (hword : wordLength (word ++ after) = word.length) :
    s.nextSigil sigil =
      (.ok (some (.piece (.word (String.ofList word) (some sigil)))),
        { s.pass (1 + gap.length + word.length) with atHead := false }) := by
  have hpass : (s.pass 1).passSpace = s.pass (1 + gap.length) := by
    rw [passSpace_eq hgap hstart (by rw [rest_pass, hrest]; rfl), pass_pass]
  have hrest' : (s.pass (1 + gap.length)).rest = word ++ after := by
    rw [← pass_pass, rest_pass, rest_pass, hrest, List.drop_one, List.tail_cons, List.drop_left]
  rw [nextSigil, hpass, ← pass_pass s (1 + gap.length)]
  generalize s.pass (1 + gap.length) = t at hrest' ⊢
  simp only [hrest', hword, List.isEmpty_iff, hafter, if_false, List.take_left]
  rw [givePiece, pass, pass, hrest']

/-- A sigil is neither white space nor the mark of a comment. -/
theorem start_of_headSigil? {c : Char} {sigil : Sigil} (h : headSigil? c = some sigil) :
    isWhiteSpace c = false ∧ c ≠ '!' := by
  rw [headSigil?.eq_def] at h
  split at h <;> first | exact ⟨rfl, by decide⟩ | cases h

/-- A quote is neither white space nor the mark of a comment. -/
theorem start_of_quote {c : Char} (h : c = '"' ∨ c = '\'') : isWhiteSpace c = false ∧ c ≠ '!' := by
  rcases h with rfl | rfl <;> exact ⟨rfl, by decide⟩

/-- The scanner reads the piece that a text spells. -/
theorem next_of_pieceText {s : Scanner} {atHead : Bool} {cs after : List Char} {piece : Piece}
    (hin : s.inTag = true) (hhead : s.atHead = atHead) (hrest : s.rest = cs ++ after)
    (h : PieceText atHead cs after piece) :
    s.next = (.ok (some (.piece piece)), { s.pass cs.length with atHead := false }) := by
  rw [next_of_inTag hin]
  cases h with
  | comment hbody =>
    rw [nextInTag, hhead, hrest]
    simp only [List.cons_append, nextComment, hbody]
    rfl
  | @quoted _ space cs _ value quote hspace hquote hvalue =>
    have hc := start_of_quote hquote
    rw [List.append_assoc, List.cons_append] at hrest
    obtain ⟨hnext, hpass⟩ := nextInTag_of_space hspace hc.1 hrest fun _ _ => hc.2
    rw [hnext, nextPiece_quote hpass hquote, nextString_eq hvalue, pass_pass, List.length_append]
    rfl
  | @sigil space gap word _ c sigil hspace hsigil hgap hstart hafter hword =>
    have hc := start_of_headSigil? hsigil
    have hrest' : s.rest = space ++ c :: (gap ++ (word ++ after)) := by simp [hrest]
    obtain ⟨hnext, hpass⟩ := nextInTag_of_space hspace hc.1 hrest' fun _ _ => hc.2
    have hlen : (space ++ c :: (gap ++ word)).length =
        space.length + (1 + gap.length + word.length) := by
      simp only [List.length_append, List.length_cons]
      omega
    rw [hnext, nextPiece_sigil hpass hhead hsigil, nextSigil_eq sigil hpass hgap hstart hafter hword,
      pass_pass, hlen]
  | @word _ space cs _ c hspace hquote hplain hword =>
    -- A word has a character, which is neither white space nor the end of the tag.
    have hlen : 0 < wordLength (c :: (cs ++ after)) := by
      rw [← List.cons_append, hword]
      exact Nat.succ_pos _
    obtain ⟨hc, hclose⟩ := start_of_wordLength_pos hlen
    rw [List.append_assoc, List.cons_append] at hrest
    obtain ⟨hnext, hpass⟩ := nextInTag_of_space hspace hc hrest fun h => (hplain (hhead ▸ h)).2
    rw [hnext, nextPiece_word hpass hclose hquote fun h => (hplain (hhead ▸ h)).1,
      nextWord_eq hpass hword, pass_pass, List.length_append]

/-- The scanner reads the closing braces of a tag. -/
theorem next_of_close {s : Scanner} {space after : List Char} (hin : s.inTag = true)
    (hspace : IsSpace space) (hrest : s.rest = space ++ (closeBraces ++ after)) :
    s.next = (.ok (some .tagClose), { s.pass (space.length + 2) with inTag := false }) := by
  obtain ⟨hnext, hpass⟩ := nextInTag_of_space (c := '\x7d') hspace rfl hrest fun _ _ => by decide
  rw [next_of_inTag hin, hnext, nextPiece_close hpass, pass_pass]

/-- Inside a tag that cannot go on the scanner gives the fault of the tag. -/
theorem next_of_faultText {s : Scanner} {atHead : Bool} {cs : List Char} {fault : LexFault}
    (hin : s.inTag = true) (hhead : s.atHead = atHead) (hrest : s.rest = cs)
    (h : FaultText atHead cs fault) : ∃ s', s.next = (.error (s.fault fault), s') := by
  rw [next_of_inTag hin]
  cases h with
  | comment hbody =>
    rw [nextInTag, hhead, hrest]
    simp only [nextComment, hbody]
    exact ⟨_, rfl⟩
  | quoted hspace hquote hvalue =>
    have hc := start_of_quote hquote
    obtain ⟨hnext, hpass⟩ := nextInTag_of_space hspace hc.1 hrest fun _ _ => hc.2
    rw [hnext, nextPiece_quote hpass hquote, nextString, hvalue]
    exact ⟨_, rfl⟩
  | @sigil space gap c sigil hspace hsigil hgap =>
    have hc := start_of_headSigil? hsigil
    obtain ⟨hnext, hpass⟩ := nextInTag_of_space hspace hc.1 hrest fun _ _ => hc.2
    have hleft : ((s.pass space.length).pass 1).passSpace.rest = [] := by
      rw [rest_passSpace, rest_pass, hpass, List.drop_one, List.tail_cons, Text.skipSpace_eq_nil hgap]
    rw [hnext, nextPiece_sigil hpass hhead hsigil, nextSigil]
    simp only [hleft, List.isEmpty_nil, if_true]
    exact ⟨_, rfl⟩
  | blank hspace =>
    have hmark : s.atHead = true → ∀ tail, s.rest ≠ '!' :: tail := by
      intro _ tail heq
      have hspace := hspace '!' (by rw [← hrest, heq]; exact List.mem_cons_self)
      cases hspace
    have hleft : s.passSpace.rest = [] := by
      rw [rest_passSpace, hrest, Text.skipSpace_eq_nil hspace]
    rw [nextInTag_eq hmark, nextPiece, hleft]
    exact ⟨_, rfl⟩

/-! ## What a step can be -/

/-- The outcomes of asking for a token inside a tag. -/
inductive TagStep (s : Scanner) : Step → Prop
  | piece {cs after : List Char} {piece : Piece} (hrest : s.rest = cs ++ after)
      (hpiece : PieceText s.atHead cs after piece) :
      TagStep s (.ok (some (.piece piece)), { s.pass cs.length with atHead := false })
  | close {space after : List Char} (hrest : s.rest = space ++ (closeBraces ++ after))
      (hspace : IsSpace space) :
      TagStep s (.ok (some .tagClose), { s.pass (space.length + 2) with inTag := false })
  | fault {fault : LexFault} (s' : Scanner) (hfault : FaultText s.atHead s.rest fault) :
      TagStep s (.error (s.fault fault), s')

theorem tagStep_of_piece {s : Scanner} {atHead : Bool} {cs after : List Char} {piece : Piece}
    (hin : s.inTag = true) (hhead : s.atHead = atHead) (hrest : s.rest = cs ++ after)
    (hpiece : PieceText atHead cs after piece) : TagStep s s.next := by
  rw [next_of_pieceText hin hhead hrest hpiece]
  exact .piece hrest (hhead ▸ hpiece)

theorem tagStep_of_fault {s : Scanner} {fault : LexFault} (hin : s.inTag = true)
    (hfault : FaultText s.atHead s.rest fault) : TagStep s s.next := by
  obtain ⟨s', hnext⟩ := next_of_faultText hin rfl rfl hfault
  rw [hnext]
  exact .fault s' hfault

/-- After an exclamation mark at its head a tag is a comment, or the comment is not ended. -/
theorem tagStep_comment {s : Scanner} {cs : List Char} (hin : s.inTag = true)
    (hhead : s.atHead = true) (hrest : s.rest = '!' :: cs) : TagStep s s.next := by
  cases hbody : commentBody? cs with
  | error fault =>
    apply tagStep_of_fault hin
    rw [hhead, hrest]
    exact .comment hbody
  | ok parts =>
    obtain ⟨body, length⟩ := parts
    obtain ⟨hle, -⟩ := commentBody?_rest hbody
    have hsplit : cs.take length ++ cs.drop length = cs := List.take_append_drop _ _
    have hpiece : PieceText true ('!' :: cs.take length) (cs.drop length)
        (.word (String.ofList (Text.trim body)) (some .comment)) := by
      apply PieceText.comment
      rw [hsplit, hbody, List.length_take, Nat.min_eq_left hle]
    exact tagStep_of_piece hin hhead (by rw [hrest, List.cons_append, hsplit]) hpiece

/-- After a quote a tag goes on with a string, or the string is not closed. -/
theorem tagStep_quoted {s : Scanner} {space cs : List Char} {c : Char} (hin : s.inTag = true)
    (hspace : IsSpace space) (hrest : s.rest = space ++ c :: cs) (hquote : c = '"' ∨ c = '\'') :
    TagStep s s.next := by
  cases hvalue : quotedString? c cs with
  | none =>
    apply tagStep_of_fault hin
    rw [hrest]
    exact .quoted hspace hquote hvalue
  | some parts =>
    obtain ⟨value, length⟩ := parts
    have hle := quotedString?_length_le hvalue
    have hsplit : cs.take length ++ cs.drop length = cs := List.take_append_drop _ _
    have hpiece : PieceText s.atHead (space ++ c :: cs.take length) (cs.drop length)
        (.quoted (String.ofList value)) := by
      apply PieceText.quoted hspace hquote
      rw [hsplit, hvalue, List.length_take, Nat.min_eq_left hle]
    refine tagStep_of_piece hin rfl ?_ hpiece
    rw [hrest, List.append_assoc, List.cons_append, hsplit]

/-- After a sigil at its head a tag goes on with a word, or the text ends. -/
theorem tagStep_sigil {s : Scanner} {space cs : List Char} {c : Char} {sigil : Sigil}
    (hin : s.inTag = true) (hhead : s.atHead = true) (hspace : IsSpace space)
    (hrest : s.rest = space ++ c :: cs) (hsigil : headSigil? c = some sigil) :
    TagStep s s.next := by
  obtain ⟨gap, hgap, hcs⟩ := Text.exists_space_append cs
  have hagain := Text.skipSpace_skipSpace cs
  generalize skipSpace cs = left at hcs hagain
  by_cases hempty : left = []
  · apply tagStep_of_fault hin
    rw [hhead, hrest, hcs, hempty, List.append_nil]
    exact .sigil hspace hsigil hgap
  · have hsplit : left.take (wordLength left) ++ left.drop (wordLength left) = left :=
      List.take_append_drop _ _
    have hpiece : PieceText true (space ++ c :: (gap ++ left.take (wordLength left)))
        (left.drop (wordLength left))
        (.word (String.ofList (left.take (wordLength left))) (some sigil)) := by
      refine .sigil hspace hsigil hgap ?_ ?_ ?_
      · rw [hsplit, hagain]
      · rw [hsplit]
        exact hempty
      · rw [hsplit, List.length_take, Nat.min_eq_left (wordLength_le _)]
    refine tagStep_of_piece hin hhead ?_ hpiece
    rw [hrest, List.append_assoc, List.cons_append, List.append_assoc, hsplit, hcs]

/-- Where nothing else begins, a tag goes on with a word. -/
theorem tagStep_word {s : Scanner} {space cs : List Char} {c : Char} (hin : s.inTag = true)
    (hspace : IsSpace space) (hrest : s.rest = space ++ c :: cs) (hc : isWhiteSpace c = false)
    (hclose : closeBraces.isPrefixOf (c :: cs) = false) (hquote : ¬ (c = '"' ∨ c = '\''))
    (hhead : s.atHead = true → headSigil? c = none ∧ (space = [] → c ≠ '!')) :
    TagStep s s.next := by
  have hlen : wordLength (c :: cs) = wordLength cs + 1 := by simp [wordLength, hc, hclose]
  have hsplit : cs.take (wordLength cs) ++ cs.drop (wordLength cs) = cs := List.take_append_drop _ _
  have hpiece : PieceText s.atHead (space ++ c :: cs.take (wordLength cs)) (cs.drop (wordLength cs))
      (.word (String.ofList (c :: cs.take (wordLength cs)))
        (pathSigil (c :: cs.take (wordLength cs)))) := by
    apply PieceText.word hspace hquote hhead
    rw [List.cons_append, hsplit, hlen, List.length_cons, List.length_take,
      Nat.min_eq_left (wordLength_le _)]
  refine tagStep_of_piece hin rfl ?_ hpiece
  rw [hrest, List.append_assoc, List.cons_append, hsplit]

/-- What asking for a token inside a tag can come to. -/
theorem tagStep_next {s : Scanner} (hin : s.inTag = true) : TagStep s s.next := by
  by_cases hmark : s.atHead = true ∧ ∃ cs, s.rest = '!' :: cs
  · obtain ⟨hhead, cs, hrest⟩ := hmark
    exact tagStep_comment hin hhead hrest
  obtain ⟨space, hspace, hsplit⟩ := Text.exists_space_append s.rest
  cases hcs : skipSpace s.rest with
  | nil =>
    apply tagStep_of_fault hin
    rw [hsplit, hcs, List.append_nil]
    exact .blank hspace
  | cons c cs =>
    have hc := Text.skipSpace_eq_cons hcs
    have hrest : s.rest = space ++ c :: cs := by rw [← hcs, ← hsplit]
    by_cases hclose : closeBraces.isPrefixOf (c :: cs) = true
    · obtain ⟨after, hafter⟩ := List.isPrefixOf_iff_prefix.1 hclose
      rw [← hafter] at hrest
      rw [next_of_close hin hspace hrest]
      exact .close hrest hspace
    by_cases hquote : c = '"' ∨ c = '\''
    · exact tagStep_quoted hin hspace hrest hquote
    by_cases hhead : s.atHead = true ∧ headSigil? c ≠ none
    · obtain ⟨sigil, hsigil⟩ := Option.ne_none_iff_exists'.1 hhead.2
      exact tagStep_sigil hin hhead.1 hspace hrest hsigil
    · refine tagStep_word hin hspace hrest hc (Bool.eq_false_iff.2 hclose) hquote fun h => ⟨?_, ?_⟩
      · exact Decidable.of_not_not fun hne => hhead ⟨h, hne⟩
      · rintro rfl rfl
        exact hmark ⟨h, cs, hrest⟩

/-! ## A whole tag -/

theorem TagText.two_le_length {atHead : Bool} {cs : List Char} {pieces : List Piece}
    (h : TagText atHead cs pieces) : 2 ≤ cs.length := by
  induction h with
  | close hspace => simp [closeBraces]
  | piece hpiece hrest ih =>
    rw [List.length_append]
    omega

theorem TagText.ne_nil {atHead : Bool} {cs : List Char} {pieces : List Piece}
    (h : TagText atHead cs pieces) : cs ≠ [] := by
  have := h.two_le_length
  exact List.ne_nil_of_length_pos (by omega)

/-- What comes after a tag has no part in the pieces of the tag. -/
theorem PieceText.append {atHead : Bool} {cs after : List Char} {piece : Piece}
    (h : PieceText atHead cs after piece) (hafter : after ≠ []) (extra : List Char) :
    PieceText atHead cs (after ++ extra) piece := by
  cases h with
  | comment hbody =>
    apply PieceText.comment
    rw [← List.append_assoc, commentBody?_append hbody]
  | quoted hspace hquote hvalue =>
    apply PieceText.quoted hspace hquote
    rw [← List.append_assoc, quotedString?_append hvalue]
  | @sigil space gap word _ c sigil hspace hsigil hgap hstart hnonempty hword =>
    -- What follows the word is what ended it, and it is still there.
    have hlen : wordLength (word ++ after) < (word ++ after).length := by
      have := List.length_pos_iff.2 hafter
      rw [hword, List.length_append]
      omega
    refine .sigil hspace hsigil hgap ?_ (by simp [hafter]) ?_
    · rw [← List.append_assoc]
      cases hcs : word ++ after with
      | nil => exact absurd hcs hnonempty
      | cons d cs => exact Text.skipSpace_eq_self (Text.skipSpace_eq_cons (hcs ▸ hstart))
    · rw [← List.append_assoc, wordLength_append hlen, hword]
  | @word _ space cs _ c hspace hquote hhead hword =>
    have hlen : wordLength (c :: cs ++ after) < (c :: cs ++ after).length := by
      have := List.length_pos_iff.2 hafter
      rw [hword, List.length_append]
      omega
    apply PieceText.word hspace hquote hhead
    rw [← List.append_assoc, wordLength_append hlen, hword]

/-- Two characters after a piece are enough to tell where it ends. -/
theorem PieceText.of_append {atHead : Bool} {cs after extra : List Char} {piece : Piece}
    (h : PieceText atHead cs (after ++ extra) piece) (hafter : 2 ≤ after.length) :
    PieceText atHead cs after piece := by
  cases h with
  | comment hbody =>
    rw [← List.append_assoc] at hbody
    refine .comment (commentBody?_of_append hbody ?_)
    rw [List.length_append]
    omega
  | quoted hspace hquote hvalue =>
    rw [← List.append_assoc] at hvalue
    refine .quoted hspace hquote (quotedString?_of_append hvalue ?_)
    rw [List.length_append]
    omega
  | @sigil space gap word _ c sigil hspace hsigil hgap hstart hnonempty hword =>
    rw [← List.append_assoc] at hstart hword
    -- Two characters are enough to tell the end of a word, as braces are the longest end.
    have hlen : wordLength (word ++ after ++ extra) + 2 ≤ (word ++ after).length := by
      rw [hword, List.length_append]
      omega
    have hne : word ++ after ≠ [] := List.ne_nil_of_length_pos (by omega)
    refine .sigil hspace hsigil hgap ?_ hne ?_
    · cases hcs : word ++ after with
      | nil => exact absurd hcs hne
      | cons d cs =>
        rw [hcs, List.cons_append] at hstart
        exact Text.skipSpace_eq_self (Text.skipSpace_eq_cons hstart)
    · rw [wordLength_of_append hlen, hword]
  | @word _ space cs _ c hspace hquote hhead hword =>
    rw [← List.append_assoc] at hword
    have hlen : wordLength (c :: cs ++ after ++ extra) + 2 ≤ (c :: cs ++ after).length := by
      rw [hword, List.length_append]
      omega
    apply PieceText.word hspace hquote hhead
    rw [wordLength_of_append hlen, hword]

theorem tokens_of_next {s s' : Scanner} {token : Token} (h : s.next = (.ok (some token), s')) :
    s.tokens = s'.tokens.map (token :: ·) := by
  rw [tokens]
  split
  · next heq => rw [h] at heq; cases heq
  · next heq => rw [h] at heq; cases heq; rfl
  · next heq => rw [h] at heq; cases heq

theorem tokens_of_next_error {s s' : Scanner} {error : Error} (h : s.next = (.error error, s')) :
    s.tokens = .error error := by
  rw [tokens]
  split
  · next heq => rw [h] at heq; cases heq
  · next heq => rw [h] at heq; cases heq
  · next heq => rw [h] at heq; cases heq; rfl

/-- The scanner that has passed so many characters and the tag in them. -/
def leaveTag (s : Scanner) (count : Nat) (atHead : Bool) : Scanner :=
  { s.pass count with inTag := false, atHead }

@[simp] theorem rest_leaveTag (s : Scanner) (count : Nat) (atHead : Bool) :
    (s.leaveTag count atHead).rest = s.rest.drop count := rfl

theorem leaveTag_pass (s : Scanner) (first second : Nat) (atHead atHead' : Bool) :
    ({ s.pass first with atHead := atHead } : Scanner).leaveTag second atHead' =
      s.leaveTag (first + second) atHead' := by
  rw [leaveTag, leaveTag, ← pass_pass]
  rfl

/-- The tokens of a tag with what its characters spell, whatever comes after it. -/
def tagTokens (pieces : List Piece) (after : List Token) : List Token :=
  pieces.map .piece ++ .tagClose :: after

/-- A text that begins with a tag is scanned into the pieces of the tag and the tokens of what
comes after it. -/
theorem TagText.tokens_eq {atHead : Bool} {cs : List Char} {pieces : List Piece}
    (h : TagText atHead cs pieces) {s : Scanner} {after : List Char} (hin : s.inTag = true)
    (hhead : s.atHead = atHead) (hrest : s.rest = cs ++ after) :
    ∃ atHead', s.tokens = (s.leaveTag cs.length atHead').tokens.map (tagTokens pieces) := by
  -- The first piece clears the flag and an empty tag leaves it, but no text outside of tags asks.
  induction h generalizing s with
  | @close atHead space hspace =>
    rw [List.append_assoc] at hrest
    refine ⟨s.atHead, ?_⟩
    rw [tokens_of_next (next_of_close hin hspace hrest), List.length_append]
    rfl
  | @piece atHead cs rest piece pieces hpiece htag ih =>
    rw [List.append_assoc] at hrest
    have hnext := next_of_pieceText hin hhead hrest (hpiece.append htag.ne_nil after)
    obtain ⟨atHead', htokens⟩ := @ih { s.pass cs.length with atHead := false } hin rfl
      (by rw [rest_pass, hrest, List.drop_left])
    refine ⟨atHead', ?_⟩
    rw [leaveTag_pass] at htokens
    rw [tokens_of_next hnext, htokens, List.length_append, Results.map_map]
    rfl

/-- A scanner inside a tag that comes to the end of its text has a tag before it. -/
theorem exists_tagText_of_tokens {s : Scanner} {found : List Token} (hin : s.inTag = true)
    (h : s.tokens = .ok found) :
    ∃ cs pieces after atHead' rest, TagText s.atHead cs pieces ∧ s.rest = cs ++ after ∧
      (s.leaveTag cs.length atHead').tokens = .ok rest ∧ found = tagTokens pieces rest := by
  -- Every piece leaves less text, and a text that is scanned to its end closes the tag.
  induction hn : s.rest.length using Nat.strongRecOn generalizing s found with
  | ind n ih =>
    have hstep := tagStep_next hin
    have hshort := shortens_next s
    generalize hnext : s.next = step at hstep hshort
    cases hstep with
    | @piece cs after piece hrest hpiece =>
      rw [tokens_of_next hnext] at h
      obtain ⟨tail, htail, rfl⟩ := Results.map_eq_ok.1 h
      have hlt := hshort _ _ rfl
      obtain ⟨text, pieces, left, atHead', rest, htag, hleft, hrest', rfl⟩ :=
        @ih _ (hn ▸ hlt) { s.pass cs.length with atHead := false } _ hin htail rfl
      have hafter : after = text ++ left := by
        rw [← hleft, rest_pass, hrest, List.drop_left]
      rw [hafter] at hpiece
      refine ⟨cs ++ text, piece :: pieces, left, atHead', rest, ?_, ?_, ?_, rfl⟩
      · exact .piece (hpiece.of_append htag.two_le_length) htag
      · rw [hrest, hafter, List.append_assoc]
      · rw [List.length_append, ← leaveTag_pass]
        exact hrest'
    | @close space after hrest hspace =>
      rw [tokens_of_next hnext] at h
      obtain ⟨tail, htail, rfl⟩ := Results.map_eq_ok.1 h
      refine ⟨space ++ closeBraces, [], after, s.atHead, tail, .close hspace, ?_, ?_, rfl⟩
      · rw [hrest, List.append_assoc]
      · rw [List.length_append]
        exact htail
    | fault s' hfault =>
      rw [tokens_of_next_error hnext] at h
      cases h

end BraceTemplate.Scanner
