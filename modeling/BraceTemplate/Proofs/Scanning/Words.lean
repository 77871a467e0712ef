import BraceTemplate.Proofs.Scanning.Printing
import BraceTemplate.Proofs.Segment

/-!
# Templates as they are usually written

The words of a tag are usually written with one space between two of them, and without white space
next to the braces. `tokenize_writeSegments` says that a template written so is scanned as its texts
and tags.
-/

namespace BraceTemplate

open Scanner (openBraces closeBraces headSigil? pathSigil wordLength TagText PieceText)
open Text (IsSpace)

/-! ## Words -/

/-- A word that can stand right before closing braces. -/
def IsBareWord (word : List Char) : Prop :=
  wordLength (word ++ closeBraces) = word.length

/-- A word without a sigil before it that can stand anywhere in a tag, also right before its closing
braces. -/
def IsBare : Piece → Prop
  | .quoted _ => False
  | .word value sigil => IsBareWord value.toList ∧ IsArgument (.word value sigil)

/-- The pieces of a tag that begins with a sigil and a word, or with a word that is not read as one
of them or as a comment. -/
def IsBareTag : List Piece → Prop
  | .word value sigil :: rest => (∀ piece ∈ rest, IsBare piece) ∧
      (sigil ∈ headSigils ∧ value ≠ "" ∧ IsBareWord value.toList ∨
        IsBare (.word value sigil) ∧ ¬ StartsWithSigil (.word value sigil) ∧
          (spell (.word value sigil)).head? ≠ some '!')
  | _ => False

instance : DecidablePred IsBareWord := fun _ => inferInstanceAs (Decidable (_ = _))

instance : DecidablePred IsBare
  | .quoted _ => .isFalse not_false
  | .word _ _ => inferInstanceAs (Decidable (_ ∧ _))

instance : DecidablePred IsBareTag
  | [] => .isFalse not_false
  | .quoted _ :: _ => .isFalse not_false
  | .word _ _ :: _ => inferInstanceAs (Decidable (_ ∧ _))

/-! ## Tags -/

/-- The pieces of a tag after the first one, each after a space, and the end of the tag. -/
def writeRest (rest : List Piece) : List Char :=
  rest.flatMap (fun piece => ' ' :: spell piece) ++ closeBraces

/-- A tag after its opening braces. -/
def writeTag : List Piece → List Char
  | [] => closeBraces
  | head :: rest => spell head ++ writeRest rest

/-- A word is as long before another one as before the end of the tag. -/
theorem IsBareWord.wordLength_writeRest {word : List Char} (h : IsBareWord word)
    (rest : List Piece) : wordLength (word ++ writeRest rest) = word.length := by
  cases rest with
  | nil => exact h
  | cons piece rest => exact wordLength_append_space (isWord_of_wordLength h) rfl

/-- A bare word is read back off its spelling, with whatever is written behind it. -/
theorem pieceText_of_isBare {atHead : Bool} {piece : Piece} {space : List Char}
    (h : IsBare piece) (hspace : IsSpace space) (rest : List Piece)
    (hhead : atHead = true → ¬ StartsWithSigil piece ∧
      (space = [] → (spell piece).head? ≠ some '!')) :
    PieceText atHead (space ++ spell piece) (writeRest rest) piece := by
  cases piece with
  | quoted text => exact h.elim
  | word value sigil =>
    obtain ⟨hbare, hargument⟩ := h
    cases hargument with
    | @word value c cs hvalue hquote hword =>
      have hspell : spell (.word value (pathSigil value.toList)) = c :: cs := by
        rw [spell, (pathSigil_cases _).1, List.nil_append, hvalue]
      have hlead : atHead = true → headSigil? c = none ∧ (space = [] → c ≠ '!') := by
        intro hat
        obtain ⟨hsigil, hmark⟩ := hhead hat
        refine ⟨?_, fun hnil heq => hmark hnil ?_⟩
        · by_contra hsome
          exact hsigil ⟨c, cs, hvalue, hsome⟩
        · rw [hspell, heq]
          rfl
      have hlength : wordLength (c :: cs ++ writeRest rest) = (c :: cs).length := by
        rw [← hvalue]
        exact hbare.wordLength_writeRest rest
      have hpiece : Piece.word (String.ofList (c :: cs)) (pathSigil (c :: cs)) =
          .word value (pathSigil value.toList) := by
        rw [← hvalue, String.ofList_toList]
      rw [hspell, ← hpiece]
      exact .word hspace hquote hlead hlength

theorem tagText_writeRest {rest : List Piece} (h : ∀ piece ∈ rest, IsBare piece) :
    TagText false (writeRest rest) rest := by
  induction rest with
  | nil => exact tagText_close false
  | cons piece rest ih =>
    rw [List.forall_mem_cons] at h
    have hspace : IsSpace [' '] := List.forall_mem_singleton.2 rfl
    have hpiece := pieceText_of_isBare h.1 hspace rest fun hat => absurd hat Bool.false_ne_true
    have htag := TagText.piece hpiece (ih h.2)
    rwa [writeRest, List.flatMap_cons, List.append_assoc] 

/-- A tag of words is scanned as it is written. -/
theorem tagText_writeTag {pieces : List Piece} (h : IsBareTag pieces) :
    TagText true (writeTag pieces) pieces := by
  cases pieces with
  | nil => exact h.elim
  | cons head rest =>
    cases head with
    | quoted text => exact h.elim
    | word value sigil =>
      obtain ⟨hrest, ⟨hsigil, hne, hbare⟩ | ⟨hbare, hplain, hmark⟩⟩ := h
      · obtain ⟨c, found, hfound, rfl⟩ := mem_headSigils_iff.1 hsigil
        have hword := isWord_of_wordLength hbare
        obtain ⟨d, ds, hvalue⟩ := List.exists_cons_of_ne_nil (mt String.toList_eq_nil_iff.1 hne)
        -- The word follows its sigil at once, so that there is no blank to skip.
        have hstart : Text.skipSpace (value.toList ++ writeRest rest) =
            value.toList ++ writeRest rest := by
          rw [hvalue]
          exact Text.skipSpace_eq_self (hword.no_space d (hvalue ▸ List.mem_cons_self))
        have hafter : value.toList ++ writeRest rest ≠ [] := by simp [hvalue]
        have hpiece := PieceText.sigil Text.isSpace_nil hfound Text.isSpace_nil hstart hafter
          (hbare.wordLength_writeRest rest)
        rw [String.ofList_toList] at hpiece
        have htag := TagText.piece hpiece (tagText_writeRest hrest)
        rwa [writeTag, spell, (sigilMark_of_headSigil? hfound).1]
      · have hlead : true = true → ¬ StartsWithSigil (.word value sigil) ∧
            (([] : List Char) = [] → (spell (.word value sigil)).head? ≠ some '!') :=
          fun _ => ⟨hplain, fun _ => hmark⟩
        have hpiece := pieceText_of_isBare hbare Text.isSpace_nil rest hlead
        exact TagText.piece hpiece (tagText_writeRest hrest)

/-! ## Templates -/

/-- A text as it stands, or a tag of words as it is written. -/
def Part.ofSegment : Segment String (List Piece) → Part
  | .outside content => .text content.toList
  | .tag pieces => .tag (writeTag pieces) pieces

/-- Texts and tags as they are written in a row. -/
def writeSegments (segments : List (Segment String (List Piece))) : List Char :=
  (segments.map Part.ofSegment).flatMap Part.source

/-- Tags of words, and texts that are not empty, hold no opening braces and do not meet. -/
def IsWritten : List (Segment String (List Piece)) → Prop
  | [] => True
  | .outside content :: segments =>
    (content ≠ "" ∧ ¬ openBraces <:+: content.toList ++ ['\x7b'] ∧
      segments.head?.all (·.tag?.isSome) = true) ∧ IsWritten segments
  | .tag pieces :: segments => IsBareTag pieces ∧ IsWritten segments

instance : (segments : List (Segment String (List Piece))) → Decidable (IsWritten segments)
  | [] => .isTrue trivial
  | .outside _ :: segments =>
    have := instDecidableIsWritten segments
    inferInstanceAs (Decidable (_ ∧ _))
  | .tag _ :: segments =>
    have := instDecidableIsWritten segments
    inferInstanceAs (Decidable (_ ∧ _))

/-- What is written as texts and tags is laid out as these. -/
theorem layout_of_isWritten {segments : List (Segment String (List Piece))}
    (h : IsWritten segments) : Layout (segments.map Part.ofSegment) := by
  induction segments with
  | nil => exact .nil
  | cons segment segments ih =>
    cases segment with
    | tag pieces => exact .tag (tagText_writeTag h.1) (ih h.2)
    | outside content =>
      obtain ⟨⟨hne, hbraces, hnext⟩, hrest⟩ := h
      have hcontent : content.toList ≠ [] := mt String.toList_eq_nil_iff.1 hne
      cases segments with
      | nil =>
        exact .lastText hcontent fun hopen => hbraces (hopen.trans (List.prefix_append _ _).isInfix)
      | cons next segments =>
        cases next with
        | outside other => cases hnext
        | tag pieces => exact .text hcontent hbraces (ih hrest)

theorem tokens_ofSegment (segment : Segment String (List Piece)) :
    (Part.ofSegment segment).tokens = segment.toTokens := by
  cases segment with
  | outside content =>
    rw [Part.ofSegment, Part.tokens, String.ofList_toList]
    rfl
  | tag pieces => rfl

/-- A template is scanned as the texts and tags that it is written of. -/
theorem tokenize_writeSegments {text : String} {segments : List (Segment String (List Piece))}
    (h : IsWritten segments) (htext : text.toList = writeSegments segments) :
    tokenize text = .ok (segments.flatMap Segment.toTokens) := by
  refine tokenize_eq_ok_iff.2 ⟨_, layout_of_isWritten h, htext, ?_⟩
  rw [List.flatMap_map]
  exact List.flatMap_congr fun segment _ => (tokens_ofSegment segment).symm

end BraceTemplate
