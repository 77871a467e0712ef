import BraceTemplate.Proofs.Scanning.Contents

/-!
# Well-formed token lists and how they print

`WellFormed` says which token lists a scanner can give. `print` writes a token list as a template,
with white space around every token of a tag, and `tokenize_image_and_print` shows that scanning
gives well-formed lists only and gives every one of them back from its print.
-/

namespace BraceTemplate

open Text (IsSpace)
open Scanner (openBraces closeBraces longCommentEnd headSigil? pathSigil wordLength quotedString?
  commentBody? TagText PieceText tagTokens)

/-! ## Well-formed token lists -/

/-- The token lists that a scanner can give. -/
inductive WellFormed : List Token → Prop
  | nil : WellFormed []
  | lastText {content : String} (hne : content ≠ "") (hbraces : ¬ openBraces <:+: content.toList) :
      WellFormed [.text content]
  | text {content : String} {tokens : List Token} (hne : content ≠ "")
      (hbraces : ¬ openBraces <:+: content.toList)
      (hlast : content.toList.getLast? ≠ some '\x7b') (h : WellFormed (.tagOpen :: tokens)) :
      WellFormed (.text content :: .tagOpen :: tokens)
  | tag {pieces : List Piece} {tokens : List Token} (hpieces : TagContents pieces)
      (h : WellFormed tokens) :
      WellFormed (.tagOpen :: (pieces.map .piece ++ .tagClose :: tokens))

/-! ## Printing -/

/-- A character of a string between double quotes. -/
def escapeChar (c : Char) : List Char :=
  if c = '"' ∨ c = '\\' then ['\\', c] else [c]

/-- The character that a sigil stands for, if it is not a part of the word itself. -/
def sigilMark : Option Sigil → List Char
  | some .blockOpen => ['#']
  | some .blockClose => ['/']
  | some .inverted => ['^']
  | some .partialCall => ['>']
  | _ => []

/-- A string in quotes, or a word after the character of its sigil. -/
def spell : Piece → List Char
  | .quoted value => '"' :: (value.toList.flatMap escapeChar ++ ['"'])
  | .word value sigil => sigilMark sigil ++ value.toList

/-- A token as it is printed, with the given white space around it if it stands in a tag. -/
def printToken (gap : List Char) : Token → List Char
  | .text content => content.toList
  | .tagOpen => openBraces
  | .tagClose => closeBraces
  | .piece (.word value (some .comment)) =>
    ['!', '-', '-'] ++ gap ++ value.toList ++ gap ++ ['-', '-']
  | .piece piece => gap ++ spell piece ++ gap

/-- The template that a list of tokens prints as. -/
def print (gap : List Char) (tokens : List Token) : String :=
  String.ofList (tokens.flatMap (printToken gap))

/-! ## What the scanner gives is well formed -/

/-- Opening braces in a text before a tag: in the text itself, or with its last character. -/
theorem openBraces_infix_append_iff {cs : List Char} :
    openBraces <:+: cs ++ ['\x7b'] ↔ openBraces <:+: cs ∨ cs.getLast? = some '\x7b' := by
  induction cs with
  | nil => simp [openBraces, List.infix_cons_iff]
  | cons c cs ih =>
    rw [List.cons_append, List.infix_cons_iff, ih, List.infix_cons_iff]
    cases cs with
    | nil => simp [openBraces, eq_comm (a := c)]
    | cons d cs =>
      have hstarts : openBraces <+: c :: (d :: cs ++ ['\x7b']) ↔ openBraces <+: c :: d :: cs := by
        simp [openBraces, List.cons_prefix_cons]
      rw [hstarts, List.getLast?_cons_cons, or_assoc]

/-- Scanning a template gives well-formed tokens. -/
theorem wellFormed_of_layout {parts : List Part} (h : Layout parts) :
    WellFormed (parts.flatMap Part.tokens) := by
  induction h with
  | nil => exact .nil
  | @lastText content hne hbraces =>
    refine .lastText ?_ ?_
    · intro hempty
      exact hne (by rw [← String.toList_ofList (l := content), hempty]; rfl)
    · rwa [String.toList_ofList]
  | @text content body pieces parts hne hbraces h ih =>
    -- No braces within the text, and none made of its last character and the next tag.
    rw [openBraces_infix_append_iff, not_or] at hbraces
    rw [List.flatMap_cons, Part.tokens, List.singleton_append]
    refine .text ?_ ?_ ?_ ih
    · intro hempty
      exact hne (by rw [← String.toList_ofList (l := content), hempty]; rfl)
    · rw [String.toList_ofList]
      exact hbraces.1
    · rw [String.toList_ofList]
      exact hbraces.2
  | @tag body pieces parts hbody h ih =>
    have htokens : (Part.tag body pieces :: parts).flatMap Part.tokens =
        .tagOpen :: (pieces.map .piece ++ .tagClose :: parts.flatMap Part.tokens) := by
      rw [List.flatMap_cons, Part.tokens, List.cons_append, Scanner.tagTokens_append, tagTokens,
        List.nil_append]
    rw [htokens]
    exact .tag (tagContents_of_tagText hbody) ih

/-! ## What is printed is scanned again -/

/-- Backslashes before quotes and backslashes keep a string as it is. -/
theorem quotedString?_escapeChar (value after : List Char) :
    quotedString? '"' (value.flatMap escapeChar ++ '"' :: after) =
      some (value, (value.flatMap escapeChar ++ ['"']).length) := by
  induction value with
  | nil => exact Scanner.quotedString?_quote '"' after
  | cons c value ih =>
    rw [List.flatMap_cons, List.append_assoc, List.append_assoc, List.length_append, escapeChar]
    by_cases hescape : c = '"' ∨ c = '\\'
    · have hsame : Scanner.unescape c = c := by rcases hescape with rfl | rfl <;> rfl
      rw [if_pos hescape, List.cons_append, List.cons_append,
        Scanner.quotedString?_escape (by decide), List.nil_append, ih, Option.map_some, hsame]
      simp only [List.length_cons, List.length_nil]
      rw [Nat.add_comm]
    · rw [if_neg hescape, List.singleton_append, Scanner.quotedString?_char (mt .inl hescape)
        (mt .inr hescape), ih, Option.map_some]
      rw [List.length_singleton, Nat.add_comm]

/-- A word ends before white space. -/
theorem wordLength_append_space {word after : List Char} {d : Char} (hword : IsWord word)
    (hd : Text.isWhiteSpace d = true) : wordLength (word ++ d :: after) = word.length := by
  induction word with
  | nil => rw [List.nil_append, wordLength, hd, Bool.true_or, if_pos rfl, List.length_nil]
  | cons c word ih =>
    have hc : Text.isWhiteSpace c = false := hword.no_space c List.mem_cons_self
    have hclose : closeBraces.isPrefixOf (c :: (word ++ d :: after)) = false := by
      rw [Bool.eq_false_iff, ne_eq, List.isPrefixOf_iff_prefix]
      intro hstarts
      -- Closing braces would have to take the white space in, or be in the word.
      cases word with
      | nil =>
        rw [closeBraces, List.cons_prefix_cons, List.nil_append, List.cons_prefix_cons] at hstarts
        have hbrace : d = '\x7d' := hstarts.2.1.symm
        rw [hbrace] at hd
        cases hd
      | cons e word =>
        refine hword.no_braces (List.IsPrefix.isInfix ?_)
        simpa [closeBraces] using hstarts
    have htail : IsWord word :=
      ⟨fun e he => hword.no_space e (List.mem_cons_of_mem c he),
        fun hwithin => hword.no_braces (hwithin.trans (List.suffix_cons c word).isInfix)⟩
    rw [List.cons_append, wordLength, hc, hclose, Bool.false_or, if_neg Bool.false_ne_true, ih htail,
      List.length_cons]

/-- The sigil of a path is a part of its word, and no comment has it. -/
theorem pathSigil_cases (word : List Char) :
    sigilMark (pathSigil word) = [] ∧ pathSigil word ≠ some .comment := by
  have hall : ∀ sigil ∈ pathSigils, sigilMark sigil = [] ∧ sigil ≠ some .comment := by decide
  exact hall _ (pathSigil_mem word)

/-- A piece that can stand anywhere in a tag is scanned from its print. -/
theorem pieceText_of_isArgument {atHead : Bool} {piece : Piece} {space after : List Char} {d : Char}
    (h : IsArgument piece) (hsigil : atHead = true → ¬ StartsWithSigil piece)
    (hspace : IsSpace space) (hne : space ≠ []) (hd : Text.isWhiteSpace d = true) :
    PieceText atHead (space ++ spell piece) (d :: after) piece := by
  cases h with
  | quoted value =>
    have hread : quotedString? '"' (value.toList.flatMap escapeChar ++ ['"'] ++ d :: after) =
        some (value.toList, (value.toList.flatMap escapeChar ++ ['"']).length) := by
      rw [List.append_assoc, List.singleton_append]
      exact quotedString?_escapeChar value.toList (d :: after)
    have hpiece := @PieceText.quoted atHead _ _ _ _ _ hspace (.inl rfl) hread
    rwa [String.ofList_toList] at hpiece
  | @word value c cs hvalue hquote hword =>
    -- In front, a word with a sigil or an exclamation mark would be read as something else.
    have hhead : atHead = true → headSigil? c = none ∧ (space = [] → c ≠ '!') := by
      intro hhead
      refine ⟨?_, fun hnil => absurd hnil hne⟩
      by_contra hsome
      exact hsigil hhead ⟨c, cs, hvalue, hsome⟩
    have hlength : wordLength (c :: cs ++ d :: after) = (c :: cs).length :=
      wordLength_append_space (hvalue ▸ hword) hd
    have hpiece := PieceText.word hspace hquote hhead hlength
    rw [spell, (pathSigil_cases _).1, List.nil_append]
    rwa [← hvalue, String.ofList_toList] at hpiece

theorem tagText_close (atHead : Bool) : TagText atHead closeBraces [] :=
  .close Text.isSpace_nil

section Print

variable {gap : List Char}

theorem printToken_word (value : String) {sigil : Option Sigil} (h : sigil ≠ some .comment) :
    printToken gap (.piece (.word value sigil)) = gap ++ spell (.word value sigil) ++ gap := by
  rw [printToken.eq_def]
  split <;> first | rfl | simp_all

theorem printToken_of_isArgument {piece : Piece} (h : IsArgument piece) :
    printToken gap (.piece piece) = gap ++ spell piece ++ gap := by
  cases h with
  | quoted value => rfl
  | word => exact printToken_word _ (pathSigil_cases _).2

/-- Pieces that can stand anywhere in a tag are scanned from their print. -/
theorem tagText_of_isArgument (hgap : IsSpace gap) (hne : gap ≠ []) {pieces : List Piece}
    (h : ∀ piece ∈ pieces, IsArgument piece) {space : List Char} (hspace : IsSpace space) :
    TagText false (space ++ (pieces.map .piece).flatMap (printToken gap) ++ closeBraces)
      pieces := by
  induction pieces generalizing space with
  | nil =>
    rw [List.map_nil, List.flatMap_nil, List.append_nil]
    exact .close hspace
  | cons piece pieces ih =>
    have hpiece := h piece List.mem_cons_self
    obtain ⟨d, gap', rfl⟩ := List.exists_cons_of_ne_nil hne
    have hd := hgap d List.mem_cons_self
    have htail := ih (fun piece hmem => h piece (List.mem_cons_of_mem _ hmem)) hgap
    have hhead : PieceText false (space ++ d :: gap' ++ spell piece)
        (d :: gap' ++ (pieces.map .piece).flatMap (printToken (d :: gap')) ++ closeBraces) piece :=
      pieceText_of_isArgument hpiece (fun h => absurd h Bool.false_ne_true)
        (Text.isSpace_append hspace hgap) (by simp)
        hd
    rw [List.map_cons, List.flatMap_cons, printToken_of_isArgument hpiece]
    simpa only [List.append_assoc, List.cons_append] using TagText.piece hhead htail

theorem sigilMark_of_headSigil? {c : Char} {sigil : Sigil} (h : headSigil? c = some sigil) :
    sigilMark (some sigil) = [c] ∧ some sigil ≠ some .comment := by
  unfold headSigil? at h
  split at h <;> cases h <;> exact ⟨rfl, by decide⟩

/-- A word after a sigil is scanned from its print. -/
theorem tagText_of_sigil (hgap : IsSpace gap) (hne : gap ≠ []) {value : String} {c : Char}
    {sigil : Sigil} {rest : List Piece} (hsigil : headSigil? c = some sigil)
    (hword : IsWord value.toList) (hempty : value = "" → rest = [])
    (hrest : ∀ piece ∈ rest, IsArgument piece) :
    TagText true (gap ++ [c] ++ value.toList ++ gap ++
      (rest.map .piece).flatMap (printToken gap) ++ closeBraces)
      (.word value (some sigil) :: rest) := by
  cases hvalue : value.toList with
  | nil =>
    -- The white space after the sigil leads up to the closing braces.
    have hnil : value = "" := String.toList_eq_nil_iff.1 hvalue
    subst hnil
    rw [hempty rfl]
    have hpiece : PieceText true (gap ++ c :: (gap ++ [])) closeBraces
        (.word (String.ofList []) (some sigil)) :=
      .sigil hgap hsigil hgap rfl (by simp [closeBraces]) rfl
    simpa using TagText.piece hpiece (tagText_close false)
  | cons v cs =>
    obtain ⟨d, gap', rfl⟩ := List.exists_cons_of_ne_nil hne
    have hd := hgap d List.mem_cons_self
    rw [hvalue] at hword
    have hv : Text.isWhiteSpace v = false := hword.no_space v List.mem_cons_self
    have hpiece : PieceText true (d :: gap' ++ c :: ([] ++ v :: cs))
        (d :: gap' ++ (rest.map .piece).flatMap (printToken (d :: gap')) ++ closeBraces)
        (.word (String.ofList (v :: cs)) (some sigil)) :=
      .sigil hgap hsigil Text.isSpace_nil (Text.skipSpace_eq_self hv) (by simp)
        (wordLength_append_space hword hd)
    have htag := TagText.piece hpiece (tagText_of_isArgument hgap hne hrest hgap)
    rw [← hvalue, String.ofList_toList] at htag
    simpa [hvalue] using htag

/-- A trimmed comment is read from its print. -/
theorem commentBody?_print (hgap : IsSpace gap) (hne : gap ≠ []) {value : List Char}
    (htrim : Text.trim value = value) (hend : ¬ longCommentEnd <:+: value) :
    ∃ body, Text.trim body = value ∧
      commentBody? (['-', '-'] ++ gap ++ value ++ gap ++ ['-', '-'] ++ closeBraces) =
        .ok (body, (['-', '-'] ++ gap ++ value ++ gap ++ ['-', '-']).length) := by
  refine ⟨gap ++ value ++ gap, (Text.trim_append hgap hgap).trans htrim, ?_⟩
  have hsplit : Text.splitAtMarker longCommentEnd (gap ++ value ++ gap ++ longCommentEnd) =
      some (gap ++ value ++ gap, longCommentEnd) := by
    refine (Text.splitAtMarker_append_eq_some_iff (by simp [longCommentEnd])).2
      ⟨List.prefix_rfl, ?_⟩
    intro hwithin
    have hmarker : ∀ c ∈ longCommentEnd, Text.isWhiteSpace c = false := by
      simp only [longCommentEnd, List.forall_mem_cons]
      exact ⟨rfl, rfl, rfl, rfl, List.forall_mem_nil _⟩
    rw [List.append_assoc, List.append_assoc] at hwithin
    -- White space is no part of a marker, so that one within the gaps would be in the value.
    have hlater := Text.infix_of_space_append hgap hmarker hwithin
    rcases Text.infix_of_append_space hgap hne hmarker hlater with hvalue | hlast
    · exact hend hvalue
    · have := hlast.length_le
      rw [List.length_dropLast] at this
      exact absurd this (by decide)
  have hcs : ['-', '-'] ++ gap ++ value ++ gap ++ ['-', '-'] ++ closeBraces =
      '-' :: '-' :: (gap ++ value ++ gap ++ longCommentEnd) := by
    simp [longCommentEnd, closeBraces]
  rw [hcs, commentBody?, hsplit]
  simp
  omega

/-- The contents of a tag are scanned from their print. -/
theorem tagText_of_tagContents (hgap : IsSpace gap) (hne : gap ≠ []) {pieces : List Piece}
    (h : TagContents pieces) :
    TagText true ((pieces.map .piece).flatMap (printToken gap) ++ closeBraces) pieces := by
  -- The gap has a first character, and that is what ends each word before it.
  obtain ⟨d, gap', rfl⟩ := List.exists_cons_of_ne_nil hne
  have hd := hgap d List.mem_cons_self
  cases h with
  | empty => exact tagText_close true
  | @plain head rest hhead hsigil hrest =>
    have htail := tagText_of_isArgument hgap hne hrest hgap
    have hpiece : PieceText true (d :: gap' ++ spell head)
        (d :: gap' ++ (rest.map .piece).flatMap (printToken (d :: gap')) ++ closeBraces) head :=
      pieceText_of_isArgument hhead (fun _ => hsigil) hgap hne hd
    rw [List.map_cons, List.flatMap_cons, printToken_of_isArgument hhead]
    simpa only [List.append_assoc, List.cons_append] using TagText.piece hpiece htail
  | @sigil value c sigil rest hsigil hword hempty hrest =>
    obtain ⟨hmark, hcomment⟩ := sigilMark_of_headSigil? hsigil
    have htag := tagText_of_sigil hgap hne hsigil hword hempty hrest
    rw [List.map_cons, List.flatMap_cons, printToken_word value hcomment, spell, hmark]
    simpa only [List.append_assoc] using htag
  | @comment value htrim hend =>
    obtain ⟨body, hbody, hread⟩ := commentBody?_print hgap hne htrim hend
    have htag := TagText.piece (.comment hread) (tagText_close false)
    rw [hbody, String.ofList_toList] at htag
    simpa [printToken] using htag

end Print

/-! ## Both directions -/

/-- A well-formed list of tokens is printed as a template that is laid out in its texts and tags. -/
theorem exists_layout_of_wellFormed {gap : List Char} (hgap : IsSpace gap) (hne : gap ≠ [])
    {tokens : List Token} (h : WellFormed tokens) :
    ∃ parts, Layout parts ∧ tokens.flatMap (printToken gap) = parts.flatMap Part.source ∧
      tokens = parts.flatMap Part.tokens := by
  have hcontent : ∀ {content : String}, content ≠ "" → content.toList ≠ [] :=
    fun hne hnil => hne (String.toList_inj.1 hnil)
  induction h with
  | nil => exact ⟨[], .nil, rfl, rfl⟩
  | @lastText content hempty hbraces =>
    refine ⟨[.text content.toList], .lastText (hcontent hempty) hbraces, rfl, ?_⟩
    rw [List.flatMap_singleton, Part.tokens, String.ofList_toList]
  | @text content tokens hempty hbraces hlast h ih =>
    obtain ⟨parts, hparts, hprint, htokens⟩ := ih
    -- What is printed after the text begins with braces, and so do its parts.
    have hopen : openBraces <+: parts.flatMap Part.source := by
      rw [← hprint, List.flatMap_cons]
      exact List.prefix_append _ _
    obtain ⟨body, pieces, rest, rfl⟩ := Scanner.exists_tag_of_open hparts hopen
    refine ⟨.text content.toList :: .tag body pieces :: rest, .text (hcontent hempty) ?_ hparts,
      ?_, ?_⟩
    · rw [openBraces_infix_append_iff, not_or]
      exact ⟨hbraces, hlast⟩
    · rw [List.flatMap_cons, hprint]
      rfl
    · have htext : Part.tokens (.text content.toList) = [.text content] := by
        rw [Part.tokens, String.ofList_toList]
      rw [htokens, List.flatMap_cons (x := Part.text content.toList), htext]
      rfl
  | @tag pieces tokens hpieces h ih =>
    obtain ⟨parts, hparts, hprint, htokens⟩ := ih
    refine ⟨.tag _ pieces :: parts, .tag (tagText_of_tagContents hgap hne hpieces) hparts, ?_, ?_⟩
    · rw [List.flatMap_cons, List.flatMap_append, List.flatMap_cons, hprint, List.flatMap_cons]
      simp only [Part.source, printToken, List.append_assoc]
    · rw [List.flatMap_cons, Part.tokens, List.cons_append, Scanner.tagTokens_append, htokens]
      rfl

/-- A well-formed list of tokens is scanned from its print. -/
theorem tokenize_print {gap : List Char} (hgap : IsSpace gap) (hne : gap ≠ []) {tokens : List Token}
    (h : WellFormed tokens) : tokenize (print gap tokens) = .ok tokens := by
  obtain ⟨parts, hparts, hprint, htokens⟩ := exists_layout_of_wellFormed hgap hne h
  rw [tokenize_eq_ok_iff]
  exact ⟨parts, hparts, by rw [print, String.toList_ofList, hprint], htokens⟩

/-- Scanning gives well-formed lists of tokens only, and gives every one of them back from its
print. -/
theorem tokenize_image_and_print :
    (∀ template tokens, tokenize template = .ok tokens → WellFormed tokens) ∧
      ∀ gap, IsSpace gap → gap ≠ [] → ∀ tokens, WellFormed tokens →
        tokenize (print gap tokens) = .ok tokens := by
  constructor
  · intro template tokens h
    obtain ⟨parts, hparts, -, rfl⟩ := tokenize_eq_ok_iff.1 h
    exact wellFormed_of_layout hparts
  · intro gap hgap hne tokens h
    exact tokenize_print hgap hne h

/-- A text and an opener with a path and a string that holds a quote: the tokens are well formed,
and they are scanned from their print. -/
theorem tokenize_image_and_print_opener :
    let tokens : List Token := [.text "a\x7b b", .tagOpen, .piece (.word "if" (some .blockOpen)),
      .piece (.word "../x" (some .parent)), .piece (.quoted "say \"\\\""), .tagClose]
    WellFormed tokens ∧
      tokenize "a\x7b b\x7b\x7b #if  ../x  \"say \\\"\\\\\\\"\" \x7d\x7d" = .ok tokens ∧
      tokenize (print [' '] tokens) = .ok tokens := by
  intro tokens
  have hrest : ∀ piece ∈ [Piece.word "../x" (some .parent), .quoted "say \"\\\""],
      IsArgument piece := by
    simp only [List.forall_mem_cons, List.not_mem_nil, false_implies, implies_true, and_true]
    have hpath : IsWord "../x".toList := @isWord_of_wordLength _ [] rfl
    exact ⟨.word rfl (by decide) hpath, .quoted _⟩
  have hopener : IsWord "if".toList := @isWord_of_wordLength _ [] rfl
  have hwf : WellFormed tokens :=
    .text (by decide) (by decide) (by decide)
      (.tag (.sigil (c := '#') rfl hopener (by decide) hrest) .nil)
  have hprint : tokenize (print [' '] tokens) = .ok tokens :=
    tokenize_image_and_print.2 [' '] (fun c hc => List.mem_singleton.1 hc ▸ rfl) (by decide) tokens
      hwf
  exact ⟨tokenize_image_and_print.1 _ _ hprint, hprint, hprint⟩

end BraceTemplate
