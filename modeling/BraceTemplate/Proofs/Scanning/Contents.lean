import BraceTemplate.Proofs.Scanning.Layout

/-!
# What a tag can hold

`TagContents` says which pieces can stand between the braces of a tag, without a word about the
characters that spell them: a comment, or strings and words of which the first may have a sigil.
The scanner gives no other tags, by `tagContents_of_tagText`.
-/

namespace BraceTemplate

open Scanner (closeBraces longCommentEnd headSigil? pathSigil wordLength commentBody? TagText
  PieceText)

/-- The letters of a word: no white space and no closing braces. -/
structure IsWord (cs : List Char) : Prop where
  no_space : ∀ c ∈ cs, Text.isWhiteSpace c = false
  no_braces : ¬ closeBraces <:+: cs

/-- A piece that can stand anywhere in a tag: a string, or a word that is not empty and does not
start with a quote. -/
inductive IsArgument : Piece → Prop
  | quoted (value : String) : IsArgument (.quoted value)
  | word {value : String} {c : Char} {cs : List Char} (hvalue : value.toList = c :: cs)
      (hquote : ¬ (c = '"' ∨ c = '\'')) (hword : IsWord value.toList) :
      IsArgument (.word value (pathSigil value.toList))

/-- A word that would be read as a sigil and the word after it at the head of a tag. -/
def StartsWithSigil : Piece → Prop
  | .quoted _ => False
  | .word value _ => ∃ c cs, value.toList = c :: cs ∧ headSigil? c ≠ none

/-- What can stand between the braces of a tag: a trimmed comment, or strings and words of which
the first may have a sigil. -/
inductive TagContents : List Piece → Prop
  | comment {value : String} (htrim : Text.trim value.toList = value.toList)
      (hend : ¬ longCommentEnd <:+: value.toList) : TagContents [.word value (some .comment)]
  | empty : TagContents []
  | sigil {value : String} {c : Char} {sigil : Sigil} {rest : List Piece}
      (hsigil : headSigil? c = some sigil) (hword : IsWord value.toList)
      (hempty : value = "" → rest = []) (hrest : ∀ piece ∈ rest, IsArgument piece) :
      TagContents (.word value (some sigil) :: rest)
  | plain {head : Piece} {rest : List Piece} (hhead : IsArgument head)
      (hsigil : ¬ StartsWithSigil head) (hrest : ∀ piece ∈ rest, IsArgument piece) :
      TagContents (head :: rest)

/-- The sigils that are a part of the word they belong to. -/
def pathSigils : List (Option Sigil) := [none, some .data, some .parent, some .this]

theorem pathSigil_mem (word : List Char) : pathSigil word ∈ pathSigils := by
  rw [pathSigil]
  split
  · decide
  · split
    · decide
    · split <;> decide

theorem sigil_mem_of_isArgument {value : String} {sigil : Option Sigil}
    (h : IsArgument (.word value sigil)) : sigil ∈ pathSigils := by
  cases h with
  | word => exact pathSigil_mem _

theorem headSigil?_cases {c : Char} {sigil : Sigil} (h : headSigil? c = some sigil) :
    sigil = .blockOpen ∨ sigil = .blockClose ∨ sigil = .inverted ∨ sigil = .partialCall := by
  unfold headSigil? at h
  split at h <;> cases h <;> simp

/-! ## Which tags there can be is decidable -/

theorem isWord_iff {cs : List Char} :
    IsWord cs ↔ cs.any Text.isWhiteSpace = false ∧ ¬ closeBraces <:+: cs := by
  simp only [List.any_eq_false, Bool.not_eq_true]
  exact ⟨fun h => ⟨h.no_space, h.no_braces⟩, fun h => ⟨h.1, h.2⟩⟩

instance : DecidablePred IsWord := fun _ => decidable_of_iff _ isWord_iff.symm

/-- A word is an argument when it has no quote in front and its sigil is the one it spells. -/
theorem isArgument_word_iff {value : String} {sigil : Option Sigil} :
    IsArgument (.word value sigil) ↔ value.toList ≠ [] ∧ value.toList.head? ≠ some '"' ∧
      value.toList.head? ≠ some '\'' ∧ IsWord value.toList ∧ sigil = pathSigil value.toList := by
  constructor
  · rintro (_ | ⟨hvalue, hquote, hword⟩)
    rw [not_or] at hquote
    refine ⟨?_, ?_, ?_, hword, rfl⟩ <;> rw [hvalue]
    · exact List.cons_ne_nil _ _
    · exact fun h => hquote.1 (Option.some.inj h)
    · exact fun h => hquote.2 (Option.some.inj h)
  · rintro ⟨hne, hdouble, hsingle, hword, rfl⟩
    obtain ⟨c, cs, hvalue⟩ := List.exists_cons_of_ne_nil hne
    rw [hvalue] at hdouble hsingle
    exact .word hvalue (by rintro (rfl | rfl) <;> contradiction) hword

instance : DecidablePred IsArgument
  | .quoted value => .isTrue (.quoted value)
  | .word _ _ => decidable_of_iff _ isArgument_word_iff.symm

theorem startsWithSigil_word_iff {value : String} {sigil : Option Sigil} :
    StartsWithSigil (.word value sigil) ↔ value.toList.head?.bind headSigil? ≠ none := by
  rw [StartsWithSigil]
  cases value.toList with
  | nil => simp
  | cons c cs => simp

instance : DecidablePred StartsWithSigil
  | .quoted _ => .isFalse not_false
  | .word _ _ => decidable_of_iff _ startsWithSigil_word_iff.symm

/-- The sigils that are written before the word they belong to. -/
def headSigils : List (Option Sigil) :=
  [some .blockOpen, some .blockClose, some .inverted, some .partialCall]

theorem mem_headSigils_iff {sigil : Option Sigil} :
    sigil ∈ headSigils ↔ ∃ c found, headSigil? c = some found ∧ sigil = some found := by
  constructor
  · intro h
    simp only [headSigils, List.mem_cons, List.not_mem_nil, or_false] at h
    rcases h with rfl | rfl | rfl | rfl
    · exact ⟨'#', _, rfl, rfl⟩
    · exact ⟨'/', _, rfl, rfl⟩
    · exact ⟨'^', _, rfl, rfl⟩
    · exact ⟨'>', _, rfl, rfl⟩
  · rintro ⟨c, found, h, rfl⟩
    rcases headSigil?_cases h with rfl | rfl | rfl | rfl <;> decide

/-- The contents of a tag that begins with a word, clause by clause. -/
theorem tagContents_word_iff {value : String} {sigil : Option Sigil} {rest : List Piece} :
    TagContents (.word value sigil :: rest) ↔
      (sigil = some .comment ∧ rest = [] ∧ Text.trim value.toList = value.toList ∧
        ¬ longCommentEnd <:+: value.toList) ∨
      (∀ piece ∈ rest, IsArgument piece) ∧
        (sigil ∈ headSigils ∧ IsWord value.toList ∧ (value = "" → rest = []) ∨
          IsArgument (.word value sigil) ∧ ¬ StartsWithSigil (.word value sigil)) := by
  constructor
  · intro h
    cases h with
    | comment htrim hend => exact .inl ⟨rfl, rfl, htrim, hend⟩
    | sigil hsigil hword hempty hrest =>
      exact .inr ⟨hrest, .inl ⟨mem_headSigils_iff.2 ⟨_, _, hsigil, rfl⟩, hword, hempty⟩⟩
    | plain hhead hplain hrest => exact .inr ⟨hrest, .inr ⟨hhead, hplain⟩⟩
  · rintro (⟨rfl, rfl, htrim, hend⟩ | ⟨hrest, ⟨hsigil, hword, hempty⟩ | ⟨hhead, hplain⟩⟩)
    · exact .comment htrim hend
    · obtain ⟨c, found, hfound, rfl⟩ := mem_headSigils_iff.1 hsigil
      exact .sigil hfound hword hempty hrest
    · exact .plain hhead hplain hrest

instance : DecidablePred TagContents
  | [] => .isTrue .empty
  | .quoted value :: rest => decidable_of_iff (∀ piece ∈ rest, IsArgument piece)
      ⟨.plain (.quoted value) not_false, fun | .plain _ _ hrest => hrest⟩
  | .word _ _ :: _ => decidable_of_iff _ tagContents_word_iff.symm

/-! ## The tags of a scanner -/

/-- No pieces come from a text that goes on with closing braces. -/
theorem eq_nil_of_close {cs after : List Char} {pieces : List Piece}
    (h : TagText false cs pieces) (hcs : cs = closeBraces ++ after) : pieces = [] := by
  cases h with
  | close => rfl
  | piece hpiece htag =>
    rw [← List.nil_append closeBraces, List.append_assoc] at hcs
    exact absurd hcs.symm (Scanner.close_ne_piece Text.isSpace_nil hpiece)

theorem isWord_of_wordLength {word after : List Char}
    (h : wordLength (word ++ after) = word.length) : IsWord word := by
  have htake : (word ++ after).take (wordLength (word ++ after)) = word := by
    rw [h, List.take_left]
  constructor
  · intro c hc
    exact Scanner.isWhiteSpace_of_mem_word (htake.symm ▸ hc)
  · have := Scanner.not_closeBraces_infix_word (word ++ after)
    rwa [htake] at this

/-- A word is empty only where closing braces come next. -/
theorem exists_close_of_empty_word {cs : List Char} (hstart : Text.skipSpace cs = cs)
    (hne : cs ≠ []) (hword : wordLength cs = 0) : ∃ after, cs = closeBraces ++ after := by
  obtain ⟨d, ds, rfl⟩ := List.exists_cons_of_ne_nil hne
  have hspace := Text.skipSpace_eq_cons hstart
  have hclose : closeBraces.isPrefixOf (d :: ds) = true := by
    by_contra hnot
    rw [wordLength, if_neg (by simp [hspace, hnot])] at hword
    cases hword
  obtain ⟨after, hafter⟩ := List.isPrefixOf_iff_prefix.1 hclose
  exact ⟨after, hafter.symm⟩

theorem isArgument_of_pieceText {cs after : List Char} {piece : Piece}
    (h : PieceText false cs after piece) : IsArgument piece := by
  cases h with
  | quoted => exact .quoted _
  | @word _ space cs _ c hspace hquote hhead hword =>
    have hlist : (String.ofList (c :: cs)).toList = c :: cs := String.toList_ofList
    have := IsArgument.word hlist hquote (hlist.symm ▸ isWord_of_wordLength hword)
    rwa [hlist] at this

theorem isArgument_of_tagText {cs : List Char} {pieces : List Piece} (h : TagText false cs pieces) :
    ∀ piece ∈ pieces, IsArgument piece := by
  generalize hhead : false = atHead at h
  induction h with
  | close => exact List.forall_mem_nil _
  | piece hpiece htag ih =>
    subst hhead
    intro piece hmem
    rcases List.mem_cons.1 hmem with rfl | hmem
    · exact isArgument_of_pieceText hpiece
    · exact ih rfl piece hmem

theorem not_longCommentEnd_infix {cs body : List Char} {length : Nat}
    (h : commentBody? cs = .ok (body, length)) : ¬ longCommentEnd <:+: Text.trim body := by
  intro hend
  have hbody := hend.trans (Text.infix_trim body)
  rcases Scanner.commentBody?_eq_ok h with ⟨rest, -, -, hsplit⟩ | ⟨rest, -, -, -, hsplit⟩
  · obtain ⟨-, hnot⟩ :=
      (Text.splitAtMarker_append_eq_some_iff (by simp [longCommentEnd])).1 hsplit
    exact hnot (hbody.trans (List.prefix_append _ _).isInfix)
  · obtain ⟨-, hnot⟩ := (Text.splitAtMarker_append_eq_some_iff (by simp [closeBraces])).1 hsplit
    have hclose : closeBraces <:+: longCommentEnd := ⟨['-', '-'], [], rfl⟩
    exact hnot (hclose.trans (hbody.trans (List.prefix_append _ _).isInfix))

/-- The pieces of a tag are contents that a tag can have. -/
theorem tagContents_of_tagText {body : List Char} {pieces : List Piece}
    (h : TagText true body pieces) : TagContents pieces := by
  cases h with
  | close => exact .empty
  | @piece _ cs rest piece pieces hpiece htag =>
    have hrest := isArgument_of_tagText htag
    cases hpiece with
    | @comment cs _ body hbody =>
      obtain ⟨after, hafter⟩ := (Scanner.commentBody?_rest hbody).2
      rw [List.drop_left] at hafter
      rw [eq_nil_of_close htag hafter.symm]
      refine .comment ?_ ?_
      · rw [String.toList_ofList, Text.trim_trim]
      · rw [String.toList_ofList]
        exact not_longCommentEnd_infix hbody
    | quoted => exact .plain (.quoted _) id hrest
    | @sigil space gap word _ c sigil hspace hsigil hgap hstart hafter hword =>
      refine .sigil hsigil ?_ ?_ hrest
      · rw [String.toList_ofList]
        exact isWord_of_wordLength hword
      -- An empty word behind a sigil means that the tag ends there.
      · intro hempty
        have hnil : word = [] := by
          rw [← String.toList_ofList (l := word), hempty]
          rfl
        subst hnil
        rw [List.nil_append] at hstart hword hafter
        obtain ⟨after, hclose⟩ := exists_close_of_empty_word hstart hafter hword
        exact eq_nil_of_close htag hclose
    | @word _ space cs _ c hspace hquote hhead hword =>
      have hlist : (String.ofList (c :: cs)).toList = c :: cs := String.toList_ofList
      have hargument := IsArgument.word hlist hquote (hlist.symm ▸ isWord_of_wordLength hword)
      rw [hlist] at hargument
      refine .plain hargument ?_ hrest
      rintro ⟨d, ds, hcons, hsigil⟩
      rw [hlist] at hcons
      cases hcons
      exact hsigil (hhead rfl).1

end BraceTemplate
