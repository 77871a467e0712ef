import BraceTemplate.Configuration
import BraceTemplate.Proofs.Lines.Standalone
import BraceTemplate.Proofs.Reading.TagReader
import BraceTemplate.Proofs.Scanning.Printing

/-!
# One pass for many

The passes from tokens to items go over the whole template one after the other.
`readItems_eq_readSegments` shows that they come to the items that are read from its texts and tags
one by one, and that they fail on the same templates.
-/

namespace BraceTemplate

/-! ## The passes on one tag -/

namespace Element

/-- The passes from elements to items. -/
def readElements (registered : String → Bool) (elements : List Element) :
    Except TagFault (List Item) :=
  readPartials elements >>= fun elements =>
    bindArguments (readHeads registered elements) >>= Item.ofElements

/-- A head that is bound to its arguments stays inside its tag. -/
theorem isInner_bind {head bound : Element} {arguments : List Argument} (hhead : IsInner head)
    (hbind : head.bind arguments = .ok bound) : IsInner bound := by
  have hcalled : ∀ (path : Path) (sigil : Option Sigil) (arguments : List Argument),
      (calledName path).map (fun name => Element.call name sigil arguments) = .ok bound →
        IsInner bound := by
    intro path sigil arguments hcall
    obtain ⟨name, -, rfl⟩ := Results.map_eq_ok.1 hcall
    simp [IsInner]
  rw [Element.bind.eq_def] at hbind
  split at hbind
  · cases hbind
    simp [IsInner]
  · exact hcalled _ _ _ hbind
  · exact hcalled _ _ _ hbind
  · cases hbind
    exact hhead

theorem forall_mem_ofArgument (rest : List Piece) : ∀ element ∈ rest.map ofArgument,
    IsInner element := by
  intro element hmem
  obtain ⟨piece, -, rfl⟩ := List.mem_map.1 hmem
  exact isInner_ofArgument piece

/-- The last two passes on a tag with the given head. -/
theorem reads_binding {head : Element} (hhead : IsInner head) (rest : List Piece) :
    Reads (fun elements => bindArguments elements >>= Item.ofElements)
      (tagOf (head :: rest.map ofArgument)) (readHead head rest).toOption := by
  have hbind := splits_bindArguments_tag head rest
  rw [readHead]
  by_cases htakes : head.takesArguments = true
  · rw [if_pos htakes] at hbind ⊢
    cases hbound : head.bind (rest.map toArgument) with
    | error fault =>
      rw [hbound] at hbind
      exact reads_comp_none hbind.reads
    | ok bound =>
      rw [hbound] at hbind
      have hinner := List.forall_mem_singleton.2 (isInner_bind hhead hbound)
      exact reads_comp hbind.reads (splits_ofElements_tag hinner).reads
  · rw [if_neg htakes] at hbind ⊢
    have hinner := List.forall_mem_cons.2 ⟨hhead, forall_mem_ofArgument rest⟩
    exact reads_comp hbind.reads (splits_ofElements_tag hinner).reads

theorem isInner_readWord {element : Element} (h : IsInner element) :
    IsInner (readWord element) := by
  rw [readWord.eq_def]
  split
  · exact isInner_node _
  · split
    · exact isInner_piece _
    · simp [IsInner]
  · split
    · exact isInner_piece _
    · simp [IsInner]
  · exact h

theorem isInner_headOf (registered : String → Bool) (piece : Piece) :
    IsInner (headOf registered piece) := by
  apply isInner_readWord
  rw [classifyHead.eq_def]
  split
  · split
    · simp [IsInner]
    · exact isInner_piece _
  · exact isInner_ofPiece piece

theorem not_isPartialWord_tagOf {head : Piece} {rest : List Piece}
    (hhead : ¬ IsPartialWord (ofPiece head)) (hrest : ∀ piece ∈ rest, IsArgument piece) :
    ∀ element ∈ tagOf ((head :: rest).map ofPiece), ¬ IsPartialWord element := by
  intro element hmem
  rw [tagOf, List.map_cons, List.cons_append, List.mem_cons, List.mem_cons, List.mem_append,
    List.mem_singleton, List.mem_map] at hmem
  rcases hmem with rfl | rfl | ⟨piece, hpiece, rfl⟩ | rfl
  · rintro ⟨_, heq⟩
    cases heq
  · exact hhead
  · exact not_isPartialWord_ofPiece (hrest piece hpiece)
  · rintro ⟨_, heq⟩
    cases heq

/-- The passes on a tag that is neither a comment nor a reference to a partial. -/
theorem reads_tag_headed (registered : String → Bool) {head : Piece} {rest : List Piece}
    (hpartial : ¬ IsPartialWord (ofPiece head)) (hrest : ∀ piece ∈ rest, IsArgument piece) :
    Reads (readElements registered) (tagOf ((head :: rest).map ofPiece))
      (readHead (headOf registered head) rest).toOption := by
  have hwords := not_isPartialWord_tagOf hpartial hrest
  have hheads := readHeads_pieces registered head hrest
  have hbinding := reads_binding (isInner_headOf registered head) rest
  exact reads_comp (splits_readPartials hwords).reads (reads_after hheads hbinding)

/-! ## Texts and tags of every kind -/

/-- The passes after the first one read what it has made of a text or a tag. -/
theorem reads_elements {registered : String → Bool} {segment : Segment String (List Piece)}
    {elements : List Element} {result : Option (List Item)}
    (hfirst : ∀ rest, ofTokens (segment.toTokens ++ rest) = elements ++ ofTokens rest)
    (h : Reads (readElements registered) elements result) :
    Reads (readItems registered) segment.toTokens result := by
  have hread : Reads (fun tokens => readElements registered (ofTokens tokens)) segment.toTokens
      result := reads_after hfirst h
  exact hread

/-- The passes after the partials leave a node outside of tags as it is. -/
theorem reads_node (registered : String → Bool) (node : Node) :
    Reads (fun elements => bindArguments (readHeads registered elements) >>= Item.ofElements)
      [.node node] (some [.node node]) := by
  have hbind : ∀ element ∈ [Element.node node], element ≠ .token .tagOpen :=
    List.forall_mem_singleton.2 (isInner_node node).1
  exact reads_after (readHeads_node registered node)
    (reads_comp (splits_bindArguments hbind).reads (splits_ofElements_node node).reads)

theorem reads_text (registered : String → Bool) (content : String) :
    Reads (readItems registered) (Segment.toTokens (.outside content))
      (some [.node (.text content)]) := by
  have hwords : ∀ element ∈ [Element.node (.text content)], ¬ IsPartialWord element := by
    rw [List.forall_mem_singleton]
    rintro ⟨_, heq⟩
    cases heq
  exact reads_elements (ofTokens_text content)
    (reads_comp (splits_readPartials hwords).reads (reads_node registered _))

/-- An empty tag is refused by the pass over the items, not by one before it. -/
theorem reads_empty (registered : String → Bool) :
    Reads (readItems registered) (Segment.toTokens (.tag [])) none := by
  have hwords : ∀ element ∈ tagOf [], ¬ IsPartialWord element := by
    rintro element hmem ⟨_, rfl⟩
    simp [tagOf] at hmem
  have hbind : Splits bindArguments (tagOf []) (.ok (tagOf [])) := by
    intro rest
    rw [tagOf_append, List.nil_append, bindArguments]
    rfl
  have hitems := splits_ofElements_tag (List.forall_mem_nil IsInner)
  have hcomment : ∀ value rest, [] ≠ Piece.word value (some .comment) :: rest := by
    intro value rest h
    cases h
  apply reads_elements (ofTokens_tag hcomment)
  exact reads_comp (splits_readPartials hwords).reads
    (reads_after (readHeads_empty registered) (reads_comp hbind.reads hitems.reads))

theorem toOption_partialContext (name : String) (rest : List Piece) :
    (partialContext name rest).toOption = readContext rest := by
  cases rest with
  | nil => rfl
  | cons piece rest =>
    cases piece with
    | quoted text => rfl
    | word value sigil => cases rest <;> rfl

theorem reads_partialCall (registered : String → Bool) (name : String) (context : Option Path) :
    Reads (fun elements => bindArguments (readHeads registered elements) >>= Item.ofElements)
      (tagOf [.node (.partialCall name context)]) (some [.node (.partialCall name context)]) := by
  have hbinding := reads_binding (isInner_node (.partialCall name context)) []
  have hheads := readHeads_tag registered (.node (.partialCall name context))
    (List.forall_mem_nil IsInner)
  exact reads_after hheads hbinding

/-- A tag that calls a partial is read by the passes as `readTag` reads it. -/
theorem reads_partial (registered : String → Bool) {name : String} {rest : List Piece}
    (hrest : ∀ piece ∈ rest, IsArgument piece) :
    Reads (readItems registered) (Segment.toTokens (.tag (.word name (some .partialCall) :: rest)))
      (readTag registered (.word name (some .partialCall) :: rest)) := by
  have hcomment : ∀ value pieces,
      Piece.word name (some .partialCall) :: rest ≠ .word value (some .comment) :: pieces := by
    intro value pieces h
    cases h
  have hpartial := splits_readPartials_partial name hrest
  apply reads_elements (ofTokens_tag hcomment)
  rw [readTag, ← toOption_partialContext name rest]
  -- The pass over the partials refuses a tag before the later ones see it, or settles it whole.
  by_cases hname : name = ""
  · rw [if_pos hname] at hpartial ⊢
    exact reads_comp_none hpartial.reads
  · rw [if_neg hname] at hpartial ⊢
    cases hcontext : partialContext name rest with
    | error fault =>
      rw [hcontext] at hpartial
      exact reads_comp_none hpartial.reads
    | ok context =>
      rw [hcontext] at hpartial
      exact reads_comp hpartial.reads (reads_partialCall registered name context)

theorem reads_headed (registered : String → Bool) {head : Piece} {rest : List Piece}
    (hcomment : ∀ value, head ≠ .word value (some .comment))
    (hpartial : ¬ IsPartialWord (ofPiece head)) (hrest : ∀ piece ∈ rest, IsArgument piece) :
    Reads (readItems registered) (Segment.toTokens (.tag (head :: rest)))
      (readHead (headOf registered head) rest).toOption := by
  have hnot : ∀ value pieces, head :: rest ≠ .word value (some .comment) :: pieces := by
    intro value pieces h
    exact hcomment value (List.cons.inj h).1
  exact reads_elements (ofTokens_tag hnot) (reads_tag_headed registered hpartial hrest)

/-- What the passes make of a tag is what the reader makes of it. -/
theorem reads_tag (registered : String → Bool) {pieces : List Piece} (h : TagContents pieces) :
    Reads (readItems registered) (Segment.toTokens (.tag pieces)) (readTag registered pieces) := by
  -- A comment leaves no elements, a reference to a partial is read by the second pass, and all
  -- other tags by the pass that binds their heads.
  cases h with
  | comment => exact reads_elements (ofTokens_comment _) (reads_nil _)
  | empty => exact reads_empty registered
  | plain hhead _ hrest =>
    rw [← readHead_argument registered hhead]
    refine reads_headed registered ?_ (not_isPartialWord_ofPiece hhead) hrest
    rintro value rfl
    exact absurd (sigil_mem_of_isArgument hhead) (by decide)
  | @sigil word c sigil rest hsigil hword hempty hrest =>
    by_cases hpartial : sigil = .partialCall
    · subst hpartial
      exact reads_partial registered hrest
    · have hopens : sigil = .blockOpen ∨ sigil = .blockClose ∨ sigil = .inverted := by
        have := headSigil?_cases hsigil
        tauto
      rw [← readHead_sigil registered word hopens]
      refine reads_headed registered ?_ ?_ hrest
      · rintro value heq
        cases heq
        rcases hopens with h | h | h <;> cases h
      · rintro ⟨name, heq⟩
        rcases hopens with rfl | rfl | rfl <;> cases heq

end Element

/-! ## The passes on a whole template -/

/-- Every tag that is left of a template has contents that a tag can have. -/
theorem tagContents_of_mem_strip {parts : List Part} (h : Layout parts) (before : List Char)
    (alone : Bool) {pieces : List Piece} (hmem : .tag pieces ∈ strip before alone parts) :
    TagContents pieces := by
  induction parts generalizing before alone with
  | nil => cases hmem
  | cons part parts ih =>
    have hparts := h.tail
    -- Lines lose characters of the texts only; the tags are those of the layout.
    cases part with
    | text content =>
      rw [strip] at hmem
      split at hmem
      · exact ih hparts _ _ hmem
      · exact ih hparts _ _ ((List.mem_cons.1 hmem).resolve_left (by simp))
    | tag body others =>
      rw [strip, List.mem_cons] at hmem
      rcases hmem with heq | hmem
      · cases h with
        | tag hbody =>
          cases heq
          exact tagContents_of_tagText hbody
      · exact ih hparts _ _ hmem

/-- Every tag of a template has contents that a tag can have. -/
theorem tagContents_of_mem_tags {text : String} {tokens : List Token}
    (h : tokenize text = .ok tokens) {pieces : List Piece} (hmem : pieces ∈ Segment.tags tokens) :
    TagContents pieces := by
  obtain ⟨parts, hparts, -, rfl⟩ := tokenize_eq_ok_iff.1 h
  rw [← tags_strip] at hmem
  exact tagContents_of_mem_strip hparts _ _ (Segment.mem_filterMap_tag?.1 hmem)

theorem readItems_nil (registered : String → Bool) : readItems registered [] = .ok [] := by
  show Element.bindArguments [] >>= Item.ofElements = _
  rw [Element.bindArguments]
  rfl

/-- The passes come to what is read from the texts and tags of a list of tokens. -/
theorem toOption_readItems_flatMap (registered : String → Bool)
    {segments : List (Segment String (List Piece))}
    (h : ∀ pieces, .tag pieces ∈ segments → TagContents pieces) :
    (readItems registered (segments.flatMap Segment.toTokens)).toOption =
      readSegments registered segments := by
  apply toOption_flatMap_of_reads (readItems_nil registered)
  intro segment hmem
  cases segment with
  | outside content => exact Element.reads_text registered content
  | tag pieces => exact Element.reads_tag registered (h pieces hmem)

/-- The passes come to what is read from the texts and tags that are left of a template. -/
theorem toOption_readItems {parts : List Part} (h : Layout parts) (registered : String → Bool) :
    (readItems registered (Token.stripLines (parts.flatMap Part.tokens))).toOption =
      readSegments registered (strip [] false parts) := by
  rw [stripLines_eq h]
  exact toOption_readItems_flatMap registered fun pieces => tagContents_of_mem_strip h [] false

/-- A row of tags is scanned from its print. -/
theorem tokenize_print_tags (tags : List (List Piece)) (h : ∀ pieces ∈ tags, TagContents pieces) :
    tokenize (print [' '] (tags.flatMap fun pieces => Segment.toTokens (.tag pieces))) =
      .ok (tags.flatMap fun pieces => Segment.toTokens (.tag pieces)) := by
  apply tokenize_print (List.forall_mem_singleton.2 rfl) (List.cons_ne_nil _ _)
  induction tags with
  | nil => exact .nil
  | cons pieces tags ih =>
    rw [List.forall_mem_cons] at h
    rw [List.flatMap_cons, Segment.toTokens, List.cons_append, List.cons_append, List.append_assoc]
    exact .tag h.1 (ih h.2)

/-- A template without text is its tags, and no line is removed from it. -/
theorem exists_layout_of_tags {text : String} {tags : List (List Piece)}
    (h : tokenize text = .ok (tags.flatMap fun pieces => Segment.toTokens (.tag pieces))) :
    ∃ parts, Layout parts ∧
      (tags.flatMap fun pieces => Segment.toTokens (.tag pieces)) = parts.flatMap Part.tokens ∧
      strip [] false parts = tags.map .tag := by
  obtain ⟨parts, hparts, -, htokens⟩ := tokenize_eq_ok_iff.1 h
  refine ⟨parts, hparts, htokens, strip_of_tags ?_ _ _⟩
  rw [← ofTokens_parts, ← htokens, ← List.flatMap_map, Segment.ofTokens_flatMap_toTokens]

theorem readItems_of_tags {registered : String → Bool} {text : String} {tags : List (List Piece)}
    {items : List Item}
    (h : tokenize text = .ok (tags.flatMap fun pieces => Segment.toTokens (.tag pieces)))
    (hitems : readSegments registered (tags.map .tag) = some items) :
    readItems registered (Token.stripLines
      (tags.flatMap fun pieces => Segment.toTokens (.tag pieces))) = .ok items := by
  obtain ⟨parts, hparts, htokens, hstrip⟩ := exists_layout_of_tags h
  rw [htokens, ← Results.toOption_eq_some, toOption_readItems hparts, hstrip]
  exact hitems

/-- The passes from tokens to items come to the items that are read from the texts and tags one by
one, and fail on the same templates. -/
theorem readItems_eq_readSegments {template : String} {tokens : List Token}
    (h : tokenize template = .ok tokens) (configuration : Configuration) :
    (Segment.ofTokens (Token.stripLines tokens)).flatMap Segment.toTokens =
        Token.stripLines tokens ∧
      (readItems configuration.isRegistered (Token.stripLines tokens)).toOption =
        readSegments configuration.isRegistered (Segment.ofTokens (Token.stripLines tokens)) := by
  obtain ⟨parts, hparts, -, rfl⟩ := tokenize_eq_ok_iff.1 h
  have hitems := toOption_readItems hparts configuration.isRegistered
  rw [stripLines_eq hparts] at hitems ⊢
  rw [Segment.ofTokens_flatMap_toTokens]
  exact ⟨rfl, hitems⟩

/-- An opener with arguments, whose path is the name of a block helper that is not there yet. -/
theorem readItems_eq_readSegments_opener :
    let template := "a\n\x7b\x7b #./each  x  \"y\" \x7d\x7d"
    let pieces : List Piece := [.word "./each" (some .blockOpen), .word "x" none, .quoted "y"]
    let tokens := .text "a\n" :: .tagOpen :: (pieces.map .piece ++ [.tagClose])
    let head := BlockHead.helper [.path (Path.ofWord "x"), .literal "y"]
    let items : List Item := [.node (.text "a\n"), .opener "each" head false]
    tokenize template = .ok tokens ∧
      (readItems Configuration.empty.isRegistered (Token.stripLines tokens)).toOption =
        some items := by
  intro template pieces tokens head items
  have hpath : IsWord "./each".toList := @isWord_of_wordLength _ [] rfl
  have hword : IsWord "x".toList := @isWord_of_wordLength _ [] rfl
  have hrest : ∀ piece ∈ [Piece.word "x" none, .quoted "y"], IsArgument piece := by
    rw [List.forall_mem_cons, List.forall_mem_singleton]
    exact ⟨.word rfl (by decide) hword, .quoted _⟩
  have hopener : TagContents pieces := .sigil (c := '#') rfl hpath (by decide) hrest
  have hwf : WellFormed tokens := .text (by decide) (by decide) (by decide) (.tag hopener .nil)
  have h : tokenize template = .ok tokens :=
    @tokenize_print [' '] (List.forall_mem_singleton.2 rfl) (by decide) tokens hwf
  exact ⟨h, (readItems_eq_readSegments h .empty).2.trans rfl⟩

end BraceTemplate
