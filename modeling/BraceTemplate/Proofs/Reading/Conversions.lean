import BraceTemplate.Proofs.Reading.GeneralForm
import BraceTemplate.Proofs.Reading.Items

/-!
# Converting the tokens of a text

`Conversion.convert` and `Template.ofTokens` are the same passes, on items that hold any expression
and on elements that do not: where an argument is neither a literal nor a path, as a partial is, the
latter stop and the former go on. On the tokens of a text there is no such place, by
`agrees_convert`. The tokens of a tag are a head, which may become anything, and literals and words
after it. The passes keep this layout up to the one that gives every head what follows it, so all
that a head takes is literals and paths.
-/

namespace BraceTemplate

namespace Element

/-! ## Where arguments stand -/

/-- What may stand after the head of a tag: literals, paths, and words that are still to be read. -/
inductive IsFollower : Element → Prop
  | text (content : String) : IsFollower (.node (.text content))
  | output (path : Path) : IsFollower (.node (.output path))
  | word (value : String) : IsFollower (.token (.piece (.word value none)))

/-- A place in a template, seen from its tags. -/
inductive Place where
  | outside
  /-- After the head of a tag. -/
  | inside

/-- Elements that begin at a place and are laid out as those of a template are: text and tags, each
of which is empty or has one head that may be anything. -/
inductive Laid : Place → List Element → Prop
  | nil : Laid .outside []
  | text (content : String) {elements : List Element} (h : Laid .outside elements) :
      Laid .outside (.node (.text content) :: elements)
  | empty {elements : List Element} (h : Laid .outside elements) :
      Laid .outside (.token .tagOpen :: .token .tagClose :: elements)
  | tag (head : Element) {elements : List Element} (h : Laid .inside elements) :
      Laid .outside (.token .tagOpen :: head :: elements)
  | follower {element : Element} {elements : List Element} (hfollower : element.IsFollower)
      (h : Laid .inside elements) : Laid .inside (element :: elements)
  | close {elements : List Element} (h : Laid .outside elements) :
      Laid .inside (.token .tagClose :: elements)

theorem IsFollower.isInner {element : Element} (h : element.IsFollower) : element.IsInner := by
  cases h with
  | text content => exact isInner_node _
  | output path => exact isInner_node _
  | word value => exact isInner_piece _

theorem IsFollower.not_isPartialWord {element : Element} (h : element.IsFollower) :
    ¬ element.IsPartialWord := by
  cases h <;> rintro ⟨name, hname⟩ <;> cases hname

theorem isFollower_ofPiece {piece : Piece} (h : IsArgument piece) : (ofPiece piece).IsFollower := by
  cases piece with
  | quoted value => exact .text value
  | word value sigil =>
    rcases ofPiece_of_isArgument h with hnode | htoken
    · rw [hnode]
      exact .output _
    · rw [htoken]
      exact .word value

/-- Pieces that may be arguments lie between the head of a tag and its end. -/
theorem laid_pieces {pieces : List Piece} (hpieces : ∀ piece ∈ pieces, IsArgument piece)
    {elements : List Element} (h : Laid .outside elements) :
    Laid .inside (pieces.map ofPiece ++ .token .tagClose :: elements) := by
  induction pieces with
  | nil => exact .close h
  | cons piece pieces ih =>
    obtain ⟨hpiece, hpieces⟩ := List.forall_mem_cons.1 hpieces
    exact .follower (isFollower_ofPiece hpiece) (ih hpieces)

theorem laid_headed {head : Piece} {rest : List Piece}
    (hcomment : ∀ value, head ≠ .word value (some .comment))
    (hrest : ∀ piece ∈ rest, IsArgument piece) {tokens : List Token}
    (h : Laid .outside (ofTokens tokens)) :
    Laid .outside (ofTokens (Segment.toTokens (.tag (head :: rest)) ++ tokens)) := by
  rw [ofTokens_tag fun value pieces heq => hcomment value (List.cons.inj heq).1, tagOf_append]
  exact .tag (ofPiece head) (laid_pieces hrest h)

/-- A tag of a template, which leaves nothing if it is a comment. -/
theorem laid_tag {pieces : List Piece} (hcontents : TagContents pieces) {tokens : List Token}
    (h : Laid .outside (ofTokens tokens)) :
    Laid .outside (ofTokens (Segment.toTokens (.tag pieces) ++ tokens)) := by
  cases hcontents with
  | comment htrim hend => exact h
  | empty => exact .empty h
  | sigil hsigil hword hempty hrest =>
    refine laid_headed ?_ hrest h
    rintro value ⟨⟩
    exact absurd (headSigil?_cases hsigil) (by decide)
  | plain hhead hplain hrest =>
    refine laid_headed ?_ hrest h
    rintro value rfl
    exact absurd (sigil_mem_of_isArgument hhead) (by decide)

/-- The elements of texts and tags are laid out as those of a template are. -/
theorem laid_ofTokens {segments : List (Segment String (List Piece))}
    (h : ∀ pieces, .tag pieces ∈ segments → TagContents pieces) :
    Laid .outside (ofTokens (segments.flatMap Segment.toTokens)) := by
  induction segments with
  | nil => exact .nil
  | cons segment segments ih =>
    have hrest := ih fun pieces hmem => h pieces (List.mem_cons_of_mem _ hmem)
    rw [List.flatMap_cons]
    cases segment with
    | outside content => exact .text content hrest
    | tag pieces => exact laid_tag (h pieces List.mem_cons_self) hrest

/-- Reading partials keeps the layout: a partial is a head, and nothing is left after it. -/
theorem Laid.readPartials : ∀ {place : Place} {elements : List Element}, Laid place elements →
    ∀ {read : List Element}, Element.readPartials elements = .ok read → Laid place read
  | _, _, .nil, _, h => by
    cases h
    exact .nil
  | _, _, .text content hlaid, _, h => by
    rw [readPartials_cons (by rintro ⟨_, ⟨⟩⟩)] at h
    obtain ⟨read, hread, rfl⟩ := Results.map_eq_ok.1 h
    exact .text content (hlaid.readPartials hread)
  | _, _, .empty hlaid, _, h => by
    rw [readPartials_cons (by rintro ⟨_, ⟨⟩⟩), readPartials_cons (by rintro ⟨_, ⟨⟩⟩)] at h
    obtain ⟨inner, hinner, rfl⟩ := Results.map_eq_ok.1 h
    obtain ⟨read, hread, rfl⟩ := Results.map_eq_ok.1 hinner
    exact .empty (hlaid.readPartials hread)
  | _, _, .tag head hlaid, _, h => by
    rw [readPartials_cons (by rintro ⟨_, ⟨⟩⟩)] at h
    obtain ⟨inner, hinner, rfl⟩ := Results.map_eq_ok.1 h
    -- Only the head of a tag calls a partial; the call takes the place of head and context.
    by_cases hhead : head.IsPartialWord
    · obtain ⟨name, rfl⟩ := hhead
      by_cases hname : name = ""
      · subst hname
        rw [readPartials_nameless] at hinner
        cases hinner
      cases hlaid with
      | close houter =>
        rw [readPartials_close hname] at hinner
        obtain ⟨read, hread, rfl⟩ := Results.map_eq_ok.1 hinner
        exact .tag _ (.close (houter.readPartials hread))
      | follower hcontext hrest =>
        rw [readPartials_context hname hcontext.isInner] at hinner
        split at hinner
        · cases hinner
        · -- A context is the last element of its tag.
          cases hrest with
          | close houter =>
            obtain ⟨read, hread, rfl⟩ := Results.map_eq_ok.1 hinner
            exact .tag _ (.close (houter.readPartials hread))
          | follower hfollower hrest =>
            split at hinner
            · next heq => exact absurd (List.cons.inj heq).1 hfollower.isInner.2
            · cases hinner
    · rw [readPartials_cons hhead] at hinner
      obtain ⟨read, hread, rfl⟩ := Results.map_eq_ok.1 hinner
      exact .tag head (hlaid.readPartials hread)
  | _, _, .follower hfollower hlaid, _, h => by
    rw [readPartials_cons hfollower.not_isPartialWord] at h
    obtain ⟨read, hread, rfl⟩ := Results.map_eq_ok.1 h
    exact .follower hfollower (hlaid.readPartials hread)
  | _, _, .close hlaid, _, h => by
    rw [readPartials_cons (by rintro ⟨_, ⟨⟩⟩)] at h
    obtain ⟨read, hread, rfl⟩ := Results.map_eq_ok.1 h
    exact .close (hlaid.readPartials hread)

/-- Telling heads apart keeps the layout, since there is one head to a tag. -/
theorem Laid.classifyHeads (registered : String → Bool) : ∀ {place : Place}
    {elements : List Element}, Laid place elements →
      Laid place (Element.classifyHeads registered elements)
  | _, _, .nil => .nil
  | _, _, .text content hlaid => by
    rw [classifyHeads_cons registered (isInner_node _).1]
    exact .text content (hlaid.classifyHeads registered)
  | _, _, .empty hlaid => .empty (hlaid.classifyHeads registered)
  | _, _, .tag head hlaid => .tag (classifyHead registered head) (hlaid.classifyHeads registered)
  | _, _, .follower hfollower hlaid => by
    rw [classifyHeads_cons registered hfollower.isInner.1]
    exact .follower hfollower (hlaid.classifyHeads registered)
  | _, _, .close hlaid => by
    rw [classifyHeads_cons registered (by simp)]
    exact .close (hlaid.classifyHeads registered)

theorem IsFollower.readWord {element : Element} (h : element.IsFollower) :
    (Element.readWord element).IsFollower := by
  cases h with
  | text content => exact .text content
  | output path => exact .output path
  | word value => exact .output (Path.ofWord value)

/-- So does reading the words that are left over. -/
theorem Laid.map_readWord : ∀ {place : Place} {elements : List Element}, Laid place elements →
    Laid place (elements.map Element.readWord)
  | _, _, .nil => .nil
  | _, _, .text content hlaid => .text content hlaid.map_readWord
  | _, _, .empty hlaid => .empty hlaid.map_readWord
  | _, _, .tag head hlaid => .tag head.readWord hlaid.map_readWord
  | _, _, .follower hfollower hlaid => .follower hfollower.readWord hlaid.map_readWord
  | _, _, .close hlaid => .close hlaid.map_readWord

/-! ## Arguments -/

/-- After the head of a tag, the arguments end at the same element in either form. -/
theorem Laid.takeArguments_general : ∀ {elements : List Element}, Laid .inside elements →
    Conversion.takeArguments (elements.map general) =
      ((takeArguments elements).1.map Argument.toExpression, (takeArguments elements).2.map general)
  | _, .follower (.text content) hlaid => by
    rw [List.map_cons, general, Conversion.takeArguments, hlaid.takeArguments_general]
    rfl
  | _, .follower (.output path) hlaid => by
    rw [List.map_cons, general, Conversion.takeArguments, hlaid.takeArguments_general]
    rfl
  | _, .follower (.word value) hlaid => rfl
  | _, .close hlaid => rfl

/-- What is left after the arguments is still inside of the tag. -/
theorem Laid.takeArguments : ∀ {elements : List Element}, Laid .inside elements →
    Laid .inside (Element.takeArguments elements).2
  | _, .follower (.text content) hlaid => hlaid.takeArguments
  | _, .follower (.output path) hlaid => hlaid.takeArguments
  | _, .follower (.word value) hlaid => .follower (.word value) hlaid
  | _, .close hlaid => .close hlaid

/-- What opening braces begin is a tag with a head or one that is empty. -/
theorem Laid.of_tagOpen {place : Place} {head : Element} {elements : List Element}
    (h : Laid place (.token .tagOpen :: head :: elements)) :
    place = .outside ∧
      (Laid .inside elements ∨ head = .token .tagClose ∧ Laid .outside elements) := by
  cases h with
  | empty h => exact ⟨rfl, .inr ⟨rfl, h⟩⟩
  | tag head h => exact ⟨rfl, .inl h⟩
  | follower hfollower h => exact absurd rfl hfollower.isInner.1

/-- A head that takes arguments is followed by what may be arguments, up to the end of the tag. -/
theorem Laid.of_takesArguments {place : Place} {head : Element} {elements : List Element}
    (h : Laid place (.token .tagOpen :: head :: elements)) (htakes : head.takesArguments = true) :
    Laid .inside elements := by
  rcases h.of_tagOpen.2 with hinside | ⟨rfl, -⟩
  · exact hinside
  · cases htakes

/-- What is after an element that opens no tag. -/
theorem Laid.tail {place : Place} {element : Element} {elements : List Element}
    (h : Laid place (element :: elements))
    (hopen : ∀ head later, element = .token .tagOpen → elements = head :: later → False) :
    ∃ next, Laid next elements ∧
      ∀ {others : List Element}, Laid next others → Laid place (element :: others) := by
  cases h with
  | text content h => exact ⟨.outside, h, .text content⟩
  | empty h => exact (hopen _ _ rfl rfl).elim
  | tag head h => exact (hopen _ _ rfl rfl).elim
  | follower hfollower h => exact ⟨.inside, h, .follower hfollower⟩
  | close h => exact ⟨.outside, h, .close⟩

theorem general_readHeads (registered : String → Bool) (elements : List Element) :
    (readHeads registered elements).map general =
      (Conversion.classifyHeads registered (elements.map general)).map Conversion.readWord := by
  rw [readHeads, ← general_classifyHeads, List.map_map, List.map_map]
  exact List.map_congr_left fun element _ => general_readWord element

/-- Heads are bound to the same arguments in either form. -/
theorem agrees_bindArguments {place : Place} {elements : List Element} (h : Laid place elements) :
    Agrees .malformedTag (List.map general) (bindArguments elements)
      (Conversion.bindArguments (elements.map general)) := by
  fun_induction bindArguments elements generalizing place with
  | case1 =>
    rw [List.map_nil, Conversion.bindArguments]
    exact .ok []
  -- Both passes take the same arguments: what only the general one takes never stands behind a head.
  | case2 head elements htakes fault hfault =>
    have hbind := agrees_bind head (Element.takeArguments elements).1
    rw [hfault] at hbind
    obtain ⟨found, hfound, hcause⟩ := hbind.exists_eq_error
    rw [List.map_cons, List.map_cons, general, Conversion.bindArguments, takesArguments_general,
      if_pos htakes, (h.of_takesArguments htakes).takeArguments_general, hfound]
    exact .error hcause
  | case3 head elements htakes bound hbound ih =>
    have hbind := agrees_bind head (Element.takeArguments elements).1
    rw [hbound] at hbind
    have hinside := h.of_takesArguments htakes
    rw [List.map_cons, List.map_cons, general, Conversion.bindArguments, takesArguments_general,
      if_pos htakes, hinside.takeArguments_general, hbind.eq_ok]
    exact (ih hinside.takeArguments).map fun _ => rfl
  | case4 head elements htakes ih =>
    have hrest : Agrees .malformedTag (List.map general) (Element.bindArguments elements)
        (Conversion.bindArguments (elements.map general)) := by
      rcases h.of_tagOpen.2 with hinside | ⟨-, houtside⟩
      · exact ih hinside
      · exact ih houtside
    rw [List.map_cons, List.map_cons, general, Conversion.bindArguments, takesArguments_general,
      if_neg htakes]
    exact hrest.map fun _ => rfl
  -- The general pass must not see the start of a tag here either.
  | case5 element elements hopen ih =>
    obtain ⟨next, hnext, -⟩ := h.tail hopen
    rw [List.map_cons, Conversion.bindArguments]
    · exact (ih hnext).map fun _ => rfl
    · intro head later hhead hlater
      obtain ⟨first, rest, rfl, -, -⟩ := List.map_eq_cons_iff.1 hlater
      exact hopen first rest (general_eq_token.1 hhead) rfl

/-- Binding keeps the layout: the arguments go into the head. -/
theorem Laid.bindArguments {place : Place} {elements bound : List Element} (h : Laid place elements)
    (hbound : Element.bindArguments elements = .ok bound) : Laid place bound := by
  fun_induction Element.bindArguments elements generalizing place bound with
  | case1 =>
    cases hbound
    exact h
  | case2 => cases hbound
  | case3 head elements htakes bound hbind ih =>
    obtain ⟨rest, hrest, rfl⟩ := Results.map_eq_ok.1 hbound
    obtain ⟨rfl, -⟩ := h.of_tagOpen
    exact .tag bound (ih (h.of_takesArguments htakes).takeArguments hrest)
  | case4 head elements htakes ih =>
    obtain ⟨rest, hrest, rfl⟩ := Results.map_eq_ok.1 hbound
    obtain ⟨rfl, hinside | ⟨rfl, houtside⟩⟩ := h.of_tagOpen
    · exact .tag head (ih hinside hrest)
    · exact .empty (ih houtside hrest)
  | case5 element elements hopen ih =>
    obtain ⟨rest, hrest, rfl⟩ := Results.map_eq_ok.1 hbound
    obtain ⟨next, hnext, hcons⟩ := h.tail hopen
    exact hcons (ih hnext hrest)

end Element

/-! ## Tags -/

namespace Conversion

theorem collapseTags_head {head : Item} (hhead : head ≠ .token .tagClose) (rest : List Item) :
    collapseTags (.token .tagOpen :: head :: .token .tagClose :: rest) =
      ofHead head >>= fun item => (collapseTags rest).map (item :: ·) := by
  cases hitem : ofHead head with
  | error fault => rw [collapseTags, hitem] <;> first | rfl | assumption
  | ok item => rw [collapseTags, hitem] <;> first | rfl | assumption

theorem collapseTags_unexpected {head found : Item} (hhead : head ≠ .token .tagClose)
    (hfound : found ≠ .token .tagClose) (rest : List Item) :
    collapseTags (.token .tagOpen :: head :: found :: rest) = .error (.unexpectedInTag found) := by
  rw [collapseTags] <;> assumption

end Conversion

namespace Element

/-- Every tag that ends after its head is one item, and all others are faults. -/
theorem agrees_ofElements : ∀ {elements : List Element}, Laid .outside elements →
    Agrees .malformedTag (List.map Item.general) (Item.ofElements elements)
      (Conversion.collapseTags (elements.map general))
  | _, .nil => .ok []
  | _, .text content h => (agrees_ofElements h).map fun _ => rfl
  | _, .empty h => .error rfl
  | _, .tag head h => by
    by_cases hhead : head = .token .tagClose
    · subst hhead
      cases h <;> exact .error rfl
    have hgeneral : head.general ≠ .token .tagClose := mt general_eq_token.1 hhead
    cases h with
    | close houter =>
      rw [ofElements_head hhead, List.map_cons, List.map_cons, List.map_cons, general_token,
        general_token, Conversion.collapseTags_head hgeneral]
      exact (agrees_toItem head).bind fun item _ => (agrees_ofElements houter).map fun _ => rfl
    | @follower element rest hfollower hrest =>
      have hclose := hfollower.isInner.2
      rw [ofElements_unexpected hhead hclose, List.map_cons, List.map_cons, List.map_cons,
        general_token,
        Conversion.collapseTags_unexpected hgeneral (mt general_eq_token.1 hclose)]
      exact .error (congrArg Error.malformedTag (unexpected_general element))

end Element

/-! ## All passes -/

/-- The elements of a text's tokens, once lines are removed, are laid out as those of a template. -/
theorem laid_of_tokenize {text : String} {tokens : List Token} (h : tokenize text = .ok tokens) :
    Element.Laid .outside (Element.ofTokens (Token.stripLines tokens)) := by
  obtain ⟨parts, hparts, -, rfl⟩ := tokenize_eq_ok_iff.1 h
  rw [stripLines_eq hparts]
  exact Element.laid_ofTokens fun pieces => tagContents_of_mem_strip hparts [] false

/-- The passes from tokens to items end alike on the elements of a template, whose layout every pass
hands on to the next one. -/
theorem agrees_readItems (registered : String → Bool) {tokens : List Token}
    (h : Element.Laid .outside (Element.ofTokens tokens)) :
    Agrees .malformedTag (List.map Item.general) (readItems registered tokens)
      (Conversion.readItems registered tokens) := by
  have hpartials := Element.agrees_readPartials (Element.ofTokens tokens)
  rw [Element.general_ofTokens] at hpartials
  refine hpartials.bind fun elements helements => ?_
  have hheads : Element.Laid .outside (Element.readHeads registered elements) :=
    ((h.readPartials helements).classifyHeads registered).map_readWord
  have hbind := Element.agrees_bindArguments hheads
  rw [Element.general_readHeads] at hbind
  exact hbind.bind fun bound hbound => Element.agrees_ofElements (hheads.bindArguments hbound)

/-- The tokens of a text are converted in general form to what they are read to. -/
theorem agrees_convert (registered : String → Bool) {text : String} {tokens : List Token}
    (h : tokenize text = .ok tokens) :
    Agrees id toExpressions (Template.ofTokens registered tokens)
      (Conversion.convert registered tokens) := by
  refine (agrees_readItems registered (laid_of_tokenize h)).mapError.bind fun items _ => ?_
  refine (agrees_pairBlocks items).mapError.bind fun nodes _ => ?_
  exact .of_eq (testAll_general nodes)

end BraceTemplate
