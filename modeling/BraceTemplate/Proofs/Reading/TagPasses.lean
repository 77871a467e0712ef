import BraceTemplate.Proofs.Reading.Splits
import BraceTemplate.Proofs.Scanning.Contents
import BraceTemplate.Proofs.Segment
import BraceTemplate.Template.Reading

/-!
# What every pass makes of a tag

The passes from tokens to items go over the whole template, but none of them looks beyond the end of
a tag. For every pass, the lemmas here say what it makes of the text or the tag that its input
begins with, whatever comes after.
-/

namespace BraceTemplate

namespace Element

/-- The elements of a tag with the given elements between its braces. -/
def tagOf (inner : List Element) : List Element :=
  .token .tagOpen :: (inner ++ [.token .tagClose])

theorem tagOf_append (inner rest : List Element) :
    tagOf inner ++ rest = .token .tagOpen :: (inner ++ .token .tagClose :: rest) := by
  rw [tagOf, List.cons_append, List.append_assoc, List.singleton_append]

/-- An element that is not a brace. -/
def IsInner (element : Element) : Prop :=
  element ≠ .token .tagOpen ∧ element ≠ .token .tagClose

/-- A piece once literals and words that can only be paths are read. -/
def ofPiece (piece : Piece) : Element :=
  readPathWord (readLiteral (.token (.piece piece)))

/-- A piece once it is read as an argument. -/
def ofArgument : Piece → Element
  | .quoted value => .node (.text value)
  | .word value _ => .node (.output (Path.ofWord value))

theorem ofPiece_word (value : String) (sigil : Option Sigil) :
    ofPiece (.word value sigil) =
      if isPathWord value sigil then .node (.output (Path.ofWord value))
      else .token (.piece (.word value sigil)) := rfl

theorem isInner_node (node : Node) : IsInner (.node node) := by
  simp [IsInner]

theorem isInner_piece (piece : Piece) : IsInner (.token (.piece piece)) := by
  simp [IsInner]

theorem isInner_ofPiece (piece : Piece) : IsInner (ofPiece piece) := by
  cases piece with
  | quoted value => exact isInner_node _
  | word value sigil =>
    rw [ofPiece_word]
    split
    · exact isInner_node _
    · exact isInner_piece _

theorem isInner_ofArgument (piece : Piece) : IsInner (ofArgument piece) := by
  cases piece <;> exact isInner_node _

/-! ## Comments, literals and paths -/

theorem dropComments_pieces (pieces : List Piece) (rest : List Token) :
    Token.dropComments (pieces.map .piece ++ .tagClose :: rest) =
      pieces.map .piece ++ .tagClose :: Token.dropComments rest := by
  induction pieces with
  | nil => rfl
  | cons piece pieces ih =>
    rw [List.map_cons, List.cons_append, Token.dropComments.eq_def]
    exact congrArg (Token.piece piece :: ·) ih

theorem ofTokens_text (content : String) (rest : List Token) :
    ofTokens (Segment.toTokens (.outside content) ++ rest) =
      [.node (.text content)] ++ ofTokens rest := rfl

theorem ofTokens_comment (value : String) (rest : List Token) :
    ofTokens (Segment.toTokens (.tag [.word value (some .comment)]) ++ rest) =
      [] ++ ofTokens rest := rfl

/-- The elements of a tag that is not a comment. -/
theorem ofTokens_tag {pieces : List Piece}
    (h : ∀ value rest, pieces ≠ .word value (some .comment) :: rest) (rest : List Token) :
    ofTokens (Segment.toTokens (.tag pieces) ++ rest) =
      tagOf (pieces.map ofPiece) ++ ofTokens rest := by
  -- Only a comment at the head would take the tag away, and the pieces are passed one by one.
  have hdrop : Token.dropComments (Segment.toTokens (.tag pieces) ++ rest) =
      .tagOpen :: (pieces.map .piece ++ .tagClose :: Token.dropComments rest) := by
    rw [Segment.toTokens, List.cons_append, List.cons_append, List.append_assoc,
      List.singleton_append, ← dropComments_pieces, Token.dropComments.eq_def]
    cases pieces with
    | nil => rfl
    | cons head pieces =>
      cases head with
      | quoted value => rfl
      | word value sigil =>
        cases sigil with
        | none => rfl
        | some sigil =>
          cases sigil with
          | comment => exact absurd rfl (h value pieces)
          | _ => rfl
  rw [ofTokens, hdrop, tagOf_append, ofTokens]
  simp only [List.map_cons, List.map_append, List.map_map]
  rfl

/-! ## References to partials -/

/-- A word that refers to a partial. -/
def IsPartialWord (element : Element) : Prop :=
  ∃ name, element = .token (.piece (.word name (some .partialCall)))

theorem readPartials_cons {element : Element} (h : ¬ IsPartialWord element) (rest : List Element) :
    readPartials (element :: rest) = (readPartials rest).map (element :: ·) := by
  rw [readPartials.eq_def]
  split
  · next heq => cases heq
  · next name elements heq =>
    cases heq
    exact absurd ⟨name, rfl⟩ h
  · next heq =>
    cases heq
    rfl

theorem splits_readPartials {stretch : List Element}
    (h : ∀ element ∈ stretch, ¬ IsPartialWord element) :
    Splits readPartials stretch (.ok stretch) := by
  intro rest
  show readPartials (stretch ++ rest) = (readPartials rest).map (stretch ++ ·)
  induction stretch with
  | nil => cases hrest : readPartials rest <;> simp [hrest, Except.map]
  | cons element stretch ih =>
    have htail := ih fun other hmem => h other (List.mem_cons_of_mem _ hmem)
    rw [List.cons_append, readPartials_cons (h element List.mem_cons_self), htail, Results.map_map]
    rfl

/-- The context of a partial: nothing, or the path that a word denotes. -/
def partialContext (name : String) : List Piece → Except TagFault (Option Path)
  | [] => .ok none
  | .quoted text :: _ => .error (.partialOfLiteral name text)
  | [.word value _] => .ok (some (Path.ofWord value))
  | .word _ _ :: _ :: _ => .error (.partialArguments name)

/-- A word that is not at the head of its tag is read as a path at once or left as it is. -/
theorem ofPiece_of_isArgument {value : String} {sigil : Option Sigil}
    (h : IsArgument (.word value sigil)) :
    ofPiece (.word value sigil) = .node (.output (Path.ofWord value)) ∨
      ofPiece (.word value sigil) = .token (.piece (.word value none)) := by
  rw [ofPiece_word]
  split
  · exact .inl rfl
  · next hpath =>
    have hmem := sigil_mem_of_isArgument h
    simp only [pathSigils, List.mem_cons, List.not_mem_nil, or_false] at hmem
    rcases hmem with rfl | rfl | rfl | rfl
    · exact .inr rfl
    · exact absurd rfl hpath
    · exact absurd rfl hpath
    · exact absurd rfl hpath

theorem not_isPartialWord_ofPiece {piece : Piece} (h : IsArgument piece) :
    ¬ IsPartialWord (ofPiece piece) := by
  rintro ⟨name, heq⟩
  cases piece with
  | quoted value => cases heq
  | word value sigil =>
    rcases ofPiece_of_isArgument h with hnode | htoken
    · rw [hnode] at heq
      cases heq
    · rw [htoken] at heq
      cases heq

theorem contextPath_ofPiece (name : String) {value : String} {sigil : Option Sigil}
    (h : IsArgument (.word value sigil)) :
    contextPath name (ofPiece (.word value sigil)) = .ok (Path.ofWord value) := by
  rcases ofPiece_of_isArgument h with hnode | htoken
  · rw [hnode]
    rfl
  · rw [htoken]
    rfl

theorem readPartials_nameless (elements : List Element) :
    readPartials (.token (.piece (.word "" (some .partialCall))) :: elements) =
      .error .namelessPartial := by
  rw [readPartials.eq_def]
  rfl

theorem readPartials_close {name : String} (hname : name ≠ "") (elements : List Element) :
    readPartials
        (.token (.piece (.word name (some .partialCall))) :: .token .tagClose :: elements) =
      (readPartials elements).map fun rest =>
        .node (.partialCall name none) :: .token .tagClose :: rest := by
  rw [readPartials.eq_def]
  exact if_neg hname

/-- One step of the pass over the partials: a name, its context, and the end of the tag. -/
theorem readPartials_context {name : String} (hname : name ≠ "") {context : Element}
    (hcontext : IsInner context) (elements : List Element) :
    readPartials (.token (.piece (.word name (some .partialCall))) :: context :: elements) =
      match contextPath name context with
      | .error fault => .error fault
      | .ok path =>
        match elements with
        | .token .tagClose :: elements =>
          (readPartials elements).map fun rest =>
            .node (.partialCall name (some path)) :: .token .tagClose :: rest
        | _ => .error (.partialArguments name) := by
  rw [readPartials.eq_def]
  apply (if_neg hname).trans
  split
  · next h => cases h
  · next h => cases h; exact absurd rfl hcontext.2
  · next h => cases h; rfl

/-- A reference to a partial takes the pieces after its name as the context. -/
theorem splits_readPartials_partial (name : String) {rest : List Piece}
    (hrest : ∀ piece ∈ rest, IsArgument piece) :
    Splits readPartials
      (tagOf (.token (.piece (.word name (some .partialCall))) :: rest.map ofPiece))
      (if name = "" then .error .namelessPartial
        else (partialContext name rest).map fun context =>
          tagOf [.node (.partialCall name context)]) := by
  intro later
  rw [tagOf_append, List.cons_append, readPartials_cons (by rintro ⟨_, h⟩; cases h)]
  by_cases hname : name = ""
  · subst hname
    rw [readPartials_nameless]
    rfl
  rw [if_neg hname]
  cases rest with
  | nil =>
    rw [List.map_nil, List.nil_append, readPartials_close hname, Results.map_map]
    rfl
  | cons piece rest =>
    rw [List.map_cons, List.cons_append, readPartials_context hname (isInner_ofPiece piece)]
    cases piece with
    | quoted text => rfl
    | word value sigil =>
      rw [contextPath_ofPiece name (hrest _ List.mem_cons_self)]
      cases rest with
      | nil =>
        show (Except.map _ _).map _ = _
        rw [Results.map_map]
        rfl
      | cons piece rest =>
        -- A second element behind the name is no end of a tag, and the pass refuses the call.
        have hinner := isInner_ofPiece piece
        rw [List.map_cons, List.cons_append]
        split
        · next heq => cases heq
        · next path heq =>
          split
          · next h => exact absurd (List.cons.inj h).1 hinner.2
          · rfl

/-! ## Heads and arguments -/

/-- Tells heads apart and reads the words that are left over. -/
def readHeads (registered : String → Bool) (elements : List Element) : List Element :=
  (classifyHeads registered elements).map readWord

theorem classifyHeads_cons (registered : String → Bool) {element : Element}
    (h : element ≠ .token .tagOpen) (rest : List Element) :
    classifyHeads registered (element :: rest) = element :: classifyHeads registered rest := by
  rw [classifyHeads.eq_def]
  split
  · next heq => cases heq
  · next heq => exact absurd (List.cons.inj heq).1 h
  · next heq =>
    cases heq
    rfl

theorem classifyHeads_append (registered : String → Bool) {inner : List Element}
    (h : ∀ element ∈ inner, IsInner element) (rest : List Element) :
    classifyHeads registered (inner ++ rest) = inner ++ classifyHeads registered rest := by
  induction inner with
  | nil => rfl
  | cons element inner ih =>
    have htail := ih fun other hmem => h other (List.mem_cons_of_mem _ hmem)
    rw [List.cons_append, List.cons_append, ← htail,
      classifyHeads_cons registered (h _ List.mem_cons_self).1]

theorem readHeads_node (registered : String → Bool) (node : Node) (rest : List Element) :
    readHeads registered ([.node node] ++ rest) = [.node node] ++ readHeads registered rest := by
  rw [readHeads, classifyHeads_append registered (List.forall_mem_singleton.2 (isInner_node node)),
    List.map_append]
  rfl

/-- The first element of a tag is its head. -/
theorem readHeads_tag (registered : String → Bool) (head : Element) {inner : List Element}
    (h : ∀ element ∈ inner, IsInner element) (rest : List Element) :
    readHeads registered (tagOf (head :: inner) ++ rest) =
      tagOf (readWord (classifyHead registered head) :: inner.map readWord) ++
        readHeads registered rest := by
  have hclose :=
    classifyHeads_cons registered (show Element.token .tagClose ≠ .token .tagOpen by simp) rest
  rw [tagOf_append, tagOf_append, readHeads, List.cons_append, classifyHeads,
    classifyHeads_append registered h, hclose, List.map_cons, List.map_cons, List.map_append]
  rfl

theorem readHeads_empty (registered : String → Bool) (rest : List Element) :
    readHeads registered (tagOf [] ++ rest) = tagOf [] ++ readHeads registered rest := rfl

/-- Once heads are told apart, what stands after them is an argument. -/
theorem readWord_ofPiece {piece : Piece} (h : IsArgument piece) :
    readWord (ofPiece piece) = ofArgument piece := by
  cases piece with
  | quoted value => rfl
  | word value sigil =>
    rcases ofPiece_of_isArgument h with hnode | htoken
    · rw [hnode]
      rfl
    · rw [htoken]
      rfl

/-! ## Binding -/

/-- The argument that a piece after the head of a tag is. -/
def toArgument : Piece → Argument
  | .quoted value => .literal value
  | .word value _ => .path (Path.ofWord value)

theorem takeArguments_ofArgument (pieces : List Piece) (rest : List Element) :
    takeArguments (pieces.map ofArgument ++ .token .tagClose :: rest) =
      (pieces.map toArgument, .token .tagClose :: rest) := by
  induction pieces with
  | nil => rfl
  | cons piece pieces ih =>
    have hargument : (ofArgument piece).argument? = some (toArgument piece) := by
      cases piece <;> rfl
    rw [List.map_cons, List.cons_append, takeArguments, hargument, List.map_cons, ih]

theorem bindArguments_cons {element : Element} (h : element ≠ .token .tagOpen)
    (rest : List Element) :
    bindArguments (element :: rest) = (bindArguments rest).map (element :: ·) := by
  rw [bindArguments.eq_def]
  split
  · next heq => cases heq
  · next heq =>
    cases heq
    exact absurd rfl h
  · next heq =>
    cases heq
    rfl

theorem splits_bindArguments {stretch : List Element}
    (h : ∀ element ∈ stretch, element ≠ .token .tagOpen) :
    Splits bindArguments stretch (.ok stretch) := by
  intro rest
  show bindArguments (stretch ++ rest) = (bindArguments rest).map (stretch ++ ·)
  induction stretch with
  | nil => cases hrest : bindArguments rest <;> simp [hrest, Except.map]
  | cons element stretch ih =>
    have htail := ih fun other hmem => h other (List.mem_cons_of_mem _ hmem)
    rw [List.cons_append, bindArguments_cons (h element List.mem_cons_self), htail, Results.map_map]
    rfl

theorem bindArguments_arguments (pieces : List Piece) (rest : List Element) :
    bindArguments (pieces.map ofArgument ++ .token .tagClose :: rest) =
      (bindArguments rest).map fun later =>
        pieces.map ofArgument ++ .token .tagClose :: later := by
  induction pieces with
  | nil => exact bindArguments_cons (by simp) rest
  | cons piece pieces ih =>
    rw [List.map_cons, List.cons_append, bindArguments_cons (isInner_ofArgument piece).1, ih,
      Results.map_map]
    rfl

/-- A head takes all arguments up to the end of its tag, if it takes any. -/
theorem splits_bindArguments_tag (head : Element) (pieces : List Piece) :
    Splits bindArguments (tagOf (head :: pieces.map ofArgument))
      (if head.takesArguments then
        (head.bind (pieces.map toArgument)).map fun bound => tagOf [bound]
      else .ok (tagOf (head :: pieces.map ofArgument))) := by
  intro rest
  rw [tagOf_append, List.cons_append, bindArguments, takeArguments_ofArgument]
  by_cases htakes : head.takesArguments = true
  · rw [if_pos htakes, if_pos htakes]
    cases head.bind (pieces.map toArgument) with
    | error fault => rfl
    | ok bound =>
      -- All arguments are taken, so that the end of the tag is what follows the head.
      have hclose := bindArguments_arguments [] rest
      rw [List.map_nil, List.nil_append] at hclose
      show (bindArguments (.token .tagClose :: rest)).map _ = _
      rw [hclose, Results.map_map]
      rfl
  · rw [if_neg htakes, if_neg htakes, bindArguments_arguments, Results.map_map]
    show _ = (bindArguments rest).map _
    apply congrArg (fun f => (bindArguments rest).map f)
    funext later
    rw [tagOf_append]
    rfl

/-! ## Items -/

theorem splits_ofElements_node (node : Node) :
    Splits Item.ofElements [.node node] (.ok [.node node]) := by
  intro rest
  rfl

theorem ofElements_head {head : Element} (hhead : head ≠ .token .tagClose) (rest : List Element) :
    Item.ofElements (.token .tagOpen :: head :: .token .tagClose :: rest) =
      head.toItem >>= fun item => (Item.ofElements rest).map (item :: ·) := by
  cases hitem : head.toItem with
  | error fault => rw [Item.ofElements, hitem] <;> first | rfl | assumption
  | ok item => rw [Item.ofElements, hitem] <;> first | rfl | assumption

theorem ofElements_unexpected {head element : Element} (hhead : head ≠ .token .tagClose)
    (helement : element ≠ .token .tagClose) (rest : List Element) :
    Item.ofElements (.token .tagOpen :: head :: element :: rest) = .error element.unexpected := by
  rw [Item.ofElements] <;> assumption

/-- The item of a tag with the given elements between its braces: that of its head, if it holds its
head and nothing else. -/
def toItems : List Element → Except TagFault (List Item)
  | [] => .error .emptyTag
  | [head] => head.toItem.map fun item => [item]
  | _ :: element :: _ => .error element.unexpected

/-- The elements of a tag become its items, whatever stands behind the tag. -/
theorem splits_ofElements_tag {inner : List Element} (h : ∀ element ∈ inner, IsInner element) :
    Splits Item.ofElements (tagOf inner) (toItems inner) := by
  intro rest
  rw [tagOf_append]
  cases inner with
  | nil => rfl
  | cons head inner =>
    have hhead := (h head List.mem_cons_self).2
    cases inner with
    | nil =>
      rw [List.singleton_append, ofElements_head hhead, toItems]
      cases head.toItem with
      | error fault => rfl
      | ok item => rfl
    | cons element inner =>
      have helement := (h element (List.mem_cons_of_mem _ List.mem_cons_self)).2
      rw [List.cons_append, List.cons_append, ofElements_unexpected hhead helement]
      rfl

end Element

end BraceTemplate
