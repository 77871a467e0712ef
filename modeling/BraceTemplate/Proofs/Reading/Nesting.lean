import BraceTemplate.Proofs.Joining.Reading

/-!
# Which blocks are paired

The marks of blocks are paired with a stack. `Nested` says without one which rows of marks are a row
of closed blocks, and `nested_iff_foldlM_step` shows that the stack accepts just those. A block is
closed by the word that opened it, but for an opener with arguments that is no helper and whose word
is another spelling of a name, such as `./x`: its block goes by the name.
-/

namespace BraceTemplate

open Element (isPathWord)

/-! ## Marks -/

/-- A mark of a block: its beginning and its end with a name, and the divider between its bodies. -/
inductive BlockMark where
  | opener (name : String)
  | divider
  | closer (name : String)
  deriving Repr, DecidableEq, Inhabited

/-- A row of blocks that are closed by their names, each of them divided at most once. -/
inductive Nested : List BlockMark → Prop
  | nil : Nested []
  | block {body rest : List BlockMark} (name : String) (hbody : Nested body) (hrest : Nested rest) :
    Nested (.opener name :: (body ++ .closer name :: rest))
  | divided {body inverse rest : List BlockMark} (name : String) (hbody : Nested body)
    (hinverse : Nested inverse) (hrest : Nested rest) :
    Nested (.opener name :: (body ++ .divider :: (inverse ++ .closer name :: rest)))

/-- Reads one mark with the names of the open blocks, the innermost first, each of them with whether
it has been divided. -/
def BlockMark.step : List (String × Bool) → BlockMark → Option (List (String × Bool))
  | blocks, .opener name => some ((name, false) :: blocks)
  | (name, false) :: blocks, .divider => some ((name, true) :: blocks)
  | (name, _) :: blocks, .closer word => if name = word then some blocks else none
  | _, _ => none

theorem BlockMark.step_opener (name : String) (blocks : List (String × Bool)) :
    BlockMark.step blocks (.opener name) = some ((name, false) :: blocks) := rfl

theorem BlockMark.step_divider (name : String) (blocks : List (String × Bool)) :
    BlockMark.step ((name, false) :: blocks) .divider = some ((name, true) :: blocks) := rfl

theorem BlockMark.step_closer (name : String) (divided : Bool) (blocks : List (String × Bool)) :
    BlockMark.step ((name, divided) :: blocks) (.closer name) = some blocks := by
  cases divided <;> exact if_pos rfl

/-! ## What the stack accepts -/

/-- Closed blocks leave the open blocks as they are. -/
theorem Nested.foldlM_step {marks : List BlockMark} (h : Nested marks)
    (blocks : List (String × Bool)) : marks.foldlM BlockMark.step blocks = some blocks := by
  induction h generalizing blocks with
  | nil => rfl
  | block name _ _ ihbody ihrest =>
    simp only [List.foldlM_cons, List.foldlM_append, BlockMark.step_opener, BlockMark.step_closer,
      ihbody, ihrest, Option.bind_eq_bind, Option.bind_some]
  | divided name _ _ _ ihbody ihinverse ihrest =>
    simp only [List.foldlM_cons, List.foldlM_append, BlockMark.step_opener,
      BlockMark.step_divider, BlockMark.step_closer, ihbody, ihinverse, ihrest,
      Option.bind_eq_bind, Option.bind_some]

/-- The marks close the given open blocks, from the innermost on, and all blocks that they open. -/
def Closes : List (String × Bool) → List BlockMark → Prop
  | [], marks => Nested marks
  | (name, divided) :: blocks, marks => ∃ body rest, Nested body ∧ Closes blocks rest ∧
      (marks = body ++ .closer name :: rest ∨
        divided = false ∧ ∃ inverse, Nested inverse ∧
          marks = body ++ .divider :: (inverse ++ .closer name :: rest))

/-- A closed block may stand before the marks that close the open blocks. -/
theorem Closes.prepend {block : List BlockMark}
    (hblock : ∀ rest, Nested rest → Nested (block ++ rest)) {blocks : List (String × Bool)}
    {marks : List BlockMark} (h : Closes blocks marks) : Closes blocks (block ++ marks) := by
  cases blocks with
  | nil => exact hblock marks h
  | cons open' blocks =>
    obtain ⟨body, rest, hbody, hrest, hmarks⟩ := h
    refine ⟨block ++ body, rest, hblock body hbody, hrest, ?_⟩
    rcases hmarks with rfl | ⟨hdivided, inverse, hinverse, rfl⟩
    · exact .inl (List.append_assoc _ _ _).symm
    · exact .inr ⟨hdivided, inverse, hinverse, (List.append_assoc _ _ _).symm⟩

/-- A block that is opened is closed before those around it. -/
theorem Closes.opener {name : String} {blocks : List (String × Bool)} {marks : List BlockMark}
    (h : Closes ((name, false) :: blocks) marks) : Closes blocks (.opener name :: marks) := by
  obtain ⟨body, rest, hbody, hrest, rfl | ⟨-, inverse, hinverse, rfl⟩⟩ := h
  · have hblock : ∀ later, Nested later →
        Nested ((.opener name :: (body ++ [.closer name])) ++ later) := by
      intro later hlater
      rw [List.cons_append, List.append_assoc, List.singleton_append]
      exact hbody.block name hlater
    have hclosed := hrest.prepend hblock
    rwa [List.cons_append, List.append_assoc, List.singleton_append] at hclosed
  · have hblock : ∀ later, Nested later →
        Nested ((.opener name :: (body ++ .divider :: (inverse ++ [.closer name]))) ++ later) := by
      intro later hlater
      rw [List.cons_append, List.append_assoc, List.cons_append, List.append_assoc,
        List.singleton_append]
      exact hbody.divided name hinverse hlater
    have hclosed := hrest.prepend hblock
    rwa [List.cons_append, List.append_assoc, List.cons_append, List.append_assoc,
      List.singleton_append] at hclosed

/-- A run of the stack that ends without open blocks. -/
theorem closes_of_foldlM_step {marks : List BlockMark} {blocks : List (String × Bool)}
    (h : marks.foldlM BlockMark.step blocks = some []) : Closes blocks marks := by
  induction marks generalizing blocks with
  | nil =>
    obtain rfl : blocks = [] := Option.some.inj h
    exact .nil
  | cons mark marks ih =>
    rw [List.foldlM_cons] at h
    obtain ⟨next, hstep, hmarks⟩ := Option.bind_eq_some_iff.1 h
    have hnext := ih hmarks
    -- By the four rules of a step: an opener, a divider, a closer, and what is refused.
    unfold BlockMark.step at hstep
    split at hstep
    · cases hstep
      exact hnext.opener
    · cases hstep
      obtain ⟨inverse, rest, hinverse, hrest, rfl | ⟨hfalse, -⟩⟩ := hnext
      · exact ⟨[], rest, .nil, hrest, .inr ⟨rfl, inverse, hinverse, rfl⟩⟩
      · cases hfalse
    · split at hstep
      · next hname =>
        cases hstep
        subst hname
        exact ⟨[], marks, .nil, hnext, .inl rfl⟩
      · cases hstep
    · cases hstep

/-- The rows of closed blocks are those that the stack accepts. -/
theorem nested_iff_foldlM_step {marks : List BlockMark} :
    Nested marks ↔ marks.foldlM BlockMark.step [] = some [] :=
  ⟨fun h => h.foldlM_step [], closes_of_foldlM_step⟩

/-! ## The marks among the items -/

/-- The mark that an item is, if it is one. -/
def Item.mark? : Item → Option BlockMark
  | .node _ => none
  | .opener name _ _ => some (.opener name)
  | .divider => some .divider
  | .closer name => some (.closer name)

namespace Pairing

/-- The open blocks with whether each of them has been divided. -/
def shape (pairing : Pairing) : List (String × Bool) :=
  pairing.blocks.map fun block => (block.name, block.inverse.isSome)

theorem shape_add (pairing : Pairing) (node : Node) : (pairing.add node).shape = pairing.shape := by
  obtain ⟨nodes, blocks⟩ := pairing
  cases blocks with
  | nil => rfl
  | cons block blocks =>
    obtain ⟨name, head, inverted, body, inverse⟩ := block
    cases inverse <;> rfl

/-- What an item does to the open blocks is what its mark does. -/
theorem shape_step (pairing : Pairing) (item : Item) :
    (pairing.step item).toOption.map shape =
      item.mark?.elim (some pairing.shape) (BlockMark.step pairing.shape) := by
  cases item with
  | node node => exact congrArg some (shape_add pairing node)
  | opener name head inverted => rfl
  | divider =>
    obtain ⟨nodes, blocks⟩ := pairing
    cases blocks with
    | nil => rfl
    | cons block blocks =>
      obtain ⟨name, head, inverted, body, inverse⟩ := block
      cases inverse <;> rfl
  | closer name =>
    obtain ⟨nodes, blocks⟩ := pairing
    cases blocks with
    | nil => rfl
    | cons block blocks =>
      have hstep : Pairing.step ⟨nodes, block :: blocks⟩ (.closer name) =
          if block.name = name then .ok (add ⟨nodes, blocks⟩ block.toNode)
          else .error (.closedByOther block.name name) := rfl
      -- The marks only keep whether a block is divided; for its closer that does not matter.
      have hmark : BlockMark.step (shape ⟨nodes, block :: blocks⟩) (.closer name) =
          if block.name = name then some (shape ⟨nodes, blocks⟩) else none := by
        rw [shape, List.map_cons]
        cases block.inverse.isSome <;> rfl
      rw [hstep, Item.mark?, Option.elim_some, hmark]
      split
      · exact congrArg some (shape_add ⟨nodes, blocks⟩ block.toNode)
      · rfl

theorem foldlM_marks (items : List Item) (blocks : List (String × Bool)) :
    (items.filterMap Item.mark?).foldlM BlockMark.step blocks =
      items.foldlM (fun blocks item => item.mark?.elim (some blocks) (BlockMark.step blocks))
        blocks := by
  rw [List.foldlM_filterMap]
  congr
  funext blocks item
  cases item.mark? <;> rfl

/-- What items do to the open blocks is what their marks do. -/
theorem shape_foldlM (pairing : Pairing) (items : List Item) :
    (items.foldlM step pairing).toOption.map shape =
      (items.filterMap Item.mark?).foldlM BlockMark.step pairing.shape := by
  rw [foldlM_marks]
  induction items generalizing pairing with
  | nil => rfl
  | cons item items ih =>
    rw [List.foldlM_cons, List.foldlM_cons, ← shape_step]
    cases pairing.step item with
    | error fault => rfl
    | ok next => exact ih next

end Pairing

/-- Items are paired if their marks are a row of closed blocks. -/
theorem pairBlocks_isOk_iff {items : List Item} :
    (∃ nodes, pairBlocks items = .ok nodes) ↔ Nested (items.filterMap Item.mark?) := by
  have hshape := Pairing.shape_foldlM ⟨[], []⟩ items
  have hnil : Pairing.shape ⟨[], []⟩ = [] := rfl
  rw [nested_iff_foldlM_step, ← hnil, ← hshape, Option.map_eq_some_iff]
  simp only [pairBlocks_eq_ok, Results.toOption_eq_some]
  constructor
  · rintro ⟨nodes, h⟩
    exact ⟨_, h, rfl⟩
  · rintro ⟨⟨nodes, blocks⟩, h, hempty⟩
    obtain rfl : blocks = [] := List.map_eq_nil_iff.1 hempty
    exact ⟨nodes, h⟩

/-! ## The marks among the tags -/

/-- The mark that a tag is, if it is one, where the given function names the openers. -/
def markOf (name : String → List Piece → String) : List Piece → Option BlockMark
  | .word word (some .blockOpen) :: rest => some (.opener (name word rest))
  | .word word (some .inverted) :: rest =>
    some (if word = "" then .divider else .opener (name word rest))
  | .word word (some .blockClose) :: _ => some (.closer word)
  | .word word none :: _ => if word = "else" then some .divider else none
  | _ => none

/-- The marks of the blocks of a template, where the given function names the openers. -/
def blockMarks (name : String → List Piece → String) (tokens : List Token) : List BlockMark :=
  (Segment.tags tokens).filterMap (markOf name)

/-- The word that is written in an opener. -/
def writtenName (word : String) (_rest : List Piece) : String :=
  word

/-- The name of the block that an opener opens: its word, unless arguments follow and the word is no
helper. The word denotes a path then, and the block has the name of the path. -/
def pairedName (registered : String → Bool) (word : String) (rest : List Piece) : String :=
  if rest.isEmpty || isHelperWord registered word then word
  else (Path.ofWord word).bareName?.getD word

/-- Whether an opener keeps its word: nothing follows the word, or it is a helper or a single
name. -/
def KeepsWord (registered : String → Bool) (word : String) (rest : List Piece) : Prop :=
  rest = [] ∨ isHelperWord registered word = true ∨ Path.isSingleName word = true

theorem pairedName_of_keepsWord {registered : String → Bool} {word : String} {rest : List Piece}
    (h : KeepsWord registered word rest) : pairedName registered word rest = word := by
  rw [pairedName]
  split
  · rfl
  · next hother =>
    rw [Bool.or_eq_true, List.isEmpty_iff, not_or] at hother
    by_cases hword : word = ""
    · subst hword
      rfl
    · rw [Path.bareName?_ofWord ((h.resolve_left hother.1).resolve_left hother.2) hword]
      rfl

/-- An opener that is read is marked with the name its closer must have. -/
theorem mark?_readOpener {registered : String → Bool} {inverted : Bool} {word : String}
    {rest : List Piece} {item : Item} (h : readOpener registered inverted word rest = some item) :
    item.mark? = some (.opener (pairedName registered word rest)) := by
  rw [readOpener] at h
  rw [pairedName]
  split at h
  · next hhelper =>
    cases h
    rw [hhelper, Bool.or_true, if_pos rfl]
    rfl
  · next hhelper =>
    rw [Bool.eq_false_iff.2 hhelper, Bool.or_false]
    split at h
    · next hrest =>
      cases h
      rw [if_pos hrest]
      rfl
    · next hrest =>
      obtain ⟨name, hname, rfl⟩ := Option.map_eq_some_iff.1 h
      rw [if_neg hrest, hname]
      rfl

theorem mark?_readPath {word : String} {rest : List Piece} {item : Item}
    (h : readPath word rest = some item) : item.mark? = none := by
  rw [readPath] at h
  split at h
  · cases h
    rfl
  · obtain ⟨name, -, rfl⟩ := Option.map_eq_some_iff.1 h
    rfl

theorem isHelperWord_else (registered : String → Bool) :
    isHelperWord registered "else" = true := by
  rw [isHelperWord, Bool.and_eq_true, Bool.or_eq_true]
  exact ⟨rfl, .inr rfl⟩

/-- A plain word divides a block if it says so, and is no mark otherwise. -/
theorem mark?_readPlain {registered : String → Bool} {word : String} {sigil : Option Sigil}
    {rest : List Piece} {item : Item} (h : readPlain registered word sigil rest = some item) :
    item.mark? = if isPathWord word sigil = false ∧ word = "else" then some .divider else none := by
  rw [readPlain] at h
  split at h
  · next hpath =>
    rw [mark?_readPath h, if_neg]
    -- As a helper is registered under no such name, `else` is not read as a path.
    rintro ⟨hword, rfl⟩
    rw [hword, isHelperWord_else] at hpath
    cases hpath
  · next hpath =>
    rw [Bool.or_eq_true, not_or, Bool.not_eq_true] at hpath
    split at h
    · next helse =>
      cases h
      rw [if_neg fun hboth => bne_iff_ne.1 helse hboth.2]
      rfl
    · next helse =>
      rw [if_pos ⟨hpath.1, by simpa using helse⟩]
      split at h
      · cases h
        rfl
      · cases h

theorem filterMap_mark?_of_map {read : Option Item} {items : List Item} {mark : Option BlockMark}
    (h : read.map (fun item => [item]) = some items)
    (hmark : ∀ item, read = some item → item.mark? = mark) :
    items.filterMap Item.mark? = mark.toList := by
  obtain ⟨item, hitem, rfl⟩ := Option.map_eq_some_iff.1 h
  rw [List.filterMap_cons, hmark item hitem]
  cases mark <;> rfl

/-- The items of a tag have the mark of the tag. -/
theorem filterMap_mark?_readTag {registered : String → Bool} {pieces : List Piece}
    {items : List Item} (h : readTag registered pieces = some items) :
    items.filterMap Item.mark? = (markOf (pairedName registered) pieces).toList := by
  cases pieces with
  | nil => cases h
  | cons head rest =>
    cases head with
    | quoted text =>
      rw [readTag] at h
      obtain ⟨-, heq⟩ := Option.ite_none_right_eq_some.1 h
      cases heq
      rfl
    | word word sigil =>
      cases sigil with
      | none =>
        refine filterMap_mark?_of_map h fun item hitem => (mark?_readPlain hitem).trans ?_
        by_cases helse : word = "else"
        · subst helse
          rfl
        · rw [if_neg fun hboth => helse hboth.2]
          exact (if_neg helse).symm
      | some sigil =>
        cases sigil with
        | comment =>
          cases h
          rfl
        | blockOpen =>
          obtain ⟨-, hopener⟩ := Option.ite_none_left_eq_some.1 h
          exact filterMap_mark?_of_map hopener fun item => mark?_readOpener
        | blockClose =>
          obtain ⟨-, heq⟩ := Option.ite_none_right_eq_some.1 h
          cases heq
          rfl
        -- A caret alone is a divider, and a caret with a word an opener.
        | inverted =>
          rw [readTag] at h
          rw [markOf]
          split at h
          · next hword =>
            rw [if_neg hword]
            exact filterMap_mark?_of_map h fun item => mark?_readOpener
          · next hword =>
            obtain ⟨-, heq⟩ := Option.ite_none_right_eq_some.1 h
            cases heq
            rw [if_pos (not_not.1 hword)]
            rfl
        | partialCall =>
          obtain ⟨-, hcontext⟩ := Option.ite_none_left_eq_some.1 h
          obtain ⟨context, -, rfl⟩ := Option.map_eq_some_iff.1 hcontext
          rfl
        | data => exact filterMap_mark?_of_map h fun item => mark?_readPlain
        | parent => exact filterMap_mark?_of_map h fun item => mark?_readPlain
        | this => exact filterMap_mark?_of_map h fun item => mark?_readPlain

/-- The items of a template have the marks of its tags. -/
theorem filterMap_mark?_readSegments {registered : String → Bool}
    {segments : List (Segment String (List Piece))} {items : List Item}
    (h : readSegments registered segments = some items) :
    items.filterMap Item.mark? =
      (segments.filterMap Segment.tag?).filterMap (markOf (pairedName registered)) := by
  induction segments generalizing items with
  | nil =>
    cases h
    rfl
  | cons segment segments ih =>
    obtain ⟨former, latter, hformer, hlatter, rfl⟩ := readSegments_cons.1 h
    rw [List.filterMap_append, ih hlatter]
    cases segment with
    | outside content =>
      cases hformer
      rfl
    | tag pieces =>
      have htags : (.tag pieces :: segments).filterMap Segment.tag? =
          pieces :: segments.filterMap Segment.tag? := rfl
      rw [filterMap_mark?_readTag hformer, htags, List.filterMap_cons]
      cases markOf (pairedName registered) pieces <;> rfl

theorem exists_readSegment {registered : String → Bool}
    {segments : List (Segment String (List Piece))} {items : List Item}
    (h : readSegments registered segments = some items) {segment : Segment String (List Piece)}
    (hmem : segment ∈ segments) : ∃ found, readSegment registered segment = some found := by
  induction segments generalizing items with
  | nil => cases hmem
  | cons first segments ih =>
    obtain ⟨former, latter, hformer, hlatter, -⟩ := readSegments_cons.1 h
    rcases List.mem_cons.1 hmem with rfl | hmem
    · exact ⟨former, hformer⟩
    · exact ih hlatter hmem

/-- A tag with the sigil of an opener and a word is read as an opener. -/
theorem exists_readOpener {registered : String → Bool} {word : String} {sigil : Sigil}
    {rest : List Piece} {items : List Item} (hsigil : sigil = .blockOpen ∨ sigil = .inverted)
    (hword : word ≠ "") (h : readTag registered (.word word (some sigil) :: rest) = some items) :
    ∃ inverted item, readOpener registered inverted word rest = some item := by
  rcases hsigil with rfl | rfl
  · rw [readTag, if_neg hword] at h
    obtain ⟨item, hopener, -⟩ := Option.map_eq_some_iff.1 h
    exact ⟨false, item, hopener⟩
  · rw [readTag, if_pos hword] at h
    obtain ⟨item, hopener, -⟩ := Option.map_eq_some_iff.1 h
    exact ⟨true, item, hopener⟩

/-- The name of an opener that is read is its word only if it keeps it. -/
theorem keepsWord_of_pairedName {registered : String → Bool} {inverted : Bool} {word : String}
    {rest : List Piece} {item : Item} (h : readOpener registered inverted word rest = some item)
    (hname : pairedName registered word rest = word) : KeepsWord registered word rest := by
  by_cases hrest : rest = []
  · exact .inl hrest
  by_cases hhelper : isHelperWord registered word = true
  · exact .inr (.inl hhelper)
  · have hempty : ¬ rest.isEmpty = true := mt List.isEmpty_iff.1 hrest
    rw [readOpener, if_neg hhelper, if_neg hempty] at h
    obtain ⟨name, hbare, -⟩ := Option.map_eq_some_iff.1 h
    rw [pairedName, if_neg (by rw [Bool.or_eq_true]; exact not_or.2 ⟨hempty, hhelper⟩), hbare]
      at hname
    obtain rfl : name = word := hname
    exact .inr (.inr (Path.isSingleName_of_bareName? hbare))

/-! ## Whole templates -/

section

variable {registered : String → Bool} {text : String} {tokens : List Token} {items : List Item}

/-- A template whose tags are read is read, or refused for its blocks. -/
theorem read_of_readItems (h : tokenize text = .ok tokens)
    (hitems : readItems registered (Token.stripLines tokens) = .ok items) :
    Template.read registered text = ((pairBlocks items).mapError .blockMismatch).map testAll := by
  rw [read_eq_ofTokens h, Template.ofTokens, hitems]
  show (pairBlocks items).mapError _ >>= _ = _
  cases pairBlocks items <;> rfl

theorem exists_readSegments (h : tokenize text = .ok tokens)
    (hitems : readItems registered (Token.stripLines tokens) = .ok items) :
    ∃ segments, readSegments registered segments = some items ∧
      segments.filterMap Segment.tag? = Segment.tags tokens := by
  obtain ⟨parts, hparts, -, rfl⟩ := tokenize_eq_ok_iff.1 h
  refine ⟨strip [] false parts, ?_, tags_strip parts⟩
  rw [← toOption_readItems hparts, hitems]
  rfl

/-- The items of a template are paired if the marks of its tags are a row of closed blocks. -/
theorem pairBlocks_isOk_iff_blockMarks (h : tokenize text = .ok tokens)
    (hitems : readItems registered (Token.stripLines tokens) = .ok items) :
    (∃ nodes, pairBlocks items = .ok nodes) ↔
      Nested (blockMarks (pairedName registered) tokens) := by
  obtain ⟨segments, hsegments, htags⟩ := exists_readSegments h hitems
  rw [pairBlocks_isOk_iff, filterMap_mark?_readSegments hsegments, htags]
  rfl

/-- Every tag of a template whose tags are read. -/
theorem exists_readTag (h : tokenize text = .ok tokens)
    (hitems : readItems registered (Token.stripLines tokens) = .ok items) {pieces : List Piece}
    (hmem : pieces ∈ Segment.tags tokens) : ∃ found, readTag registered pieces = some found := by
  obtain ⟨segments, hsegments, htags⟩ := exists_readSegments h hitems
  rw [← htags] at hmem
  exact exists_readSegment hsegments (Segment.mem_filterMap_tag?.1 hmem)

theorem read_isOk_iff (h : tokenize text = .ok tokens)
    (hitems : readItems registered (Token.stripLines tokens) = .ok items) :
    (∃ template, Template.read registered text = .ok template) ↔
      Nested (blockMarks (pairedName registered) tokens) := by
  rw [← pairBlocks_isOk_iff_blockMarks h hitems, read_of_readItems h hitems]
  cases pairBlocks items <;> simp [Except.mapError, Except.map]

theorem read_blockMismatch_iff (h : tokenize text = .ok tokens)
    (hitems : readItems registered (Token.stripLines tokens) = .ok items) :
    (∃ fault, Template.read registered text = .error (.blockMismatch fault)) ↔
      ¬ Nested (blockMarks (pairedName registered) tokens) := by
  rw [← pairBlocks_isOk_iff_blockMarks h hitems, read_of_readItems h hitems]
  cases pairBlocks items <;> simp [Except.mapError, Except.map]

end

/-- An opener and a closer are a closed block if they have one name. -/
theorem nested_pair_iff {name other : String} :
    Nested [.opener name, .closer other] ↔ name = other := by
  rw [nested_iff_foldlM_step, List.foldlM_cons, BlockMark.step_opener]
  show (if name = other then some [] else none) >>= some = some [] ↔ _
  split <;> simpa

/-- The openers of a template all keep their words. -/
def OpenersKeepWords (registered : String → Bool) (tokens : List Token) : Prop :=
  ∀ word sigil rest, .word word (some sigil) :: rest ∈ Segment.tags tokens →
    sigil = .blockOpen ∨ sigil = .inverted → KeepsWord registered word rest

/-- Where the openers keep their words, blocks are paired by the words that are written. -/
theorem blockMarks_writtenName {registered : String → Bool} {tokens : List Token}
    (h : OpenersKeepWords registered tokens) :
    blockMarks (pairedName registered) tokens = blockMarks writtenName tokens := by
  apply List.filterMap_congr
  intro pieces hmem
  rw [markOf.eq_def, markOf.eq_def]
  split
  · next word rest =>
    have hname := pairedName_of_keepsWord (h word .blockOpen rest hmem (.inl rfl))
    exact congrArg (some ∘ BlockMark.opener) hname
  · next word rest =>
    have hname := pairedName_of_keepsWord (h word .inverted rest hmem (.inr rfl))
    simp only [hname, writtenName]
  · rfl
  · rfl
  · rfl

theorem blockMarks_pair {registered : String → Bool} {tokens : List Token} {word other : String}
    {sigil : Sigil} {rest : List Piece}
    (h : Segment.tags tokens = [.word word (some sigil) :: rest, [.word other (some .blockClose)]])
    (hsigil : sigil = .blockOpen ∨ sigil = .inverted) (hword : word ≠ "") :
    blockMarks (pairedName registered) tokens =
      [.opener (pairedName registered word rest), .closer other] := by
  rw [blockMarks, h]
  rcases hsigil with rfl | rfl
  · rfl
  · have hmark : markOf (pairedName registered) (.word word (some .inverted) :: rest) =
        some (.opener (pairedName registered word rest)) := congrArg some (if_neg hword)
    rw [List.filterMap_cons, hmark]
    rfl

/-- A template whose tags are read is refused for its blocks exactly if the openers, dividers and
closers are not properly nested: by the names that the openers are given in any case, and by the
words that are written if all openers keep their words. The name of an opener is its word exactly if
it keeps it, so just those openers are closed by their own words. -/
theorem blockMismatch_iff_not_nested {configuration : Configuration} {text : String}
    {tokens : List Token} {items : List Item} (h : tokenize text = .ok tokens)
    (hitems : readItems configuration.isRegistered (Token.stripLines tokens) = .ok items) :
    (OpenersKeepWords configuration.isRegistered tokens →
        ((∃ fault, Template.read configuration.isRegistered text = .error (.blockMismatch fault)) ↔
          ¬ Nested (blockMarks writtenName tokens))) ∧
      ((∃ fault, Template.read configuration.isRegistered text = .error (.blockMismatch fault)) ↔
        ¬ Nested (blockMarks (pairedName configuration.isRegistered) tokens)) ∧
      ∀ word other sigil rest,
        Segment.tags tokens = [.word word (some sigil) :: rest, [.word other (some .blockClose)]] →
        sigil = .blockOpen ∨ sigil = .inverted → word ≠ "" →
        ((∃ template, Template.read configuration.isRegistered text = .ok template) ↔
          other = pairedName configuration.isRegistered word rest) ∧
        (pairedName configuration.isRegistered word rest = word ↔
          KeepsWord configuration.isRegistered word rest) := by
  refine ⟨?_, read_blockMismatch_iff h hitems, ?_⟩
  · intro hwords
    rw [read_blockMismatch_iff h hitems, blockMarks_writtenName hwords]
  · intro word other sigil rest htags hsigil hword
    refine ⟨?_, ?_⟩
    · rw [read_isOk_iff h hitems, blockMarks_pair htags hsigil hword, nested_pair_iff]
      exact eq_comm
    · refine ⟨fun hname => ?_, pairedName_of_keepsWord⟩
      -- All tags have been read, and with them the word of the opener.
      obtain ⟨found, hfound⟩ := exists_readTag h hitems (htags ▸ List.mem_cons_self)
      obtain ⟨inverted, item, hopener⟩ := exists_readOpener hsigil hword hfound
      exact keepsWord_of_pairedName hopener hname

/-- An inverted block that is opened with an argument, and is closed by its own word and by another
one. -/
theorem blockMismatch_iff_not_nested_item :
    let configuration := Configuration.empty
    let opener : List Piece := [.word "item" (some .inverted), .word "a" none]
    let tokens (closer : String) : List Token :=
      [opener, [.word closer (some .blockClose)]].flatMap
        fun pieces => Segment.toTokens (.tag pieces)
    let paired := "\x7b\x7b ^item  a \x7d\x7d\x7b\x7b /item \x7d\x7d"
    let crossed := "\x7b\x7b ^item  a \x7d\x7d\x7b\x7b /this \x7d\x7d"
    tokenize paired = .ok (tokens "item") ∧ tokenize crossed = .ok (tokens "this") ∧
      OpenersKeepWords configuration.isRegistered (tokens "item") ∧
      (¬ ∃ fault, Template.read configuration.isRegistered paired =
        .error (.blockMismatch fault)) ∧
      (∃ fault, Template.read configuration.isRegistered crossed =
        .error (.blockMismatch fault)) ∧
      ∃ template, Template.read configuration.isRegistered paired = .ok template := by
  intro configuration opener tokens paired crossed
  have hpaired : tokenize paired = .ok (tokens "item") :=
    tokenize_print_tags [opener, [.word "item" (some .blockClose)]] (by decide)
  have hcrossed : tokenize crossed = .ok (tokens "this") :=
    tokenize_print_tags [opener, [.word "this" (some .blockClose)]] (by decide)
  have hread := @readItems_of_tags configuration.isRegistered _ _ _ hpaired rfl
  have hother := @readItems_of_tags configuration.isRegistered _ _ _ hcrossed rfl
  have hkeeps : KeepsWord configuration.isRegistered "item" [.word "a" none] := .inr (.inr rfl)
  have hwords : OpenersKeepWords configuration.isRegistered (tokens "item") := by
    intro word sigil rest hmem hsigil
    have htags : Segment.tags (tokens "item") = [opener, [.word "item" (some .blockClose)]] := rfl
    rw [htags, List.mem_cons, List.mem_singleton] at hmem
    rcases hmem with heq | heq
    · obtain ⟨hhead, rfl⟩ := List.cons.inj heq
      cases hhead
      exact hkeeps
    · obtain ⟨-, rfl⟩ := List.cons.inj heq
      exact .inl rfl
  obtain ⟨hwritten, -, hpair⟩ := blockMismatch_iff_not_nested hpaired hread
  obtain ⟨-, hnamed, -⟩ := blockMismatch_iff_not_nested hcrossed hother
  refine ⟨hpaired, hcrossed, hwords, ?_, ?_, ?_⟩
  · exact fun hfault => (hwritten hwords).1 hfault (nested_pair_iff.2 rfl)
  · exact hnamed.2 fun hnested => absurd (nested_pair_iff.1 hnested) (by decide)
  · obtain ⟨hok, hname⟩ := hpair "item" "item" .inverted _ rfl (.inr rfl) (by decide)
    exact hok.2 (hname.2 hkeeps).symm

/-- A block is not closed by the word that opens it if arguments follow another spelling of a
name. -/
theorem exists_blockMismatch_of_nested :
    let registered := Configuration.empty.isRegistered
    let text := "\x7b\x7b #./x  a \x7d\x7d\x7b\x7b /./x \x7d\x7d"
    ∃ tokens items, tokenize text = .ok tokens ∧
      readItems registered (Token.stripLines tokens) = .ok items ∧
      Nested (blockMarks writtenName tokens) ∧
      Template.read registered text = .error (.blockMismatch (.closedByOther "x" "./x")) := by
  intro registered text
  let tags : List (List Piece) := [[.word "./x" (some .blockOpen), .word "a" none],
    [.word "./x" (some .blockClose)]]
  let tokens : List Token := tags.flatMap fun pieces => Segment.toTokens (.tag pieces)
  have h : tokenize text = .ok tokens := tokenize_print_tags tags (by decide)
  have hitems := @readItems_of_tags registered _ _ _ h rfl
  refine ⟨tokens, _, h, hitems, nested_pair_iff.2 rfl, ?_⟩
  rw [read_of_readItems h hitems]
  rfl

end BraceTemplate
