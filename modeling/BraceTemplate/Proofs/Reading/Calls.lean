import BraceTemplate.Proofs.Reading.Names
import BraceTemplate.Proofs.Reading.Nesting
import BraceTemplate.Proofs.Reading.Trees

/-!
# Which tags call helpers

A word at the head of a tag that can only be a path reads data: nothing that is registered makes it
the name of a helper. The exception is a path that comes to a single name of the current frame and
is followed by arguments, which is called by that name. `pathWords_read_data` says so of every tag
that is not an opener, and of the inline calls of a whole template.
-/

namespace BraceTemplate

open Element (toArgument isPathWord)

/-- A path at the head of a tag is called by the given name: arguments follow it, and it is that
single name in the current frame. The divider of blocks cannot be called. -/
structure CalledByPath (word : String) (rest : List Piece) (name : String) : Prop where
  arguments : rest ≠ []
  bareName : (Path.ofWord word).bareName? = some name
  ne_else : name ≠ "else"

/-- A tag calls an inline helper by the given name with the given arguments. -/
inductive Calls : List Piece → String → List Argument → Prop
  | word {word : String} {rest : List Piece} (h : isPathWord word none = false) :
    Calls (.word word none :: rest) word (rest.map toArgument)
  | path {word : String} {sigil : Option Sigil} {rest : List Piece} {name : String}
    (h : isPathWord word sigil = true) (hcalled : CalledByPath word rest name) :
    Calls (.word word sigil :: rest) name (rest.map toArgument)

/-! ## Single tags -/

/-- A path at the head of a tag is written, or called by its name. -/
theorem readPath_eq_some_iff {word : String} {rest : List Piece} {item : Item} :
    readPath word rest = some item ↔
      (rest = [] ∧ item = .node (.output (Path.ofWord word))) ∨
        ∃ name, CalledByPath word rest name ∧
          item = .node (.inlineCall name (rest.map toArgument)) := by
  rw [readPath]
  -- With no arguments a path is written out; with some it must have a bare name to call.
  by_cases hrest : rest = []
  · subst hrest
    rw [List.isEmpty_nil, if_pos rfl, Option.some_inj]
    constructor
    · intro h
      exact .inl ⟨rfl, h.symm⟩
    · rintro (⟨-, rfl⟩ | ⟨name, hcalled, -⟩)
      · rfl
      · exact absurd rfl hcalled.arguments
  · rw [if_neg (mt List.isEmpty_iff.1 hrest), Option.map_eq_some_iff]
    constructor
    · rintro ⟨name, hname, rfl⟩
      obtain ⟨hbare, helse⟩ := Option.filter_eq_some_iff.1 hname
      exact .inr ⟨name, ⟨hrest, hbare, bne_iff_ne.1 helse⟩, rfl⟩
    · rintro (⟨hempty, -⟩ | ⟨name, hcalled, rfl⟩)
      · exact absurd hempty hrest
      · refine ⟨name, Option.filter_eq_some_iff.2 ⟨hcalled.bareName, ?_⟩, rfl⟩
        exact bne_iff_ne.2 hcalled.ne_else

/-- A tag with a word that can only be a path at its head is read as that path. -/
theorem readTag_path (registered : String → Bool) {word : String} {sigil : Option Sigil}
    (h : isPathWord word sigil = true) (rest : List Piece) :
    readTag registered (.word word sigil :: rest) =
      (readPath word rest).map fun item => [item] := by
  unfold isPathWord at h
  split at h
  · exact congrArg (Option.map _) (if_pos rfl)
  · exact congrArg (Option.map _) (if_pos rfl)
  · exact congrArg (Option.map _) (if_pos rfl)
  · have hpath : isPathWord word none = true := h
    exact congrArg (Option.map _) (if_pos (by rw [hpath, Bool.true_or]))
  · cases h

/-- The inline calls of a node are those of a tag. -/
def CallsOf (pieces : List Piece) (node : Node) : Prop :=
  ∀ name arguments, node = .inlineCall name arguments → Calls pieces name arguments

section

variable {registered : String → Bool} {pieces rest : List Piece} {word : String}

theorem callsOf_readPath {item : Item} (h : readPath word rest = some item)
    (hcalls : ∀ name, CalledByPath word rest name → Calls pieces name (rest.map toArgument)) :
    item.Holds (CallsOf pieces) := by
  rcases readPath_eq_some_iff.1 h with ⟨-, rfl⟩ | ⟨name, hcalled, rfl⟩
  · refine List.forall_mem_singleton.2 ?_
    rintro _ _ ⟨⟩
  · refine List.forall_mem_singleton.2 ?_
    rintro _ _ ⟨⟩
    exact hcalls name hcalled

/-- A word that is not an opener calls what the tag calls, whether it names a helper or not. -/
theorem callsOf_readPlain {sigil : Option Sigil} (hword : IsArgument (.word word sigil))
    {item : Item} (h : readPlain registered word sigil rest = some item) :
    item.Holds (CallsOf (.word word sigil :: rest)) := by
  rw [readPlain] at h
  cases hpath : isPathWord word sigil with
  | true =>
    rw [hpath, Bool.true_or, if_pos rfl] at h
    exact callsOf_readPath h fun name hcalled => .path hpath hcalled
  | false =>
    obtain rfl : sigil = none := sigil_eq_none (sigil_mem_of_isArgument hword) hpath
    obtain ⟨hname, hne⟩ := Element.isSingleName_of_isArgument hword hpath
    rw [hpath, Bool.false_or] at h
    split at h
    · -- A single name is the name of its path.
      refine callsOf_readPath h fun name hcalled => ?_
      obtain rfl : word = name :=
        Option.some.inj ((Path.bareName?_ofWord hname hne).symm.trans hcalled.bareName)
      exact .word hpath
    · split at h
      · cases h
        refine List.forall_mem_singleton.2 ?_
        rintro _ _ ⟨⟩
        exact .word hpath
      · obtain ⟨-, heq⟩ := Option.ite_none_right_eq_some.1 h
        cases heq
        trivial

theorem callsOf_readOpener {inverted : Bool} {item : Item}
    (h : readOpener registered inverted word rest = some item) :
    item.Holds (CallsOf pieces) := by
  rw [readOpener] at h
  split at h
  · cases h
    rintro _ _ _ _ ⟨⟩
  · split at h
    · cases h
      rintro _ _ _ _ ⟨⟩
    · obtain ⟨name, -, rfl⟩ := Option.map_eq_some_iff.1 h
      rintro _ _ _ _ ⟨⟩

theorem holds_of_map {P : Node → Prop} {result : Option Item} {found : List Item}
    (h : (result.map fun item => [item]) = some found)
    (hitem : ∀ item, result = some item → item.Holds P) : ∀ item ∈ found, item.Holds P := by
  obtain ⟨item, hresult, rfl⟩ := Option.map_eq_some_iff.1 h
  exact List.forall_mem_singleton.2 (hitem item hresult)

/-- The items of a tag call what the tag calls. -/
theorem callsOf_readTag (hcontents : TagContents pieces) {found : List Item}
    (h : readTag registered pieces = some found) : ∀ item ∈ found, item.Holds (CallsOf pieces) := by
  -- Texts, partials and outputs hold no call at all.
  have hleaf : ∀ {part : Node}, part.nodes = [part] →
      (∀ name arguments, part ≠ .inlineCall name arguments) →
      ∀ item ∈ [Item.node part], item.Holds (CallsOf pieces) := by
    intro part hnodes hcall
    refine List.forall_mem_singleton.2 ?_
    rw [Item.Holds, hnodes]
    refine List.forall_mem_singleton.2 fun name arguments heq => ?_
    exact absurd heq (hcall name arguments)
  cases hcontents with
  | comment =>
    cases h
    exact List.forall_mem_nil _
  | empty => cases h
  | @plain head rest hhead _ _ =>
    cases head with
    | quoted text =>
      obtain ⟨-, heq⟩ := Option.ite_none_right_eq_some.1 h
      cases heq
      exact hleaf rfl (by rintro _ _ ⟨⟩)
    | word word sigil =>
      rw [readTag_plain registered (sigil_mem_of_isArgument hhead)] at h
      exact holds_of_map h fun item => callsOf_readPlain hhead
  | @sigil word c sigil rest hsigil _ _ _ =>
    rcases headSigil?_cases hsigil with rfl | rfl | rfl | rfl
    · obtain ⟨-, hopener⟩ := Option.ite_none_left_eq_some.1 h
      exact holds_of_map hopener fun item => callsOf_readOpener
    · obtain ⟨-, heq⟩ := Option.ite_none_right_eq_some.1 h
      cases heq
      exact List.forall_mem_singleton.2 trivial
    · rw [readTag] at h
      split at h
      · exact holds_of_map h fun item => callsOf_readOpener
      · obtain ⟨-, heq⟩ := Option.ite_none_right_eq_some.1 h
        cases heq
        exact List.forall_mem_singleton.2 trivial
    · obtain ⟨-, hcontext⟩ := Option.ite_none_left_eq_some.1 h
      obtain ⟨context, -, rfl⟩ := Option.map_eq_some_iff.1 hcontext
      exact hleaf rfl (by rintro _ _ ⟨⟩)

end

/-! ## Whole templates -/

section

variable {registered : String → Bool} {text : String} {tokens : List Token} {items : List Item}

/-- The items of a template are those before a tag, those of the tag, and those after it. -/
theorem readItems_split (h : tokenize text = .ok tokens)
    {before after : List (Segment String (List Piece))} {pieces : List Piece}
    (hsplit : Segment.ofTokens (Token.stripLines tokens) = before ++ .tag pieces :: after)
    (hitems : readItems registered (Token.stripLines tokens) = .ok items) :
    ∃ former found latter, readItems registered (before.flatMap Segment.toTokens) = .ok former ∧
      readTag registered pieces = some found ∧
      readItems registered (after.flatMap Segment.toTokens) = .ok latter ∧
      items = former ++ (found ++ latter) := by
  obtain ⟨parts, hparts, -, rfl⟩ := tokenize_eq_ok_iff.1 h
  rw [ofTokens_stripLines hparts] at hsplit
  have hcontents := fun pieces => @tagContents_of_mem_strip _ hparts [] false pieces
  rw [hsplit] at hcontents
  -- Read tag by tag, the items fall into those before the tag, its own and those after it.
  have hread := toOption_readItems hparts registered
  rw [hitems, hsplit, readSegments_append] at hread
  obtain ⟨former, hformer, hread⟩ := Option.bind_eq_some_iff.1 hread.symm
  obtain ⟨rest, hrest, hjoin⟩ := Option.map_eq_some_iff.1 hread
  obtain ⟨found, latter, hfound, hlatter, rfl⟩ := readSegments_cons.1 hrest
  refine ⟨former, found, latter, ?_, hfound, ?_, hjoin.symm⟩
  · rw [← Results.toOption_eq_some, toOption_readItems_flatMap registered fun pieces hmem =>
      hcontents pieces (List.mem_append_left _ hmem), hformer]
  · rw [← Results.toOption_eq_some, toOption_readItems_flatMap registered fun pieces hmem =>
      hcontents pieces (List.mem_append_right _ (List.mem_cons_of_mem _ hmem)), hlatter]

/-- A template with a tag that cannot be read is refused for its tags. -/
theorem read_malformedTag (h : tokenize text = .ok tokens) {pieces : List Piece}
    (hmem : pieces ∈ Segment.tags tokens) (hread : readTag registered pieces = none) :
    ∃ fault, Template.read registered text = .error (.malformedTag fault) := by
  cases hitems : readItems registered (Token.stripLines tokens) with
  | error fault =>
    refine ⟨fault, ?_⟩
    rw [read_eq_ofTokens h, Template.ofTokens, hitems]
    rfl
  | ok items =>
    obtain ⟨found, hfound⟩ := exists_readTag h hitems hmem
    rw [hread] at hfound
    cases hfound

/-- An item is that of a text, or it is one of a tag. -/
theorem mem_readSegments {segments : List (Segment String (List Piece))}
    (h : readSegments registered segments = some items) {item : Item} (hitem : item ∈ items) :
    ∃ segment ∈ segments, ∃ found, readSegment registered segment = some found ∧ item ∈ found := by
  induction segments generalizing items with
  | nil =>
    cases h
    cases hitem
  | cons segment segments ih =>
    obtain ⟨former, latter, hformer, hlatter, rfl⟩ := readSegments_cons.1 h
    rcases List.mem_append.1 hitem with hitem | hitem
    · exact ⟨segment, List.mem_cons_self, former, hformer, hitem⟩
    · obtain ⟨other, hother, hfound⟩ := ih hlatter hitem
      exact ⟨other, List.mem_cons_of_mem _ hother, hfound⟩

/-- The calls of a template are those of its tags. -/
theorem calls_of_mem_allNodes (h : tokenize text = .ok tokens) {template : Template}
    (hread : Template.read registered text = .ok template) {name : String}
    {arguments : List Argument} (hmem : .inlineCall name arguments ∈ allNodes template) :
    ∃ pieces ∈ Segment.tags tokens, Calls pieces name arguments := by
  obtain ⟨parts, items, nodes, hparts, hsource, hitems, hnodes, rfl⟩ := read_eq_ok_iff.1 hread
  obtain rfl : parts.flatMap Part.tokens = tokens :=
    Except.ok.inj ((tokenize_eq_ok_iff.2 ⟨parts, hparts, hsource, rfl⟩).symm.trans h)
  let Called (node : Node) : Prop :=
    ∀ name arguments, node = .inlineCall name arguments →
      ∃ pieces ∈ Segment.tags (parts.flatMap Part.tokens), Calls pieces name arguments
  have hholds : ∀ item ∈ items, item.Holds Called := by
    intro item hitem
    obtain ⟨segment, hsegment, found, hfound, hitem⟩ := mem_readSegments hitems hitem
    cases segment with
    | outside content =>
      cases hfound
      obtain rfl := List.mem_singleton.1 hitem
      refine List.forall_mem_singleton.2 ?_
      rintro _ _ ⟨⟩
    | tag pieces =>
      have htag : pieces ∈ Segment.tags (parts.flatMap Part.tokens) := by
        rw [← tags_strip]
        exact Segment.mem_filterMap_tag?.2 hsegment
      have hcontents := tagContents_of_mem_tags h htag
      refine (callsOf_readTag hcontents hfound item hitem).imp ?_
      exact fun node hcalls name arguments heq => ⟨pieces, htag, hcalls name arguments heq⟩
  -- Testing conditions leaves inline calls as they are, and makes none of other nodes.
  rw [allNodes_testAll, List.mem_map] at hmem
  obtain ⟨node, hnode, htested⟩ := hmem
  have hcalled := forall_mem_allNodes hnodes hholds node hnode
  cases node <;> cases htested
  exact hcalled _ _ rfl

end

/-- A tag whose head can only be a path is read as that path if nothing follows it, whatever is
registered. With arguments it is refused, unless the path comes to a single name of the current
frame, by which it is then called. No other inline helpers are called than by plain words and by
such paths. -/
theorem pathWords_read_data {text : String} {tokens : List Token} (h : tokenize text = .ok tokens)
    (configuration : Configuration) :
    (∀ before after word sigil rest items,
        Segment.ofTokens (Token.stripLines tokens) =
          before ++ .tag (.word word sigil :: rest) :: after →
        isPathWord word sigil = true →
        readItems configuration.isRegistered (Token.stripLines tokens) = .ok items →
        ∃ former item latter,
          readItems configuration.isRegistered (before.flatMap Segment.toTokens) = .ok former ∧
          readItems configuration.isRegistered (after.flatMap Segment.toTokens) = .ok latter ∧
          items = former ++ item :: latter ∧
          ((rest = [] ∧ item = .node (.output (Path.ofWord word))) ∨
            ∃ name, CalledByPath word rest name ∧
              item = .node (.inlineCall name (rest.map toArgument)))) ∧
      (∀ word sigil rest, .word word sigil :: rest ∈ Segment.tags tokens →
        isPathWord word sigil = true → rest ≠ [] → (∀ name, ¬ CalledByPath word rest name) →
        ∃ fault, Template.read configuration.isRegistered text = .error (.malformedTag fault)) ∧
      ∀ template, Template.read configuration.isRegistered text = .ok template →
        ∀ name arguments, .inlineCall name arguments ∈ allNodes template →
          ∃ pieces ∈ Segment.tags tokens, Calls pieces name arguments := by
  refine ⟨?_, ?_, ?_⟩
  · intro before after word sigil rest items hsplit hpath hitems
    obtain ⟨former, found, latter, hformer, hfound, hlatter, rfl⟩ :=
      readItems_split h hsplit hitems
    rw [readTag_path _ hpath] at hfound
    obtain ⟨item, hitem, rfl⟩ := Option.map_eq_some_iff.1 hfound
    exact ⟨former, item, latter, hformer, hlatter, rfl, readPath_eq_some_iff.1 hitem⟩
  · intro word sigil rest hmem hpath hrest hcalled
    refine read_malformedTag h hmem ?_
    rw [readTag_path _ hpath, Option.map_eq_none_iff, Option.eq_none_iff_forall_not_mem]
    intro item hitem
    -- A tag that were read would be one of the two readings, and both are excluded.
    rcases readPath_eq_some_iff.1 hitem with ⟨hempty, -⟩ | ⟨name, hname, -⟩
    · exact hrest hempty
    · exact hcalled name hname
  · intro template hread name arguments hmem
    exact calls_of_mem_allNodes h hread hmem

/-- With a helper called `name`, `./name` reads data and `link` is the one helper that is called. A
path that climbs is refused with an argument. -/
theorem pathWords_read_data_name :
    let configuration := Configuration.empty.register (.inline "name" BuiltIn.logInline)
    let path : List Piece := [.word "./name" (some .this)]
    let call : List Piece := [.word "link" none, .word "this.a" (some .this)]
    let climb : List Piece := [.word "../a" (some .parent), .quoted "x"]
    let text := "\x7b\x7b ./name \x7d\x7d\x7b\x7b link  this.a \x7d\x7d"
    let refused := "\x7b\x7b ../a  \"x\" \x7d\x7d"
    let output : Item := .node (.output (Path.ofWord "./name"))
    let link : Item := .node (.inlineCall "link" [.path (Path.ofWord "this.a")])
    tokenize text = .ok ([path, call].flatMap fun pieces => Segment.toTokens (.tag pieces)) ∧
      tokenize refused = .ok (Segment.toTokens (.tag climb)) ∧
      (∃ former item latter, [output, link] = former ++ item :: latter ∧
        readItems configuration.isRegistered [] = .ok former ∧ item = output) ∧
      (∃ fault, Template.read configuration.isRegistered refused = .error (.malformedTag fault)) ∧
      ∃ pieces ∈ [path, call], Calls pieces "link" [.path (Path.ofWord "this.a")] := by
  intro configuration path call climb text refused output link
  have h : tokenize text = .ok _ := tokenize_print_tags [path, call] (by decide)
  have hitems := @readItems_of_tags configuration.isRegistered _ _ [output, link] h rfl
  have hread := @read_of_tags configuration.isRegistered _ _ [output, link] _ h rfl rfl
  have hclimb : tokenize refused = .ok (Segment.toTokens (.tag climb)) :=
    tokenize_print_tags [climb] (by decide)
  obtain ⟨hpath, -, hcalls⟩ := pathWords_read_data h configuration
  obtain ⟨-, hrefused, -⟩ := pathWords_read_data hclimb configuration
  refine ⟨h, hclimb, ?_, ?_, ?_⟩
  · obtain ⟨former, item, latter, hformer, -, heq, hitem⟩ :=
      hpath [] [.tag call] "./name" (some .this) [] _ rfl rfl hitems
    rcases hitem with ⟨-, rfl⟩ | ⟨name, hcalled, -⟩
    · exact ⟨former, _, latter, heq, hformer, rfl⟩
    · exact absurd rfl hcalled.arguments
  · refine hrefused "../a" (some .parent) [.quoted "x"] List.mem_cons_self rfl (by decide) ?_
    intro name hcalled
    cases hcalled.bareName
  · exact hcalls _ hread "link" _ (List.mem_cons_of_mem _ List.mem_cons_self)

/-- A path with the sign of the current frame is called as a helper if arguments follow it. -/
theorem exists_call_of_pathWord :
    let registered := Configuration.empty.isRegistered
    let text := "\x7b\x7b ./name  \"x\" \x7d\x7d"
    let pieces : List Piece := [.word "./name" (some .this), .quoted "x"]
    tokenize text = .ok (Segment.toTokens (.tag pieces)) ∧
      isPathWord "./name" (some .this) = true ∧
      Template.read registered text = .ok [.inlineCall "name" [.literal "x"]] := by
  intro registered text pieces
  have h : tokenize text = .ok _ := tokenize_print_tags [pieces] (by decide)
  exact ⟨h, rfl, @read_of_tags registered _ _ _ _ h rfl rfl⟩

end BraceTemplate
