import BraceTemplate.Proofs.Joining.Reading
import BraceTemplate.Workspace

/-!
# What the reading of a template depends on

Whether a word names a helper is asked at the head of a tag only, and the answer makes no difference
to a single name that is followed by arguments: it is called as a helper in any case.
`decidingWords` are the words for which the answer makes a difference. By `ofTokens_congr`,
registries that agree on them read the same template or find the same fault.
-/

namespace BraceTemplate

open Element (tagOf ofPiece ofArgument toArgument headOf readHeads isPathWord)

/-! ## The words that matter -/

/-- The word of an opener, if it matters whether it names a helper: nothing follows it, or it is not
a single name. -/
def decidingOpener (word : String) (rest : List Piece) : List String :=
  if rest.isEmpty || !Path.isSingleName word then [word] else []

/-- The words of a tag for which it matters whether they name a helper. -/
def decidingHead : List Piece → List String
  | [.word word none] => [word]
  | .word word (some .blockOpen) :: rest => decidingOpener word rest
  | .word word (some .inverted) :: rest => decidingOpener word rest
  | _ => []

/-- The words of a template for which it matters whether they name a helper. -/
def decidingWords (tokens : List Token) : List String :=
  (Segment.tags tokens).flatMap decidingHead

/-! ## The head of a tag and its arguments -/

namespace Element

/-- A tag once its head is told apart and bound to the pieces after it. -/
def bindTag (registered : String → Bool) (head : Piece) (rest : List Piece) :
    Except TagFault (List Element) :=
  if (headOf registered head).takesArguments then
    ((headOf registered head).bind (rest.map toArgument)).map fun bound => tagOf [bound]
  else .ok (tagOf (headOf registered head :: rest.map ofArgument))

theorem calledName_of_isSingleName {word : String} (h : Path.isSingleName word = true)
    (hne : word ≠ "") : calledName (Path.ofWord word) = .ok word := by
  rw [calledName, Path.bareName?_ofWord h hne]

/-- A head depends on the registries only by whether its word names a helper. -/
theorem headOf_congr {first second : String → Bool} {word : String}
    (h : isHelperWord first word = isHelperWord second word) (sigil : Option Sigil) :
    headOf first (.word word sigil) = headOf second (.word word sigil) := by
  rw [headOf, headOf, ofPiece_word]
  split
  · rfl
  · rw [classifyHead, classifyHead, h]

theorem headOf_path (registered : String → Bool) {word : String} {sigil : Option Sigil}
    (h : isPathWord word sigil = true) :
    headOf registered (.word word sigil) = .node (.output (Path.ofWord word)) := by
  simp [headOf, ofPiece_word, h, classifyHead, readWord]

theorem headOf_helper {registered : String → Bool} {word : String} {sigil : Option Sigil}
    (hpath : isPathWord word sigil = false) (hsigil : mayCall sigil = true)
    (h : isHelperWord registered word = true) :
    headOf registered (.word word sigil) = .call word sigil [] := by
  simp [headOf, ofPiece_word, hpath, classifyHead, hsigil, h, readWord]

theorem headOf_other {registered : String → Bool} {word : String} {sigil : Option Sigil}
    (hpath : isPathWord word sigil = false) (h : isHelperWord registered word = false) :
    headOf registered (.word word sigil) = readWord (.token (.piece (.word word sigil))) := by
  simp [headOf, ofPiece_word, hpath, classifyHead, h]

theorem bindTag_eq {registered : String → Bool} {head : Piece} {rest : List Piece}
    {found bound : Element} (hhead : headOf registered head = found)
    (htakes : found.takesArguments = true) (hbind : found.bind (rest.map toArgument) = .ok bound) :
    bindTag registered head rest = .ok (tagOf [bound]) := by
  rw [bindTag, hhead, if_pos htakes, hbind]
  rfl

/-- A single name that is followed by arguments is called, whether it names a helper or not. -/
theorem bindTag_call (registered : String → Bool) {word : String} {sigil : Option Sigil}
    (hpath : isPathWord word sigil = false) (hsigil : mayCall sigil = true)
    (hname : Path.isSingleName word = true) (hne : word ≠ "") {rest : List Piece}
    (hrest : rest ≠ []) :
    bindTag registered (.word word sigil) rest =
      .ok (tagOf [.call word sigil (rest.map toArgument)]) := by
  cases hhelper : isHelperWord registered word with
  | true => exact bindTag_eq (headOf_helper hpath hsigil hhelper) rfl rfl
  | false =>
    obtain ⟨piece, rest, rfl⟩ := List.exists_cons_of_ne_nil hrest
    have hcalled := calledName_of_isSingleName hname hne
    -- Not registered, the word is first a path or an opener with one, which its arguments turn into
    -- a call under the same name.
    unfold mayCall at hsigil
    split at hsigil
    · have hhead : headOf registered (.word word none) = .node (.output (Path.ofWord word)) :=
        headOf_other hpath hhelper
      refine bindTag_eq hhead rfl ?_
      rw [List.map_cons, Element.bind, hcalled]
      rfl
    · have hhead : headOf registered (.word word (some .blockOpen)) =
          .pathOpener word (Path.ofWord word) false :=
        (headOf_other hpath hhelper).trans (if_neg hne)
      refine bindTag_eq hhead rfl ?_
      rw [List.map_cons, Element.bind, hcalled]
      rfl
    · have hhead : headOf registered (.word word (some .inverted)) =
          .pathOpener word (Path.ofWord word) true :=
        (headOf_other hpath hhelper).trans (if_neg hne)
      refine bindTag_eq hhead rfl ?_
      rw [List.map_cons, Element.bind, hcalled]
      rfl
    · cases hsigil

/-! ## Registries that agree -/

section

variable {first second : String → Bool}

theorem isHelperWord_congr {word : String} (h : first word = second word) :
    isHelperWord first word = isHelperWord second word := by
  rw [isHelperWord, isHelperWord, h]

theorem bindTag_congr_of_headOf {head : Piece} (h : headOf first head = headOf second head)
    (rest : List Piece) : bindTag first head rest = bindTag second head rest := by
  rw [bindTag, bindTag, h]

/-- A word that is not the sign of a path is a single name. -/
theorem isSingleName_of_isArgument {word : String} (h : IsArgument (.word word none))
    (hpath : isPathWord word none = false) : Path.isSingleName word = true ∧ word ≠ "" := by
  have hsigil : ∀ sigil, IsArgument (.word word sigil) →
      sigil = Scanner.pathSigil word.toList ∧ word ≠ "" := by
    intro sigil hargument
    cases hargument with
    | word hvalue =>
      refine ⟨rfl, ?_⟩
      rintro rfl
      cases hvalue
  obtain ⟨hnone, hne⟩ := hsigil none h
  refine ⟨?_, hne⟩
  rw [Path.isSingleName, Bool.not_eq_true', Bool.or_eq_false_iff, Bool.or_eq_false_iff]
  refine ⟨⟨hpath, ?_⟩, ?_⟩
  · by_contra hat
    rw [Scanner.pathSigil, if_pos (eq_true_of_ne_false hat)] at hnone
    cases hnone
  · rw [beq_eq_false_iff_ne]
    rintro rfl
    exact absurd hnone (by decide)

/-- Registries that agree on the words of a tag that matter bind its head in the same way. -/
theorem bindTag_congr {head : Piece} {rest : List Piece} (h : TagContents (head :: rest))
    (hagree : ∀ word ∈ decidingHead (head :: rest), first word = second word) :
    bindTag first head rest = bindTag second head rest := by
  cases h with
  | comment => rfl
  | plain hhead =>
    cases head with
    | quoted text => rfl
    | word word sigil =>
      cases hpath : isPathWord word sigil with
      | true =>
        exact bindTag_congr_of_headOf (by rw [headOf_path _ hpath, headOf_path _ hpath]) rest
      | false =>
        obtain rfl : sigil = none := sigil_eq_none (sigil_mem_of_isArgument hhead) hpath
        by_cases hrest : rest = []
        -- Alone, the word is asked for; with arguments it is a call, registered or not.
        · subst hrest
          have hword := hagree word (List.mem_singleton_self word)
          exact bindTag_congr_of_headOf (headOf_congr (isHelperWord_congr hword) none) []
        · obtain ⟨hname, hne⟩ := isSingleName_of_isArgument hhead hpath
          rw [bindTag_call first hpath rfl hname hne hrest,
            bindTag_call second hpath rfl hname hne hrest]
  | @sigil word c sigil _ hsigil _ hempty _ =>
    by_cases hne : word = ""
    · subst hne
      have hword : isHelperWord first "" = isHelperWord second "" := rfl
      exact bindTag_congr_of_headOf (headOf_congr hword _) rest
    · -- An opener is asked for unless it is a single name with arguments.
      have hopener : ∀ opener : Sigil, mayCall (some opener) = true →
          isPathWord word (some opener) = false →
          (∀ asked ∈ decidingOpener word rest, first asked = second asked) →
          bindTag first (.word word (some opener)) rest =
            bindTag second (.word word (some opener)) rest := by
        intro opener hcall hpath hasked
        rw [decidingOpener] at hasked
        split at hasked
        · have hword := hasked word (List.mem_singleton_self word)
          exact bindTag_congr_of_headOf (headOf_congr (isHelperWord_congr hword) _) rest
        · next hname =>
          rw [Bool.or_eq_true, not_or, List.isEmpty_iff, Bool.not_eq_true', Bool.not_eq_false]
            at hname
          rw [bindTag_call first hpath hcall hname.2 hne hname.1,
            bindTag_call second hpath hcall hname.2 hne hname.1]
      rcases headSigil?_cases hsigil with rfl | rfl | rfl | rfl
      · exact hopener .blockOpen rfl rfl hagree
      · rfl
      · exact hopener .inverted rfl rfl hagree
      · rfl

end

/-! ## Whole templates -/

/-- Tells heads apart and gives them the arguments that follow them. -/
def bindHeads (registered : String → Bool) (elements : List Element) :
    Except TagFault (List Element) :=
  bindArguments (readHeads registered elements)

/-- Two registries make the same of a stretch of elements. -/
def BindsAlike (first second : String → Bool) (stretch : List Element) : Prop :=
  ∃ result, Splits (bindHeads first) stretch result ∧ Splits (bindHeads second) stretch result

theorem splits_bindHeads_node (registered : String → Bool) (node : Node) :
    Splits (bindHeads registered) [.node node] (.ok [.node node]) := by
  intro rest
  have hbind : ∀ element ∈ [Element.node node], element ≠ .token .tagOpen :=
    List.forall_mem_singleton.2 (isInner_node node).1
  rw [bindHeads, readHeads_node]
  exact splits_bindArguments hbind _

theorem splits_bindHeads_empty (registered : String → Bool) :
    Splits (bindHeads registered) (tagOf []) (.ok (tagOf [])) := by
  intro rest
  rw [bindHeads, readHeads_empty, tagOf_append, List.nil_append, bindArguments]
  rfl

theorem splits_bindHeads_partialCall (registered : String → Bool) (name : String)
    (context : Option Path) :
    Splits (bindHeads registered) (tagOf [.node (.partialCall name context)])
      (.ok (tagOf [.node (.partialCall name context)])) := by
  intro rest
  rw [bindHeads, readHeads_tag registered _ (List.forall_mem_nil IsInner)]
  exact splits_bindArguments_tag (.node (.partialCall name context)) [] _

theorem splits_bindHeads_tag (registered : String → Bool) (head : Piece) {rest : List Piece}
    (hrest : ∀ piece ∈ rest, IsArgument piece) :
    Splits (bindHeads registered) (tagOf ((head :: rest).map ofPiece))
      (bindTag registered head rest) := by
  intro later
  rw [bindHeads, readHeads_pieces registered head hrest]
  exact splits_bindArguments_tag (headOf registered head) rest _

/-- Two registries make the same of a text or a tag, unless its partials cannot be read. -/
def ReadsAlike (first second : String → Bool) (segment : Segment String (List Piece)) : Prop :=
  ∃ elements outcome,
    (∀ rest, ofTokens (segment.toTokens ++ rest) = elements ++ ofTokens rest) ∧
    Splits readPartials elements outcome ∧
    ∀ stretch, outcome = .ok stretch → BindsAlike first second stretch

theorem readsAlike_text (first second : String → Bool) (content : String) :
    ReadsAlike first second (.outside content) := by
  refine ⟨[.node (.text content)], .ok [.node (.text content)], ofTokens_text content, ?_, ?_⟩
  · apply splits_readPartials
    rw [List.forall_mem_singleton]
    rintro ⟨_, heq⟩
    cases heq
  · rintro stretch heq
    cases heq
    exact ⟨_, splits_bindHeads_node first _, splits_bindHeads_node second _⟩

theorem readsAlike_comment (first second : String → Bool) (value : String) :
    ReadsAlike first second (.tag [.word value (some .comment)]) := by
  refine ⟨[], .ok [], ofTokens_comment value, ?_, ?_⟩
  · exact splits_readPartials (List.forall_mem_nil _)
  · rintro stretch heq
    cases heq
    have hnil : ∀ registered : String → Bool, Splits (bindHeads registered) [] (.ok []) := by
      intro registered rest
      show bindHeads registered rest = (bindHeads registered rest).map ([] ++ ·)
      cases bindHeads registered rest <;> rfl
    exact ⟨_, hnil first, hnil second⟩

theorem readsAlike_empty (first second : String → Bool) : ReadsAlike first second (.tag []) := by
  refine ⟨tagOf [], .ok (tagOf []), ofTokens_tag (by rintro _ _ h; cases h), ?_, ?_⟩
  · apply splits_readPartials
    rintro element hmem ⟨_, rfl⟩
    simp [tagOf] at hmem
  · rintro stretch heq
    cases heq
    exact ⟨_, splits_bindHeads_empty first, splits_bindHeads_empty second⟩

theorem readsAlike_partial (first second : String → Bool) (name : String) {rest : List Piece}
    (hrest : ∀ piece ∈ rest, IsArgument piece) :
    ReadsAlike first second (.tag (.word name (some .partialCall) :: rest)) := by
  refine ⟨_, _, ofTokens_tag (by rintro _ _ h; cases h), splits_readPartials_partial name hrest, ?_⟩
  intro stretch heq
  split at heq
  · cases heq
  · obtain ⟨context, -, rfl⟩ := Results.map_eq_ok.1 heq
    exact ⟨_, splits_bindHeads_partialCall first name context,
      splits_bindHeads_partialCall second name context⟩

theorem readsAlike_headed {first second : String → Bool} {head : Piece} {rest : List Piece}
    (hcomment : ∀ value, head ≠ .word value (some .comment))
    (hpartial : ¬ IsPartialWord (ofPiece head)) (hrest : ∀ piece ∈ rest, IsArgument piece)
    (hbind : bindTag first head rest = bindTag second head rest) :
    ReadsAlike first second (.tag (head :: rest)) := by
  refine ⟨_, .ok (tagOf ((head :: rest).map ofPiece)), ofTokens_tag ?_,
    splits_readPartials (not_isPartialWord_tagOf hpartial hrest), ?_⟩
  · intro value pieces heq
    exact hcomment value (List.cons.inj heq).1
  · intro stretch heq
    cases heq
    exact ⟨_, splits_bindHeads_tag first head hrest,
      hbind ▸ splits_bindHeads_tag second head hrest⟩

/-- Registries that agree on the words of a tag that matter make the same of it. -/
theorem readsAlike_tag {first second : String → Bool} {pieces : List Piece}
    (h : TagContents pieces) (hagree : ∀ word ∈ decidingHead pieces, first word = second word) :
    ReadsAlike first second (.tag pieces) := by
  cases h with
  | comment => exact readsAlike_comment first second _
  | empty => exact readsAlike_empty first second
  | plain hhead hsigil hrest =>
    refine readsAlike_headed ?_ (not_isPartialWord_ofPiece hhead) hrest
      (bindTag_congr (.plain hhead hsigil hrest) hagree)
    rintro value rfl
    exact absurd (sigil_mem_of_isArgument hhead) (by decide)
  | @sigil word c sigil rest hsigil hword hempty hrest =>
    have hbind := bindTag_congr (.sigil hsigil hword hempty hrest) hagree
    rcases headSigil?_cases hsigil with rfl | rfl | rfl | rfl
    · exact readsAlike_headed (by rintro _ h; cases h) (by rintro ⟨_, h⟩; cases h) hrest hbind
    · exact readsAlike_headed (by rintro _ h; cases h) (by rintro ⟨_, h⟩; cases h) hrest hbind
    · exact readsAlike_headed (by rintro _ h; cases h) (by rintro ⟨_, h⟩; cases h) hrest hbind
    · exact readsAlike_partial first second word hrest

/-- Registries that make the same of every text and tag find the same elements, or the same
fault. -/
theorem bindHeads_congr {first second : String → Bool}
    {segments : List (Segment String (List Piece))}
    (h : ∀ segment ∈ segments, ReadsAlike first second segment) :
    readPartials (ofTokens (segments.flatMap Segment.toTokens)) >>= bindHeads first =
      readPartials (ofTokens (segments.flatMap Segment.toTokens)) >>= bindHeads second := by
  induction segments with
  | nil =>
    show bindArguments (readHeads first []) = bindArguments (readHeads second [])
    rfl
  | cons segment segments ih =>
    obtain ⟨elements, outcome, hfirst, hpartials, halike⟩ := h segment List.mem_cons_self
    have hrest := ih fun other hmem => h other (List.mem_cons_of_mem _ hmem)
    rw [List.flatMap_cons, hfirst, hpartials]
    cases outcome with
    | error fault => rfl
    | ok stretch =>
      obtain ⟨result, hleft, hright⟩ := halike stretch rfl
      -- A fault in the partials after this stretch comes before all faults of the heads.
      cases hlater : readPartials (ofTokens (segments.flatMap Segment.toTokens)) with
      | error fault => rfl
      | ok later =>
        rw [hlater] at hrest
        have hsame : bindHeads first later = bindHeads second later := hrest
        show bindHeads first (stretch ++ later) = bindHeads second (stretch ++ later)
        rw [hleft, hright, hsame]

end Element

/-- Registries that agree on the words of a template that matter read the same template, or fail
with the same error. -/
theorem ofTokens_congr {first second : String → Bool} {text : String} {tokens : List Token}
    (h : tokenize text = .ok tokens)
    (hagree : ∀ word ∈ decidingWords tokens, first word = second word) :
    Template.ofTokens first tokens = Template.ofTokens second tokens := by
  obtain ⟨parts, hparts, -, rfl⟩ := tokenize_eq_ok_iff.1 h
  have halike : ∀ segment ∈ strip [] false parts, Element.ReadsAlike first second segment := by
    intro segment hmem
    cases segment with
    | outside content => exact Element.readsAlike_text first second content
    | tag pieces =>
      refine Element.readsAlike_tag (tagContents_of_mem_strip hparts _ _ hmem) ?_
      intro word hword
      refine hagree word (List.mem_flatMap.2 ⟨pieces, ?_, hword⟩)
      rw [← tags_strip]
      exact Segment.mem_filterMap_tag?.2 hmem
  -- Between the partials and the items, binding the heads is all that asks what is registered.
  have hitems : ∀ registered : String → Bool,
      readItems registered (Token.stripLines (parts.flatMap Part.tokens)) =
        (Element.readPartials (Element.ofTokens ((strip [] false parts).flatMap Segment.toTokens))
          >>= Element.bindHeads registered) >>= Item.ofElements := by
    intro registered
    rw [stripLines_eq hparts, bind_assoc]
    rfl
  rw [Template.ofTokens, Template.ofTokens, hitems, hitems, Element.bindHeads_congr halike]

/-- A text that has no tokens fails in the same way under all registries, and one that has them is
read alike under registries that agree on the words that matter. -/
theorem read_congr {first second : String → Bool} {text : String}
    (hagree : ∀ tokens, tokenize text = .ok tokens →
      ∀ word ∈ decidingWords tokens, first word = second word) :
    Template.read first text = Template.read second text := by
  rw [Template.read, Template.read]
  cases h : tokenize text with
  | error error => rfl
  | ok tokens => exact ofTokens_congr h (hagree tokens h)

/-! ## Names that are registered -/

/-- The name that an entry makes the name of a helper. -/
def Registration.helperName? : Registration → Option String
  | .inline name _ => some name
  | .block name _ => some name
  | .template _ _ => none

theorem Configuration.isRegistered_register (configuration : Configuration) (entry : Registration)
    {word : String} (h : entry.helperName? ≠ some word) :
    (configuration.register entry).isRegistered word = configuration.isRegistered word := by
  have hne : ∀ name, some name ≠ some word → name ≠ word := fun name hname heq =>
    hname (congrArg some heq)
  cases entry with
  | inline name helper =>
    rw [isRegistered, hasInline, findInline?_register_inline, if_neg (hne name h)]
    rfl
  | block name helper =>
    rw [isRegistered, hasBlock, findBlock?_register_block, if_neg (hne name h)]
    rfl
  | template name template => rfl

/-! ## Calls -/

/-- A single name that is followed by arguments is read as a call, whether it names a helper or
not. -/
theorem readPlain_call (registered : String → Bool) {name : String} {arguments : List Piece}
    (hname : Path.isSingleName name = true) (hne : name ≠ "") (helse : name ≠ "else")
    (harguments : arguments ≠ []) :
    readPlain registered name none arguments =
      some (.node (.inlineCall name (arguments.map Element.toArgument))) := by
  rw [readPlain]
  split
  · rw [readPath, if_neg (mt List.isEmpty_iff.1 harguments), Path.bareName?_ofWord hname hne,
      Option.filter_some, if_pos (bne_iff_ne.2 helse), Option.map_some]
  · rw [if_pos (bne_iff_ne.2 helse)]

/-- A single name that is followed by arguments opens a call, whether it names a helper or not. -/
theorem readOpener_call (registered : String → Bool) (inverted : Bool) {name : String}
    {arguments : List Piece} (hname : Path.isSingleName name = true) (hne : name ≠ "")
    (harguments : arguments ≠ []) :
    readOpener registered inverted name arguments =
      some (.opener name (.helper (arguments.map Element.toArgument)) inverted) := by
  rw [readOpener]
  split
  · rfl
  · rw [if_neg (mt List.isEmpty_iff.1 harguments), Path.bareName?_ofWord hname hne, Option.map_some]

/-- A template that is one tag is the node of that tag. -/
theorem read_of_tag {registered : String → Bool} {text : String} {pieces : List Piece} {node : Node}
    (h : tokenize text = .ok (Segment.toTokens (.tag pieces)))
    (hread : readTag registered pieces = some [.node node]) :
    Template.read registered text = .ok [node.testConditions] := by
  have htokens : tokenize text =
      .ok ([pieces].flatMap fun pieces => Segment.toTokens (.tag pieces)) :=
    h.trans (congrArg Except.ok (List.flatMap_singleton _ _).symm)
  have hitems : readSegments registered [.tag pieces] = some ([node].map .node) := by
    rw [readSegments, List.mapM_cons, readSegment, hread]
    rfl
  exact read_of_tags htokens hitems (pairBlocks_nodes _)

/-- A tag that is a single name with arguments calls the helper of that name. -/
theorem read_call (registered : String → Bool) {text name : String} {arguments : List Piece}
    (h : tokenize text = .ok (Segment.toTokens (.tag (.word name none :: arguments))))
    (hname : Path.isSingleName name = true) (hne : name ≠ "") (helse : name ≠ "else")
    (harguments : arguments ≠ []) :
    Template.read registered text = .ok [.inlineCall name (arguments.map Element.toArgument)] :=
  read_of_tag h (congrArg (Option.map fun item => [item])
    (readPlain_call registered hname hne helse harguments))

/-- A tag that is a single name without arguments reads the member of that name, unless it names a
helper. -/
theorem read_name {registered : String → Bool} {text name : String}
    (h : tokenize text = .ok (Segment.toTokens (.tag [.word name none])))
    (hpath : isPathWord name none = false) (hhelper : isHelperWord registered name = false) :
    Template.read registered text = .ok [.output ⟨[name], 0, .current⟩] := by
  have htags : Segment.tags (Segment.toTokens (.tag [.word name none])) = [[.word name none]] := rfl
  have hcontents := tagContents_of_mem_tags h (htags ▸ List.mem_singleton_self _)
  have hargument : IsArgument (.word name none) := by
    cases hcontents with
    | plain hhead => exact hhead
  obtain ⟨hname, hne⟩ := Element.isSingleName_of_isArgument hargument hpath
  have hplain : readPlain registered name none [] =
      some (.node (.output ⟨[name], 0, .current⟩)) := by
    rw [readPlain, hpath, hhelper, if_pos (by rfl), readPath, if_pos (by rfl),
      Path.ofWord_of_isSingleName hname hne]
  exact read_of_tag h (congrArg (Option.map fun item => [item]) hplain)

/-! ## Registries that agree -/

/-- What a template is read as depends on whether its deciding words are registered as helpers, and
on nothing else: not on the partials, and not on other names. So an entry under another name makes
no difference, a single name with arguments is a call in any case, and a template that is compiled
in one environment can be registered in another one that agrees. -/
theorem reading_depends_on_decidingWords :
    (∀ (first second : Configuration) (text : String) (tokens : List Token),
        tokenize text = .ok tokens →
        (∀ word ∈ decidingWords tokens, first.isRegistered word = second.isRegistered word) →
        Template.ofTokens first.isRegistered tokens =
          Template.ofTokens second.isRegistered tokens) ∧
      (∀ (configuration : Configuration) (entry : Registration) (text : String)
        (tokens : List Token), tokenize text = .ok tokens →
        (∀ word ∈ decidingWords tokens, entry.helperName? ≠ some word) →
        Template.read (configuration.register entry).isRegistered text =
          Template.read configuration.isRegistered text) ∧
      (∀ (configuration : Configuration) (text name : String) (arguments : List Piece),
        tokenize text = .ok (Segment.toTokens (.tag (.word name none :: arguments))) →
        Path.isSingleName name = true → name ≠ "" → name ≠ "else" → arguments ≠ [] →
        Template.read configuration.isRegistered text =
          .ok [.inlineCall name (arguments.map Element.toArgument)]) ∧
      ∀ (workspace : Workspace) (first second : Environment) (text name : String),
        (∀ tokens, tokenize text = .ok tokens → ∀ word ∈ decidingWords tokens,
          (workspace.configuration first).isRegistered word =
            (workspace.configuration second).isRegistered word) →
        workspace.registerSource second name text =
          (workspace.compile first text).map fun renderer =>
            workspace.register second (.template name renderer.template) := by
  refine ⟨?_, ?_, ?_, ?_⟩
  · intro first second text tokens h hagree
    exact ofTokens_congr h hagree
  · intro configuration entry text tokens h hentry
    apply read_congr
    intro others hothers word hword
    -- The tokens of a text are determined, so these are the words the entry avoids.
    obtain rfl : tokens = others := Except.ok.inj (h.symm.trans hothers)
    exact configuration.isRegistered_register entry (hentry word hword)
  · intro configuration text name arguments h hname hne helse harguments
    exact read_call configuration.isRegistered h hname hne helse harguments
  · intro workspace first second text name hagree
    have hread := read_congr hagree
    rw [Workspace.registerSource, Workspace.compile, Workspace.compile, ← hread]
    cases Template.read (workspace.configuration first).isRegistered text <;> rfl

/-- A tag with a name and an argument has no deciding words, so it is the same call where nothing is
registered and where the name is that of a helper. -/
theorem reading_depends_on_decidingWords_call :
    let text := "\x7b\x7b link  a \x7d\x7d"
    let pieces : List Piece := [.word "link" none, .word "a" none]
    let entry : Registration := .inline "link" BuiltIn.logInline
    let workspace :=
      ((Workspace.empty.create .empty).1.create (Configuration.empty.register entry)).1
    tokenize text = .ok (Segment.toTokens (.tag pieces)) ∧
      Configuration.empty.isRegistered "link" = false ∧
      (Configuration.empty.register entry).isRegistered "link" = true ∧
      Template.ofTokens Configuration.empty.isRegistered (Segment.toTokens (.tag pieces)) =
        Template.ofTokens (Configuration.empty.register entry).isRegistered
          (Segment.toTokens (.tag pieces)) ∧
      Template.read (Configuration.empty.register entry).isRegistered text =
        Template.read Configuration.empty.isRegistered text ∧
      Template.read Configuration.empty.isRegistered text =
        .ok [.inlineCall "link" [.path (Path.ofWord "a")]] ∧
      workspace.registerSource ⟨1⟩ "card" text =
        (workspace.compile ⟨0⟩ text).map fun renderer =>
          workspace.register ⟨1⟩ (.template "card" renderer.template) := by
  intro text pieces entry workspace
  have h : tokenize text = .ok (Segment.toTokens (.tag pieces)) :=
    tokenize_print_tags [pieces] (by decide)
  have hwords : decidingWords (Segment.toTokens (.tag pieces)) = [] := rfl
  have hnone : ∀ p : String → Prop, ∀ word ∈ decidingWords (Segment.toTokens (.tag pieces)),
      p word := fun p => hwords ▸ List.forall_mem_nil p
  obtain ⟨hagree, hregister, hcall, hworkspace⟩ := reading_depends_on_decidingWords
  have hsame := hagree .empty (Configuration.empty.register entry) text _ h (hnone _)
  have hentry := hregister .empty entry text _ h (hnone _)
  have hlinked :=
    hcall .empty text "link" [.word "a" none] h rfl (by decide) (by decide) (by decide)
  have hcard := hworkspace workspace ⟨0⟩ ⟨1⟩ text "card" fun tokens htokens => by
    obtain rfl : _ = tokens := Except.ok.inj (h.symm.trans htokens)
    exact hnone _
  exact ⟨h, rfl, rfl, hsame, hentry, hlinked, hcard⟩

end BraceTemplate
