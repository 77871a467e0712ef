import BraceTemplate.Configuration
import BraceTemplate.Proofs.Joining.Reading
import BraceTemplate.Proofs.Joining.Relations
import BraceTemplate.Proofs.Lines.Returns

/-!
# Templates with other line endings

With a carriage return before every newline a template is read as before, but for the texts between
its tags, which have their returns: `ofTokens_withReturns`. No other text node of a template has a
newline from a line of its own. The value of a quoted string that stands alone in its tag may have
one that is spelled by an escape, and it stays as it is.
-/

namespace BraceTemplate

open Scanner (closeBraces PieceText TagText)

/-! ## Changing the texts of a template -/

mutual

/-- A node with its text and those of its bodies changed. -/
def Node.mapTexts (f : String → String) : Node → Node
  | .text content => .text (f content)
  | .blockCall name arguments body inverse =>
    .blockCall name arguments (mapTexts f body) (mapInverse f inverse)
  | .pathBlock path body inverse => .pathBlock path (mapTexts f body) (mapInverse f inverse)
  | .output path => .output path
  | .inlineCall name arguments => .inlineCall name arguments
  | .partialCall name context => .partialCall name context

/-- A template with the contents of its text nodes changed. -/
def mapTexts (f : String → String) : List Node → List Node
  | [] => []
  | node :: nodes => node.mapTexts f :: mapTexts f nodes

/-- An inverse body with the contents of its text nodes changed. -/
def mapInverse (f : String → String) : Option (List Node) → Option (List Node)
  | none => none
  | some nodes => some (mapTexts f nodes)

end

/-- A node that is no text and has no bodies. -/
def Node.IsPlain : Node → Prop
  | .output _ | .inlineCall _ _ | .partialCall _ _ => True
  | _ => False

/-- Two templates that differ in the contents of their text nodes only, which are related. -/
inductive RewritesTexts (R : String → String → Prop) : List Node → List Node → Prop
  | nil : RewritesTexts R [] []
  | text {content other : String} {nodes others : List Node} (hcontent : R content other)
      (h : RewritesTexts R nodes others) :
      RewritesTexts R (.text content :: nodes) (.text other :: others)
  | plain {node : Node} {nodes others : List Node} (hplain : node.IsPlain)
      (h : RewritesTexts R nodes others) : RewritesTexts R (node :: nodes) (node :: others)
  | block (name : String) (head : BlockHead) {body otherBody nodes others : List Node}
      (hbody : RewritesTexts R body otherBody) (h : RewritesTexts R nodes others) :
      RewritesTexts R (head.node name body none :: nodes) (head.node name otherBody none :: others)
  | elseBlock (name : String) (head : BlockHead)
      {body otherBody inverse otherInverse nodes others : List Node}
      (hbody : RewritesTexts R body otherBody) (hinverse : RewritesTexts R inverse otherInverse)
      (h : RewritesTexts R nodes others) :
      RewritesTexts R (head.node name body (some inverse) :: nodes)
        (head.node name otherBody (some otherInverse) :: others)

namespace RewritesTexts

variable {R : String → String → Prop} {nodes others : List Node}

theorem append {later last : List Node} (h : RewritesTexts R nodes others)
    (hlater : RewritesTexts R later last) : RewritesTexts R (nodes ++ later) (others ++ last) := by
  induction h with
  | nil => exact hlater
  | text hcontent h ih => exact .text hcontent ih
  | plain hplain h ih => exact .plain hplain ih
  | block name head hbody h _ ih => exact .block name head hbody ih
  | elseBlock name head hbody hinverse h _ _ ih => exact .elseBlock name head hbody hinverse ih

/-- Rows of nodes stay related in a block that is put around them. -/
def relation (R : String → String → Prop) : NodesRelation where
  Rel := RewritesTexts R
  nil := .nil
  append := append
  block name head _ _ _ _ hbody hinverse := by
    cases hinverse with
    | none => exact .block name head hbody .nil
    | some hinner => exact .elseBlock name head hbody hinner .nil

/-- A block with its condition tested, given that its bodies are. -/
theorem exists_testConditions_node (name : String) (head : BlockHead) :
    ∃ tested : BlockHead, ∀ body inverse,
      (head.node name body inverse).testConditions =
        tested.node name (BraceTemplate.testAll body) (testInverse inverse) := by
  cases head with
  | helper arguments => exact ⟨.helper (testArguments name arguments), fun _ _ => rfl⟩
  | path path => exact ⟨.path path, fun _ _ => rfl⟩

/-- Conditions are tested without a look at texts. -/
theorem testAll (h : RewritesTexts R nodes others) :
    RewritesTexts R (BraceTemplate.testAll nodes) (BraceTemplate.testAll others) := by
  induction h with
  | nil => exact .nil
  | text hcontent h ih => exact .text hcontent ih
  | @plain node _ _ hplain h ih =>
    have htested : node.testConditions = node := by
      cases node <;> first | rfl | exact hplain.elim
    rw [BraceTemplate.testAll, BraceTemplate.testAll, htested]
    exact .plain hplain ih
  | block name head hbody h ihBody ih =>
    obtain ⟨tested, htested⟩ := exists_testConditions_node name head
    rw [BraceTemplate.testAll, BraceTemplate.testAll, htested, htested]
    exact .block name tested ihBody ih
  | elseBlock name head hbody hinverse h ihBody ihInverse ih =>
    obtain ⟨tested, htested⟩ := exists_testConditions_node name head
    rw [BraceTemplate.testAll, BraceTemplate.testAll, htested, htested]
    exact .elseBlock name tested ihBody ihInverse ih

theorem mapTexts_node (f : String → String) (name : String) (head : BlockHead) (body : List Node)
    (inverse : Option (List Node)) :
    (head.node name body inverse).mapTexts f =
      head.node name (mapTexts f body) (mapInverse f inverse) := by
  cases head <;> rfl

/-- If the contents of all texts are changed alike, then the other template is the changed one. -/
theorem eq_mapTexts {f : String → String}
    (hf : ∀ content other, R content other → other = f content)
    (h : RewritesTexts R nodes others) : others = mapTexts f nodes := by
  induction h with
  | nil => rfl
  | text hcontent h ih => rw [mapTexts, Node.mapTexts, hf _ _ hcontent, ih]
  | @plain node _ _ hplain h ih =>
    have hnode : node.mapTexts f = node := by
      cases node <;> first | rfl | exact hplain.elim
    rw [mapTexts, hnode, ih]
  | block name head hbody h ihBody ih => rw [mapTexts, mapTexts_node, ihBody, ih, mapInverse]
  | elseBlock name head hbody hinverse h ihBody ihInverse ih =>
    rw [mapTexts, mapTexts_node, ihBody, ihInverse, ih, mapInverse]

end RewritesTexts

/-! ## Texts among the items -/

section

variable {registered : String → Bool} {word : String} {rest : List Piece} {node : Node}

theorem isPlain_of_readPath (h : readPath word rest = some (.node node)) : node.IsPlain := by
  rw [readPath] at h
  split at h
  · cases h
    trivial
  · obtain ⟨name, -, heq⟩ := Option.map_eq_some_iff.1 h
    cases heq
    trivial

theorem isPlain_of_readPlain {sigil : Option Sigil}
    (h : readPlain registered word sigil rest = some (.node node)) : node.IsPlain := by
  rw [readPlain] at h
  split at h
  · exact isPlain_of_readPath h
  · split at h
    · cases h
      trivial
    · obtain ⟨-, heq⟩ := Option.ite_none_right_eq_some.1 h
      cases heq

theorem readOpener_ne_node {inverted : Bool} :
    readOpener registered inverted word rest ≠ some (.node node) := by
  intro h
  rw [readOpener] at h
  split at h
  · cases h
  · split at h
    · cases h
    · obtain ⟨name, -, heq⟩ := Option.map_eq_some_iff.1 h
      cases heq

theorem eq_some_of_mem {result : Option Item} {items : List Item} {item : Item}
    (h : (result.map fun item => [item]) = some items) (hmem : item ∈ items) :
    result = some item := by
  obtain ⟨found, hresult, rfl⟩ := Option.map_eq_some_iff.1 h
  rw [hresult, List.mem_singleton.1 hmem]

/-- The only tag that is read as a text is a quoted string that nothing comes before or after. -/
theorem node_of_readTag {pieces : List Piece} {items : List Item}
    (h : readTag registered pieces = some items) (hmem : .node node ∈ items) :
    node.IsPlain ∨ ∃ content, pieces = [.quoted content] ∧ node = .text content := by
  cases pieces with
  | nil => cases h
  | cons head rest =>
    cases head with
    | quoted content =>
      obtain ⟨hrest, heq⟩ := Option.ite_none_right_eq_some.1 h
      cases heq
      cases List.mem_singleton.1 hmem
      exact .inr ⟨content, by rw [List.isEmpty_iff.1 hrest], rfl⟩
    | word word sigil =>
      left
      have hplain : sigil ∈ pathSigils → node.IsPlain := by
        intro hsigil
        rw [readTag_plain registered hsigil] at h
        exact isPlain_of_readPlain (eq_some_of_mem h hmem)
      -- Words with a path sigil or with none are read alike, and never become a text.
      cases sigil with
      | none => exact hplain (by decide)
      | some sigil =>
        cases sigil with
        | data => exact hplain (by decide)
        | parent => exact hplain (by decide)
        | this => exact hplain (by decide)
        | comment =>
          cases h
          cases hmem
        | partialCall =>
          obtain ⟨-, hcontext⟩ := Option.ite_none_left_eq_some.1 h
          obtain ⟨context, -, rfl⟩ := Option.map_eq_some_iff.1 hcontext
          cases List.mem_singleton.1 hmem
          trivial
        | blockClose =>
          obtain ⟨-, heq⟩ := Option.ite_none_right_eq_some.1 h
          cases heq
          cases List.mem_singleton.1 hmem
        | blockOpen =>
          obtain ⟨-, hopener⟩ := Option.ite_none_left_eq_some.1 h
          exact absurd (eq_some_of_mem hopener hmem) readOpener_ne_node
        | inverted =>
          rw [readTag] at h
          split at h
          · exact absurd (eq_some_of_mem h hmem) readOpener_ne_node
          · obtain ⟨-, heq⟩ := Option.ite_none_right_eq_some.1 h
            cases heq
            cases List.mem_singleton.1 hmem

end

/-! ## Reading changed texts -/

/-- A text becomes a changed one if it stands between the tags, and it stays the same if it is the
value of a quoted string alone in one of the given tags. -/
def Rewritten (f : String → String) (tags : List (List Piece)) (content other : String) : Prop :=
  other = f content ∨ other = content ∧ [.quoted content] ∈ tags

section

variable (registered : String → Bool) (f : String → String) {tags : List (List Piece)}

/-- A segment and the one with its text rewritten are read into related items, or neither is. -/
theorem readSegment_mapText {segment : Segment String (List Piece)}
    (h : ∀ pieces, segment = .tag pieces → pieces ∈ tags) :
    Option.Rel (RewritesTexts.relation (Rewritten f tags)).Items (readSegment registered segment)
      (readSegment registered (segment.mapText f)) := by
  cases segment with
  | outside content =>
    have htext : RewritesTexts (Rewritten f tags) [.text content] [.text (f content)] :=
      .text (.inl rfl) .nil
    exact .some (@NodesRelation.Items.nodes (RewritesTexts.relation (Rewritten f tags)) _ _ [] []
      htext .nil)
  | tag pieces =>
    rw [Segment.mapText, readSegment]
    cases hread : readTag registered pieces with
    | none => exact .none
    | some items =>
      -- The tag is read as before, so a text among its items is the value of a quoted string.
      refine .some (.refl items fun node hmem => ?_)
      rcases node_of_readTag hread hmem with hplain | ⟨content, rfl, rfl⟩
      · exact .plain hplain .nil
      · exact .text (.inr ⟨rfl, h _ rfl⟩) .nil

/-- The rewriting of the texts between the tags carries over to the items of a whole template. -/
theorem readSegments_mapText {segments : List (Segment String (List Piece))}
    (h : ∀ pieces, .tag pieces ∈ segments → pieces ∈ tags) :
    Option.Rel (RewritesTexts.relation (Rewritten f tags)).Items (readSegments registered segments)
      (readSegments registered (segments.map (Segment.mapText f))) := by
  induction segments with
  | nil => exact .some .nil
  | cons segment segments ih =>
    have hsegment := @readSegment_mapText registered f tags segment
      fun pieces heq => h pieces (heq ▸ List.mem_cons_self)
    have hrest := ih fun pieces hmem => h pieces (List.mem_cons_of_mem _ hmem)
    rw [List.map_cons, readSegments_cons_eq, readSegments_cons_eq]
    -- Only how the four readings are related matters from here on.
    generalize readSegment registered segment = first at hsegment ⊢
    generalize readSegment registered (segment.mapText f) = second at hsegment ⊢
    cases hsegment with
    | none => exact .none
    | some hitems =>
      generalize readSegments registered segments = later at hrest ⊢
      generalize readSegments registered (segments.map (Segment.mapText f)) = last at hrest ⊢
      cases hrest with
      | none => exact .none
      | some hlater => exact .some (hitems.append hlater)

/-- Changing the texts between the tags changes the texts of the template, and nothing else. -/
theorem ofSegments?_mapText {segments : List (Segment String (List Piece))}
    (h : ∀ pieces, .tag pieces ∈ segments → pieces ∈ tags) :
    Option.Rel (RewritesTexts (Rewritten f tags)) (Template.ofSegments? registered segments)
      (Template.ofSegments? registered (segments.map (Segment.mapText f))) := by
  have hread := readSegments_mapText registered f h
  rw [Template.ofSegments?, Template.ofSegments?]
  generalize readSegments registered segments = items at hread ⊢
  generalize readSegments registered (segments.map (Segment.mapText f)) = others at hread ⊢
  cases hread with
  | none => exact .none
  | some hitems => exact (pairBlocks_related hitems).toOption_map fun _ _ => RewritesTexts.testAll

end

/-! ## Templates with carriage returns -/

section

variable {text : String} {tokens : List Token}

theorem ofTokens_stripLines_withReturns (h : tokenize text = .ok tokens) (hline : TagsInLines text) :
    Segment.ofTokens (Token.stripLines (tokens.map (Token.mapText withReturns))) =
      (Segment.ofTokens (Token.stripLines tokens)).map (Segment.mapText withReturns) := by
  obtain ⟨parts, hparts, -, rfl, hinline⟩ := hline.exists_layout h
  rw [← tokens_map_withReturns, ofTokens_stripLines (layout_withReturns hparts),
    ofTokens_stripLines hparts, strip_withReturns hinline rfl]

/-- The texts and tags that are left of a template have no other tags. -/
theorem mem_tags_of_stripLines (h : tokenize text = .ok tokens) {pieces : List Piece}
    (hmem : .tag pieces ∈ Segment.ofTokens (Token.stripLines tokens)) :
    pieces ∈ Segment.tags tokens := by
  obtain ⟨parts, hparts, -, rfl⟩ := tokenize_eq_ok_iff.1 h
  rw [ofTokens_stripLines hparts] at hmem
  rw [← tags_strip]
  exact Segment.mem_filterMap_tag?.2 hmem

theorem toOption_ofTokens_stripLines (registered : String → Bool) (h : tokenize text = .ok tokens) :
    (Template.ofTokens registered tokens).toOption =
      Template.ofSegments? registered (Segment.ofTokens (Token.stripLines tokens)) := by
  obtain ⟨parts, hparts, -, rfl⟩ := tokenize_eq_ok_iff.1 h
  rw [toOption_ofTokens registered hparts, ofTokens_stripLines hparts]

/-- A template with no newline in its tags is read in the same way with a carriage return before
every newline. The same tags are found, and they take the same lines with them, of which no return
is left. What is left is read as without the returns, but for the texts between the tags, which have
theirs. So it is a template if and only if it is one without the returns, and its text nodes have
them, unless they are the value of a quoted string that stands alone in its tag. If no escape spells
a newline in such a string, then all text nodes have their returns. -/
theorem ofTokens_withReturns (configuration : Configuration) (h : tokenize text = .ok tokens)
    (hline : TagsInLines text) :
    let returned := tokens.map (Token.mapText withReturns)
    let read := Template.ofTokens configuration.isRegistered
    let kept := Segment.ofTokens (Token.stripLines tokens)
    tokenize (withReturns text) = .ok returned ∧
    Token.stripLines returned = (Token.stripLines tokens).map (Token.mapText withReturns) ∧
    (read tokens).toOption = Template.ofSegments? configuration.isRegistered kept ∧
    (read returned).toOption = Template.ofSegments? configuration.isRegistered
      (kept.map (Segment.mapText withReturns)) ∧
    ((∃ template, read returned = .ok template) ↔ ∃ template, read tokens = .ok template) ∧
    ∀ template other, read tokens = .ok template → read returned = .ok other →
      RewritesTexts (Rewritten withReturns (Segment.tags tokens)) template other ∧
      ((∀ content, [.quoted content] ∈ Segment.tags tokens → '\n' ∉ content.toList) →
        other = mapTexts withReturns template) := by
  intro returned read kept
  have hreturned := tokenize_withReturns h hline
  have hkept := toOption_ofTokens_stripLines configuration.isRegistered h
  have hreturnedKept := toOption_ofTokens_stripLines configuration.isRegistered hreturned
  rw [ofTokens_stripLines_withReturns h hline] at hreturnedKept
  have hrelated := ofSegments?_mapText configuration.isRegistered withReturns fun pieces hmem =>
    mem_tags_of_stripLines h hmem
  rw [← hkept, ← hreturnedKept] at hrelated
  -- The two readings fail together; where both succeed the templates are related node by node.
  obtain ⟨hboth, hvalues⟩ := Results.of_rel_toOption hrelated
  refine ⟨hreturned, stripLines_withReturns h hline, hkept, hreturnedKept, hboth.symm, ?_⟩
  intro template other htemplate hother
  have hrewrites := hvalues _ _ htemplate hother
  -- Without a newline in a lone quoted string the two relations between texts are one function.
  refine ⟨hrewrites, fun hquoted => hrewrites.eq_mapTexts ?_⟩
  rintro content _ (rfl | ⟨heq, hmem⟩)
  · rfl
  · rw [heq, withReturns_eq_self (hquoted content hmem)]

end

/-- A reference to a partial goes away with its line and the return of it. -/
theorem ofTokens_withReturns_partial :
    let text := "a\n\x7b\x7b> p\x7d\x7d\nb\n"
    ∃ tokens, tokenize text = .ok tokens ∧
      tokenize (withReturns text) = .ok (tokens.map (Token.mapText withReturns)) ∧
      Template.ofTokens Configuration.builtIn.isRegistered
          (tokens.map (Token.mapText withReturns)) =
        .ok [.text "a\r\n", .partialCall "p" none, .text "b\r\n"] := by
  intro text
  let parts : List Part :=
    [.text ['a', '\n'], .tag ['>', ' ', 'p', '\x7d', '\x7d'] [.word "p" (some .partialCall)],
      .text ['\n', 'b', '\n']]
  have hnone : Text.IsSpace [] := List.forall_mem_nil _
  -- The name of the partial follows its sigil across a space.
  have hpiece : PieceText true ([] ++ '>' :: ([' '] ++ ['p'])) ([] ++ closeBraces)
      (.word "p" (some .partialCall)) :=
    .sigil hnone rfl (List.forall_mem_singleton.2 rfl) rfl (by decide) rfl
  have htag : TagText true ['>', ' ', 'p', '\x7d', '\x7d'] [.word "p" (some .partialCall)] :=
    .piece hpiece (.close hnone)
  have hparts : Layout parts :=
    .text (by decide) (by decide) (.tag htag (.lastText (by decide) (by decide)))
  have hsource : text.toList = parts.flatMap Part.source := by decide
  have hline : TagsInLines text := ⟨parts, hparts, hsource, by decide⟩
  have htokens : tokenize text = .ok (parts.flatMap Part.tokens) :=
    tokenize_eq_ok_iff.2 ⟨parts, hparts, hsource, rfl⟩
  obtain ⟨hreturned, -, -, -, hboth, htemplates⟩ :=
    ofTokens_withReturns Configuration.builtIn htokens hline
  have hread : Template.ofTokens Configuration.builtIn.isRegistered (parts.flatMap Part.tokens) =
      .ok [.text "a\n", .partialCall "p" none, .text "b\n"] := by
    rw [← Results.toOption_eq_some, toOption_ofTokens _ hparts]
    rfl
  obtain ⟨other, hother⟩ := hboth.2 ⟨_, hread⟩
  have hquoted : ∀ content, [.quoted content] ∈ Segment.tags (parts.flatMap Part.tokens) →
      '\n' ∉ content.toList := by
    rintro content hmem
    cases List.mem_singleton.1 hmem
  refine ⟨_, htokens, hreturned, ?_⟩
  rw [hother, (htemplates _ _ hread hother).2 hquoted]
  rfl

/-- A newline that an escape spells in a quoted string has no return before it, so not all text
nodes of a template have theirs. -/
theorem not_forall_ofTokens_mapTexts :
    ¬ ∀ (configuration : Configuration) (text : String) (tokens : List Token) (template : Template),
      tokenize text = .ok tokens → '\r' ∉ text.toList → TagsInLines text →
      Template.ofTokens configuration.isRegistered tokens = .ok template →
      ∃ returned, tokenize (withReturns text) = .ok returned ∧
        Template.ofTokens configuration.isRegistered returned =
          .ok (mapTexts withReturns template) := by
  intro h
  let text := "\x7b\x7b\"a\\nb\"\x7d\x7d"
  let body := ['"', 'a', '\\', 'n', 'b', '"', '\x7d', '\x7d']
  have hnone : Text.IsSpace [] := List.forall_mem_nil _
  have hpiece : PieceText true ([] ++ '"' :: ['a', '\\', 'n', 'b', '"']) ([] ++ closeBraces)
      (.quoted "a\nb") :=
    .quoted hnone (.inl rfl) rfl
  have htag : TagText true body [.quoted "a\nb"] := .piece hpiece (.close hnone)
  have hparts : Layout [.tag body [.quoted "a\nb"]] := .tag htag .nil
  have hsource : text.toList = [Part.tag body [.quoted "a\nb"]].flatMap Part.source := by decide
  have htokens := tokenize_eq_ok_iff.2 ⟨_, hparts, hsource, rfl⟩
  have hread : Template.ofTokens Configuration.builtIn.isRegistered
      ([Part.tag body [.quoted "a\nb"]].flatMap Part.tokens) = .ok [.text "a\nb"] := by
    rw [← Results.toOption_eq_some, toOption_ofTokens _ hparts]
    rfl
  obtain ⟨returned, hreturned, hother⟩ := h .builtIn text _ _ htokens (by decide)
    ⟨_, hparts, hsource, by decide⟩ hread
  -- The text has no newline of its own, and it is read as before.
  rw [withReturns_eq_self (by decide), htokens] at hreturned
  cases hreturned
  have hreturn : mapTexts withReturns [.text "a\nb"] = [.text "a\r\nb"] := rfl
  rw [hread, hreturn] at hother
  simp at hother

end BraceTemplate
