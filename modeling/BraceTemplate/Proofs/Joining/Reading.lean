import BraceTemplate.Proofs.Joining.Blocks
import BraceTemplate.Proofs.Joining.Seam
import BraceTemplate.Proofs.Reading.Items

/-!
# Reading two templates as one

A template that ends with a line is read on its own, whatever template is put after it. The nodes of
both in a row are those of the two, but for the texts that meet: they are one node.
-/

namespace BraceTemplate

open Scanner (openBraces)

/-- The nodes of a text, which are none if it is empty. -/
def textNodes (content : List Char) : List Node :=
  if content.isEmpty then [] else [.text (String.ofList content)]

theorem testAll_append (first second : List Node) :
    testAll (first ++ second) = testAll first ++ testAll second := by
  simp only [testAll_eq_map, List.map_append]

theorem testAll_textNodes (content : List Char) :
    testAll (textNodes content) = textNodes content := by
  rw [textNodes]
  split
  · rfl
  · rfl

theorem readSegments_textSegments (registered : String → Bool) (content : List Char) :
    readSegments registered (textSegments content) = some ((textNodes content).map .node) := by
  rw [textSegments, textNodes]
  split
  · rfl
  · rfl

theorem readSegments_append (registered : String → Bool)
    (first second : List (Segment String (List Piece))) :
    readSegments registered (first ++ second) = (readSegments registered first).bind fun items =>
      (readSegments registered second).map (items ++ ·) := by
  simp only [readSegments, List.mapM_append]
  cases first.mapM (readSegment registered) with
  | none => rfl
  | some items =>
    cases second.mapM (readSegment registered) with
    | none => rfl
    | some later => exact congrArg some List.flatten_append

/-- The template that is read from texts and tags, if they can be read. -/
def Template.ofSegments? (registered : String → Bool)
    (segments : List (Segment String (List Piece))) : Option Template :=
  (readSegments registered segments).bind fun items => (pairBlocks items).toOption.map testAll

/-- The passes over the tokens read a template from the texts and tags that are left of it. -/
theorem toOption_ofTokens (registered : String → Bool) {parts : List Part} (h : Layout parts) :
    (Template.ofTokens registered (parts.flatMap Part.tokens)).toOption =
      Template.ofSegments? registered (strip [] false parts) := by
  rw [Template.ofTokens, Template.ofSegments?, ← toOption_readItems h]
  cases readItems registered (Token.stripLines (parts.flatMap Part.tokens)) with
  | error fault => rfl
  | ok items =>
    show (((pairBlocks items).mapError Error.blockMismatch) >>= fun nodes =>
      pure (testAll nodes)).toOption = (pairBlocks items).toOption.map testAll
    cases pairBlocks items <;> rfl

theorem toOption_read (registered : String → Bool) {text : String} {parts : List Part}
    (h : Layout parts) (hsource : text.toList = parts.flatMap Part.source) :
    (Template.read registered text).toOption =
      Template.ofSegments? registered (strip [] false parts) := by
  rw [Template.read, tokenize_eq_ok_iff.2 ⟨parts, h, hsource, rfl⟩]
  exact toOption_ofTokens registered h

theorem ofSegments?_eq_some {registered : String → Bool}
    {segments : List (Segment String (List Piece))} {template : Template} :
    Template.ofSegments? registered segments = some template ↔ ∃ items nodes,
      readSegments registered segments = some items ∧ pairBlocks items = .ok nodes ∧
      testAll nodes = template := by
  simp only [Template.ofSegments?, Option.bind_eq_some_iff, Option.map_eq_some_iff,
    Results.toOption_eq_some, exists_and_left]

/-- A template is read from the texts and tags that are left of it. -/
theorem read_eq_ok_iff {registered : String → Bool} {text : String} {template : Template} :
    Template.read registered text = .ok template ↔ ∃ parts items nodes,
      Layout parts ∧ text.toList = parts.flatMap Part.source ∧
      readSegments registered (strip [] false parts) = some items ∧
      pairBlocks items = .ok nodes ∧ testAll nodes = template := by
  rw [← Results.toOption_eq_some]
  constructor
  · intro h
    obtain ⟨tokens, htokens, -⟩ := Results.bind_eq_ok.1 (Results.toOption_eq_some.1 h)
    obtain ⟨parts, hparts, hsource, -⟩ := tokenize_eq_ok_iff.1 htokens
    rw [toOption_read registered hparts hsource] at h
    obtain ⟨items, nodes, hread⟩ := ofSegments?_eq_some.1 h
    exact ⟨parts, items, nodes, hparts, hsource, hread⟩
  · rintro ⟨parts, items, nodes, hparts, hsource, hread⟩
    rw [toOption_read registered hparts hsource]
    exact ofSegments?_eq_some.2 ⟨items, nodes, hread⟩

/-- A template is read from the texts and tags of its tokens. -/
theorem read_of_tokenize {registered : String → Bool} {text : String} {tokens : List Token}
    {items : List Item} {nodes : List Node} (h : tokenize text = .ok tokens)
    (hitems : readSegments registered (Segment.ofTokens (Token.stripLines tokens)) = some items)
    (hnodes : pairBlocks items = .ok nodes) :
    Template.read registered text = .ok (testAll nodes) := by
  obtain ⟨parts, hparts, hsource, rfl⟩ := tokenize_eq_ok_iff.1 h
  rw [ofTokens_stripLines hparts] at hitems
  exact read_eq_ok_iff.2 ⟨parts, items, nodes, hparts, hsource, hitems, hnodes, rfl⟩

/-- A template without text is read from its tags. -/
theorem read_of_tags {registered : String → Bool} {text : String} {tags : List (List Piece)}
    {items : List Item} {nodes : List Node}
    (h : tokenize text = .ok (tags.flatMap fun pieces => Segment.toTokens (.tag pieces)))
    (hitems : readSegments registered (tags.map .tag) = some items)
    (hnodes : pairBlocks items = .ok nodes) :
    Template.read registered text = .ok (testAll nodes) := by
  refine read_of_tokenize h ?_ hnodes
  obtain ⟨parts, hparts, htokens, hstrip⟩ := exists_layout_of_tags h
  rw [htokens, ofTokens_stripLines hparts, hstrip]
  exact hitems

/-- A text without braces is one node, or none if it is empty. -/
theorem read_text (registered : String → Bool) {text : String} (h : ¬ openBraces <:+: text.toList) :
    Template.read registered text = .ok (textNodes text.toList) := by
  rw [read_eq_ok_iff]
  by_cases hempty : text.toList = []
  · rw [hempty]
    exact ⟨[], [], [], .nil, rfl, rfl, rfl, rfl⟩
  · refine ⟨[.text text.toList], _, _, .lastText hempty h, ?_, ?_, pairBlocks_nodes _,
      testAll_textNodes _⟩
    · rw [List.flatMap_singleton, Part.source]
    · rw [strip_text, strip, List.append_nil]
      exact readSegments_textSegments registered text.toList

/-- What is read of two templates that meet at the end of a line: the text between them is one node
instead of two. -/
theorem read_append {registered : String → Bool} {first second : String} {former latter : Template}
    (hend : first.toList.getLast? = some '\n')
    (hformer : Template.read registered first = .ok former)
    (hlatter : Template.read registered second = .ok latter) :
    ∃ before ending beginning after,
      former = before ++ textNodes ending ∧ latter = textNodes beginning ++ after ∧
      Template.read registered (first ++ second) =
        .ok (before ++ (textNodes (ending ++ beginning) ++ after)) := by
  obtain ⟨parts, items, nodes, hparts, hsource, hitems, hnodes, rfl⟩ := read_eq_ok_iff.1 hformer
  obtain ⟨parts', items', nodes', hparts', hsource', hitems', hnodes', rfl⟩ :=
    read_eq_ok_iff.1 hlatter
  obtain ⟨init, line, rfl, hline⟩ := exists_lastText hparts (hsource ▸ hend)
  obtain ⟨segments, ending, hfirst, hseam⟩ := exists_seam hline init
  have hboth := hseam parts'
  rw [hfirst, readSegments_append, readSegments_textSegments] at hitems
  obtain ⟨items, hsegments, hitems⟩ := Option.bind_eq_some_iff.1 hitems
  cases hitems
  rw [strip_afterText, readSegments_append, readSegments_textSegments, Option.bind_some] at hitems'
  obtain ⟨items', hlater, rfl⟩ := Option.map_eq_some_iff.1 hitems'
  -- All blocks of the first template are closed, so the text between the two is in none of them.
  obtain ⟨before, hbefore, rfl⟩ := pairBlocks_append_nodes hnodes
  rw [pairBlocks_append (pairBlocks_nodes _)] at hnodes'
  obtain ⟨after, hafter, rfl⟩ := Results.map_eq_ok.1 hnodes'
  refine ⟨testAll before, ending, leadingKept parts', testAll after, ?_, ?_, ?_⟩
  · rw [testAll_append, testAll_textNodes]
  · rw [testAll_append, testAll_textNodes]
  · have hbraces : ¬ openBraces <:+: line := by
      cases hparts.of_append with
      | lastText _ hbraces => exact hbraces
    have hlayout := layout_append hparts (layout_line hline hbraces hparts')
    have hread : readSegments registered
        (strip [] false (init ++ .text (line ++ leadingText parts') :: afterText parts')) =
        some (items ++ ((textNodes (ending ++ leadingKept parts')).map .node ++ items')) := by
      rw [hboth, readSegments_append, hsegments, Option.bind_some, readSegments_append,
        readSegments_textSegments, hlater]
      rfl
    have hpair :
        pairBlocks (items ++ ((textNodes (ending ++ leadingKept parts')).map .node ++ items')) =
          .ok (before ++ (textNodes (ending ++ leadingKept parts') ++ after)) := by
      rw [pairBlocks_append hbefore, pairBlocks_append (pairBlocks_nodes _), hafter]
      rfl
    refine read_eq_ok_iff.2 ⟨_, _, _, hlayout, ?_, hread, hpair, ?_⟩
    · rw [String.toList_append, hsource, hsource', ← source_afterText parts']
      simp [Part.source]
    · rw [testAll_append, testAll_append, testAll_textNodes]

end BraceTemplate
