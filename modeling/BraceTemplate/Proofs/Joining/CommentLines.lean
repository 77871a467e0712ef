import BraceTemplate.Proofs.Joining.Prefix
import BraceTemplate.Proofs.Joining.Relations

/-!
# Lines that hold nothing but a comment

A comment alone on its line leaves nothing behind: neither the line, nor a node, nor a change to the
tags around it. The text before the line and the text after it are two nodes where they would be one
without the comment, be it in the middle of a block, and they are written alike:
`compile_comment_line`.
-/

namespace BraceTemplate

open Scanner (openBraces closeBraces longCommentEnd TagText PieceText)

/-! ## Comments -/

/-- A tag that holds a comment, in its short or in its long form. -/
inductive IsComment : String → Prop
  | short {body : String} (hstart : ¬ ['-', '-'] <+: body.toList)
    (hbraces : ¬ closeBraces <:+: body.toList) (hend : body.toList.getLast? ≠ some '\x7d') :
    IsComment ("\x7b\x7b!" ++ body ++ "\x7d\x7d")
  | long {body : String} (h : ¬ longCommentEnd <:+: body.toList) :
    IsComment ("\x7b\x7b!--" ++ body ++ "--\x7d\x7d")

/-- A text of spaces and tabs. -/
def IsIndent (text : String) : Prop :=
  ∀ c ∈ text.toList, c = ' ' ∨ c = '\t'

instance : DecidablePred IsIndent := fun text =>
  List.decidableBAll (fun c => c = ' ' ∨ c = '\t') text.toList

/-- A line that is indented and holds nothing but a comment. -/
inductive IsCommentLine : String → Prop
  | mk {before comment after : String} (hbefore : IsIndent before) (hcomment : IsComment comment)
    (hafter : IsIndent after) : IsCommentLine (before ++ comment ++ after ++ "\n")

/-- A text does not end with what ends in another character. -/
theorem not_suffix_concat {marker : List Char} {c last : Char} (hlast : marker.getLast? = some last)
    (hne : last ≠ c) (cs : List Char) : ¬ marker <:+ cs ++ [c] := by
  rintro ⟨before, heq⟩
  have hmarker : marker ≠ [] := fun hnil => by rw [hnil] at hlast; cases hlast
  have hends := congrArg List.getLast? heq
  rw [List.getLast?_append_of_ne_nil _ hmarker, hlast, List.getLast?_concat] at hends
  exact hne (Option.some.inj hends)

/-- The end of a short comment is where it stands. -/
theorem not_closeBraces_infix_concat {body : List Char} (hbraces : ¬ closeBraces <:+: body)
    (hend : body.getLast? ≠ some '\x7d') : ¬ closeBraces <:+: body ++ ['\x7d'] := by
  rw [List.infix_concat_iff, List.suffix_concat_iff]
  rintro ((hnil | ⟨first, hfirst, before, rfl⟩) | hin)
  · cases hnil
  · obtain rfl : ['\x7d'] = first := List.append_cancel_right hfirst
    exact hend List.getLast?_concat
  · exact hbraces hin

/-- The end of a long comment is where it stands. -/
theorem not_longCommentEnd_infix_append {body : List Char} (h : ¬ longCommentEnd <:+: body) :
    ¬ longCommentEnd <:+: body ++ ['-', '-', '\x7d'] := by
  have hparts : body ++ ['-', '-', '\x7d'] = body ++ ['-'] ++ ['-'] ++ ['\x7d'] := by simp
  rw [hparts, List.infix_concat_iff, List.suffix_concat_iff]
  rintro ((hnil | ⟨init, hinit, hsuffix⟩) | hin)
  · cases hnil
  · obtain rfl : ['-', '-', '\x7d'] = init := List.append_cancel_right hinit
    exact not_suffix_concat rfl (by decide) _ hsuffix
  · rcases List.infix_concat_iff.1 hin with hsuffix | hin
    · exact not_suffix_concat rfl (by decide) _ hsuffix
    · rcases List.infix_concat_iff.1 hin with hsuffix | hin
      · exact not_suffix_concat rfl (by decide) _ hsuffix
      · exact h hin

/-- A body without dashes in front and without closing braces ends at the braces behind it: the
short form of a comment is read off by the scanner with nothing left. -/
theorem commentBody?_short {body : List Char} (hstart : ¬ ['-', '-'] <+: body)
    (hbraces : ¬ closeBraces <:+: body) (hend : body.getLast? ≠ some '\x7d') :
    Scanner.commentBody? (body ++ closeBraces) = .ok (body, body.length) := by
  have hsplit : Text.splitAtMarker closeBraces (body ++ closeBraces) = some (body, closeBraces) :=
    (Text.splitAtMarker_append_eq_some_iff (by simp [closeBraces])).2
      ⟨List.prefix_rfl, not_closeBraces_infix_concat hbraces hend⟩
  rw [Scanner.commentBody?.eq_def]
  split
  · next rest heq =>
    have hlong : ['-', '-'] <+: body ++ closeBraces := ⟨rest, heq.symm⟩
    -- The braces after the body are no dashes, so both of these are in the body.
    cases body with
    | nil => simp [closeBraces] at hlong
    | cons c body =>
      cases body with
      | nil => simp [closeBraces] at hlong
      | cons d body =>
        simp only [List.cons_append, List.cons_prefix_cons, List.nil_prefix, and_true]
          at hlong hstart
        exact (hstart hlong).elim
  · rw [hsplit]

theorem commentBody?_long {body : List Char} (h : ¬ longCommentEnd <:+: body) :
    Scanner.commentBody? ('-' :: '-' :: (body ++ longCommentEnd)) =
      .ok (body, body.length + 4) := by
  have hsplit : Text.splitAtMarker longCommentEnd (body ++ longCommentEnd) =
      some (body, longCommentEnd) :=
    (Text.splitAtMarker_append_eq_some_iff (by simp [longCommentEnd])).2
      ⟨List.prefix_rfl, not_longCommentEnd_infix_append h⟩
  rw [Scanner.commentBody?, hsplit]

/-- A comment is scanned as a tag with one piece. -/
theorem IsComment.exists_tagText {comment : String} (h : IsComment comment) :
    ∃ body value, comment.toList = openBraces ++ body ∧
      TagText true body [.word value (some .comment)] := by
  cases h with
  | @short body hstart hbraces hend =>
    have hpiece : PieceText true ('!' :: body.toList) ([] ++ closeBraces) _ :=
      .comment (commentBody?_short hstart hbraces hend)
    exact ⟨_, _, by simp [openBraces, closeBraces], .piece hpiece (.close Text.isSpace_nil)⟩
  | @long body hbody =>
    have hlong := commentBody?_long hbody
    have hpiece : PieceText true ('!' :: '-' :: '-' :: (body.toList ++ ['-', '-']))
        ([] ++ closeBraces) (.word (String.ofList (Text.trim body.toList)) (some .comment)) :=
      .comment (by simpa [longCommentEnd, closeBraces] using hlong)
    exact ⟨_, _, by simp [openBraces, closeBraces], .piece hpiece (.close Text.isSpace_nil)⟩

/-! ## The line of a comment -/

/-- The parts of a text, which are none if it is empty. -/
def textParts (content : List Char) : List Part :=
  if content.isEmpty then [] else [.text content]

theorem source_textParts (content : List Char) :
    (textParts content).flatMap Part.source = content := by
  cases content with
  | nil => rfl
  | cons c cs => exact List.append_nil _

theorem strip_textParts (content : List Char) (body : List Char) (pieces : List Piece)
    (parts : List Part) :
    strip [] false (textParts content ++ .tag body pieces :: parts) =
      textSegments (Token.keepText false (standsAlone content pieces (parts.flatMap Part.source))
        content) ++ strip content false (.tag body pieces :: parts) := by
  have hnone : ∀ alone, textSegments (Token.keepText false alone []) = [] := by decide
  cases content with
  | nil =>
    rw [hnone]
    rfl
  | cons c cs => exact strip_text [] false (c :: cs) (.tag body pieces :: parts)

theorem IsIndent.newline_not_mem {text : String} (h : IsIndent text) : '\n' ∉ text.toList := by
  intro hmem
  rcases h _ hmem with heq | heq <;> cases heq

theorem IsIndent.isBlank {text : String} (h : IsIndent text) : isBlank text.toList = true := by
  rw [BraceTemplate.isBlank, List.all_eq_true]
  intro c hc
  rcases h c hc with rfl | rfl <;> rfl

theorem IsIndent.brace_not_mem {text : String} (h : IsIndent text) : '\x7b' ∉ text.toList := by
  intro hmem
  rcases h _ hmem with heq | heq <;> cases heq

theorem IsIndent.layout_text {text : String} (h : IsIndent text) :
    Layout [.text (text.toList ++ ['\n'])] := by
  refine .lastText (by simp) fun hin => ?_
  have hmem : '\x7b' ∈ text.toList ++ ['\n'] := hin.subset List.mem_cons_self
  rcases List.mem_append.1 hmem with hmem | hmem
  · exact h.brace_not_mem hmem
  · cases List.mem_singleton.1 hmem

/-- The parts before a tag may begin with an indent. -/
theorem IsIndent.layout_tag {text : String} (h : IsIndent text) {body : List Char}
    {pieces : List Piece} {parts : List Part} (hparts : Layout (.tag body pieces :: parts)) :
    Layout (textParts text.toList ++ .tag body pieces :: parts) := by
  rw [textParts]
  split
  · exact hparts
  · next hempty =>
    refine .text (mt List.isEmpty_iff.2 hempty) ?_ hparts
    rw [List.infix_concat_iff, List.suffix_concat_iff]
    rintro ((hnil | ⟨first, hfirst, hsuffix⟩) | hin)
    · cases hnil
    · obtain rfl : ['\x7b'] = first := List.append_cancel_right hfirst
      exact h.brace_not_mem (hsuffix.subset List.mem_cons_self)
    · exact h.brace_not_mem (hin.subset List.mem_cons_self)

/-- Between an indent and the end of the line a comment stands alone. -/
theorem standsAlone_comment {before after : String} (hbefore : IsIndent before)
    (hafter : IsIndent after) (value : String) :
    standsAlone before.toList [.word value (some .comment)] (after.toList ++ ['\n']) = true := by
  have hlast : lastLine before.toList = before.toList :=
    lastLine_append_of_not_mem hbefore.newline_not_mem []
  rw [standsAlone, hlast, hbefore.isBlank, firstLine_newline hafter.newline_not_mem, hafter.isBlank]
  rfl

/-- Nothing but the comment is left of its line. -/
theorem IsCommentLine.exists_layout {line : String} (h : IsCommentLine line) :
    ∃ parts value, Layout parts ∧ parts.flatMap Part.source = line.toList ∧
      strip [] false parts = [.tag [.word value (some .comment)]] := by
  cases h with
  | @mk before comment after hbefore hcomment hafter =>
    obtain ⟨body, value, hsource, htag⟩ := hcomment.exists_tagText
    have halone := standsAlone_comment hbefore hafter value
    -- The newline behind the tag goes with the line, and so does the blank before it.
    have hend : textSegments (Token.keepText true false (after.toList ++ ['\n'])) = [] := by
      rw [Token.keepText, if_pos rfl, if_neg Bool.false_ne_true,
        dropFirstLine_newline hafter.newline_not_mem]
      rfl
    have hbegin : textSegments (Token.keepText false true before.toList) = [] := by
      rw [Token.keepText, if_pos rfl, if_neg Bool.false_ne_true,
        dropLastLine_of_not_mem hbefore.newline_not_mem]
      rfl
    refine ⟨_, value, hbefore.layout_tag (.tag htag hafter.layout_text), ?_, ?_⟩
    · rw [List.flatMap_append, source_textParts, List.flatMap_cons, List.flatMap_singleton,
        Part.source, Part.source, ← hsource, ← List.append_assoc, ← List.append_assoc]
      simp
    · rw [strip_textParts, List.flatMap_singleton, Part.source, halone, hbegin, strip_tag,
        List.flatMap_singleton, Part.source, halone, strip_text]
      exact congrArg (.tag [.word value (some .comment)] :: · ++ []) hend

/-! ## Templates that are written alike -/

/-- Nodes are rendered alike once their conditions are tested, whatever the partials do. -/
def RendersAlike (first second : List Node) : Prop :=
  ∀ renderPartial, renderNodes renderPartial (testAll first) =
    renderNodes renderPartial (testAll second)

namespace RendersAlike

theorem inverse {inverse otherwise : Option (List Node)}
    (h : Option.Rel RendersAlike inverse otherwise)
    (renderPartial : Template → Frame → Render Unit) :
    renderInverse renderPartial (testInverse inverse) =
        renderInverse renderPartial (testInverse otherwise) ∧
      (testInverse inverse).isSome = (testInverse otherwise).isSome := by
  cases h with
  | none => exact ⟨rfl, rfl⟩
  | some hnodes => exact ⟨hnodes renderPartial, rfl⟩

theorem append {first second later last : List Node} (h : RendersAlike first second)
    (hlater : RendersAlike later last) : RendersAlike (first ++ later) (second ++ last) := by
  intro renderPartial
  funext frame
  rw [testAll_append, testAll_append, renderNodes_append, renderNodes_append, h, hlater]

/-- Two blocks with one head whose bodies and inverse bodies render alike render alike. -/
theorem block (name : String) (head : BlockHead) {body other : List Node}
    {inverse otherwise : Option (List Node)} (hbody : RendersAlike body other)
    (hinverse : Option.Rel RendersAlike inverse otherwise) :
    RendersAlike [head.node name body inverse] [head.node name other otherwise] := by
  intro renderPartial
  obtain ⟨hother, hsome⟩ := RendersAlike.inverse hinverse renderPartial
  funext frame
  show renderNodes renderPartial [_] frame = renderNodes renderPartial [_] frame
  rw [renderNodes_singleton, renderNodes_singleton]
  -- A helper is also told whether there is an inverse; the block of a path is not.
  cases head with
  | helper arguments =>
    rw [BlockHead.node, Node.testConditions, Node.testConditions, renderNode, renderNode,
      hbody renderPartial, hother, hsome]
  | path path =>
    rw [BlockHead.node, Node.testConditions, Node.testConditions, renderNode, renderNode,
      hbody renderPartial, hother]

/-- Rows of nodes that are rendered alike are put together and into blocks. -/
def relation : NodesRelation where
  Rel := RendersAlike
  nil _ := rfl
  append := append
  block := block

/-- A text is written as its two halves are. -/
theorem textNodes (ending beginning : List Char) :
    RendersAlike (BraceTemplate.textNodes ending ++ BraceTemplate.textNodes beginning)
      (BraceTemplate.textNodes (ending ++ beginning)) := by
  intro renderPartial
  funext frame
  rw [testAll_append, testAll_textNodes, testAll_textNodes, testAll_textNodes, renderNodes_append,
    renderNodes_textNodes, renderNodes_textNodes, renderNodes_textNodes, String.ofList_append,
    write_append]

theorem items_refl (items : List Item) : relation.Items items items :=
  .refl items fun _ _ _ => rfl

end RendersAlike

/-- A comment between two texts makes no difference to what is read. -/
theorem ofSegments?_comment (registered : String → Bool)
    (segments later : List (Segment String (List Piece))) (ending beginning : List Char)
    (value : String) :
    Option.Rel (fun first second : Template => ∀ renderPartial,
        renderNodes renderPartial first = renderNodes renderPartial second)
      (Template.ofSegments? registered
        (segments ++ (textSegments ending ++
          .tag [.word value (some .comment)] :: (textSegments beginning ++ later))))
      (Template.ofSegments? registered
        (segments ++ (textSegments (ending ++ beginning) ++ later))) := by
  have hcomment : readSegments registered [.tag [.word value (some .comment)]] = some [] := rfl
  rw [Template.ofSegments?, Template.ofSegments?, ← List.singleton_append]
  simp only [readSegments_append, readSegments_textSegments, hcomment, Option.bind_some]
  -- The two lists of items differ in the run of texts alone, which the comment cuts in two.
  cases readSegments registered segments with
  | none => exact .none
  | some items =>
    cases readSegments registered later with
    | none => exact .none
    | some last =>
      have hitems : RendersAlike.relation.Items
          (items ++ ((textNodes ending).map .node ++ ((textNodes beginning).map .node ++ last)))
          (items ++ ((textNodes (ending ++ beginning)).map .node ++ last)) := by
        rw [← List.append_assoc (List.map _ _), ← List.map_append]
        exact (RendersAlike.items_refl items).append
          (.nodes (RendersAlike.textNodes ending beginning) (RendersAlike.items_refl last))
      exact (pairBlocks_related hitems).toOption_map fun _ _ => id

/-! ## Reading around the line of a comment -/

theorem IsCommentLine.endsLine {line : String} (h : IsCommentLine line) : EndsLine line := by
  cases h with
  | mk =>
    refine .inr ?_
    rw [String.toList_append]
    exact List.getLast?_concat

theorem eq_nil_of_textSegments_append {content : List Char} {pieces : List Piece}
    {segments later : List (Segment String (List Piece))}
    (h : textSegments content ++ segments = .tag pieces :: later) :
    content = [] ∧ segments = .tag pieces :: later := by
  cases content with
  | nil => exact ⟨rfl, h⟩
  | cons c cs => cases h

/-- What comes after the line of a comment begins with the tag of the comment. -/
theorem IsCommentLine.exists_layout_append {line : String} (h : IsCommentLine line) :
    ∃ value, (∀ second, Layout second → ∃ parts, Layout parts ∧
        parts.flatMap Part.source = line.toList ++ second.flatMap Part.source ∧
        leadingKept parts = [] ∧ afterKept parts =
          .tag [.word value (some .comment)] :: (textSegments (leadingKept second) ++
            afterKept second)) ∧
      ∀ parts cs, Layout parts → parts.flatMap Part.source = line.toList ++ cs →
        ∃ second, Layout second ∧ second.flatMap Part.source = cs := by
  obtain ⟨alone, value, halone, hsource, hstrip⟩ := h.exists_layout
  obtain ⟨segments, ending, hjoin, hrest⟩ :=
    exists_kept_of_line (tokenize_eq_ok_iff.2 ⟨alone, halone, hsource.symm, rfl⟩) h.endsLine
  -- Joined to the empty template, the line keeps its tag and nothing else.
  have hkept : segments = [.tag [.word value (some .comment)]] ∧ ending = [] := by
    obtain ⟨parts, hparts, hsame, hkept⟩ := hjoin [] .nil
    obtain rfl := Scanner.layout_unique hparts halone
      (hsame.trans ((List.append_nil _).trans hsource.symm))
    have hnil : leadingKept [] = [] := rfl
    rw [hstrip, hnil, List.append_nil] at hkept
    cases segments with
    | nil => cases (eq_nil_of_textSegments_append hkept.symm).2
    | cons segment segments =>
      obtain ⟨rfl, hnone⟩ := List.cons.inj hkept
      obtain ⟨rfl, hnone⟩ := List.append_eq_nil_iff.1 hnone.symm
      cases ending with
      | nil => exact ⟨rfl, rfl⟩
      | cons c cs => cases hnone
  obtain ⟨rfl, rfl⟩ := hkept
  refine ⟨value, fun second hsecond => ?_, hrest⟩
  obtain ⟨parts, hparts, hsame, hkept⟩ := hjoin second hsecond
  rw [strip_afterText] at hkept
  exact ⟨parts, hparts, hsame, eq_nil_of_textSegments_append hkept⟩

/-- A text that cannot be laid out cannot be read. -/
theorem toOption_read_of_not_layout {registered : String → Bool} {text : String}
    (h : ∀ parts, Layout parts → parts.flatMap Part.source ≠ text.toList) :
    (Template.read registered text).toOption = none := by
  cases hread : Template.read registered text with
  | error => rfl
  | ok template =>
    obtain ⟨parts, -, -, hparts, hsource, -⟩ := read_eq_ok_iff.1 hread
    exact (h parts hparts hsource.symm).elim

/-- A line with nothing but a comment, after another line, makes no difference to whether a template
can be read, nor to how it is rendered. -/
theorem toOption_read_commentLine (registered : String → Bool) {first line : String}
    {tokens : List Token} (h : tokenize first = .ok tokens) (hend : EndsLine first)
    (hline : IsCommentLine line) (second : String) :
    Option.Rel (fun commented plain : Template => ∀ renderPartial,
        renderNodes renderPartial commented = renderNodes renderPartial plain)
      (Template.read registered (first ++ line ++ second)).toOption
      (Template.read registered (first ++ second)).toOption := by
  obtain ⟨segments, ending, hjoin, hrest⟩ := exists_kept_of_line h hend
  obtain ⟨value, hlineJoin, hlineRest⟩ := hline.exists_layout_append
  by_cases hsecond : ∃ parts, Layout parts ∧ parts.flatMap Part.source = second.toList
  -- Both templates scan; what they keep differs in the comment between the two runs of text.
  · obtain ⟨parts, hparts, hsource⟩ := hsecond
    obtain ⟨plain, hplain, hplainSource, hplainKept⟩ := hjoin parts hparts
    obtain ⟨lineParts, hlineParts, hlineSource, hnone, hafter⟩ := hlineJoin parts hparts
    obtain ⟨commented, hcommented, hcommentedSource, hcommentedKept⟩ := hjoin lineParts hlineParts
    rw [hnone, List.append_nil, hafter] at hcommentedKept
    rw [toOption_read registered hcommented, toOption_read registered hplain, hcommentedKept,
      hplainKept]
    · exact ofSegments?_comment registered segments (afterKept parts) ending (leadingKept parts)
        value
    · rw [hplainSource, hsource, String.toList_append]
    · rw [hcommentedSource, hlineSource, hsource, String.toList_append, String.toList_append,
        List.append_assoc]
  · -- What comes after the line cannot be scanned, so neither template can.
    have hplain : (Template.read registered (first ++ second)).toOption = none := by
      refine toOption_read_of_not_layout fun parts hparts hsource => ?_
      rw [String.toList_append] at hsource
      exact hsecond (hrest parts _ hparts hsource)
    have hcommented : (Template.read registered (first ++ line ++ second)).toOption = none := by
      refine toOption_read_of_not_layout fun parts hparts hsource => ?_
      rw [String.toList_append, String.toList_append, List.append_assoc] at hsource
      obtain ⟨later, hlater, hlaterSource⟩ := hrest parts _ hparts hsource
      exact hsecond (hlineRest later _ hlater hlaterSource)
    rw [hplain, hcommented]
    exact .none

/-! ## The templates of an environment -/

theorem Template.render_congr {first second : Template}
    (h : ∀ renderPartial, renderNodes renderPartial first = renderNodes renderPartial second)
    (depth : Nat) : first.render depth = second.render depth := by
  cases depth with
  | zero => rfl
  | succ depth => exact h (Template.render depth)

/-- A line that holds nothing but a comment, between the lines of a template, is as good as not
there: the template compiles with it if and only if it compiles without it, and then it is rendered
in the same way. The lines before it need not close the blocks that they open. -/
theorem compile_comment_line (workspace : Workspace) (environment : Environment)
    {first before comment after : String} {tokens : List Token} (h : tokenize first = .ok tokens)
    (hend : EndsLine first) (hbefore : IsIndent before) (hcomment : IsComment comment)
    (hafter : IsIndent after) (second : String) :
    let commented := first ++ (before ++ comment ++ after ++ "\n") ++ second
    ((∃ renderer, workspace.compile environment commented = .ok renderer) ↔
      ∃ renderer, workspace.compile environment (first ++ second) = .ok renderer) ∧
    ∀ renderer other, workspace.compile environment commented = .ok renderer →
      workspace.compile environment (first ++ second) = .ok other →
      ∀ (later : Workspace) data sink,
        later.render renderer data sink = later.render other data sink := by
  intro commented
  obtain ⟨hboth, hrender⟩ := Results.of_rel_toOption (toOption_read_commentLine
    (workspace.configuration environment).isRegistered h hend (.mk hbefore hcomment hafter) second)
  -- A template is read from the one text exactly when one is read from the other.
  constructor
  · constructor
    · rintro ⟨_, hcompile⟩
      obtain ⟨template, hread, rfl⟩ := Workspace.compile_eq_ok.1 hcompile
      obtain ⟨other, hother⟩ := hboth.1 ⟨template, hread⟩
      exact ⟨_, Workspace.compile_eq_ok.2 ⟨other, hother, rfl⟩⟩
    · rintro ⟨_, hcompile⟩
      obtain ⟨other, hother, rfl⟩ := Workspace.compile_eq_ok.1 hcompile
      obtain ⟨template, hread⟩ := hboth.2 ⟨other, hother⟩
      exact ⟨_, Workspace.compile_eq_ok.2 ⟨template, hread, rfl⟩⟩
  · intro renderer other hcompile hplain later data sink
    obtain ⟨template, hread, rfl⟩ := Workspace.compile_eq_ok.1 hcompile
    obtain ⟨plain, hother, rfl⟩ := Workspace.compile_eq_ok.1 hplain
    rw [Workspace.render, Workspace.render, Template.render_congr (hrender _ _ hread hother)]

/-- A comment over two lines, between a line of text and a tag. -/
theorem compile_comment_line_text :
    let workspace := (Workspace.empty.create .builtIn).1
    let comment := "\x7b\x7b!--" ++ " \x7d\x7d\n " ++ "--\x7d\x7d"
    let tag := "\x7b\x7b x \x7d\x7d"
    ∃ renderer outcome,
      workspace.compile ⟨0⟩ ("a\n" ++ (" " ++ comment ++ "\t" ++ "\n") ++ tag) = .ok renderer ∧
      workspace.render renderer (.object [("x", .string "b")]) (.unlimited "") = some outcome ∧
      outcome.result = .ok () ∧ outcome.sink = .unlimited "a\nb" := by
  intro workspace comment tag
  have hbraces : ¬ openBraces <:+: "a\n".toList := by decide
  have hfirst : tokenize "a\n" = .ok _ :=
    tokenize_eq_ok_iff.2 ⟨[.text "a\n".toList], .lastText (by decide) hbraces,
      (List.append_nil _).symm, rfl⟩
  have htag : tokenize tag = .ok _ := tokenize_print_tags [[.word "x" none]] (by decide)
  have hread : Template.read (workspace.configuration ⟨0⟩).isRegistered tag =
      .ok [.output ⟨["x"], 0, .current⟩] :=
    read_of_tags htag rfl (pairBlocks_nodes [.output ⟨["x"], 0, .current⟩])
  have hend : EndsLine "a\n" := .inr (by decide)
  have hbefore : IsIndent " " := by decide
  have hafter : IsIndent "\t" := by decide
  have hcomment : IsComment comment := .long (by decide)
  obtain ⟨hboth, hrender⟩ :=
    compile_comment_line workspace ⟨0⟩ hfirst hend hbefore hcomment hafter tag
  -- Without the comment, the line is written and then the value of the tag.
  obtain ⟨joined, hjoined, hparts⟩ := exists_read_append hend (read_text _ hbraces) hread
  have hplain := Workspace.compile_eq_ok.2 ⟨joined, hjoined, rfl⟩
  obtain ⟨renderer, hcompile⟩ := hboth.2 ⟨_, hplain⟩
  refine ⟨renderer, ⟨.ok (), .unlimited "a\nb", workspace⟩, hcompile, ?_, rfl, rfl⟩
  rw [hrender _ _ hcompile hplain, Workspace.render, hparts, render_text]
  rfl

end BraceTemplate
