import BraceTemplate.Proofs.Lines.Standalone

/-!
# Lines that end with a carriage return

`withReturns` puts a carriage return before every newline. The scanner looks at the texts between
the tags for nothing but braces, so the tags of a template stay the same: `tokenize_withReturns`. A
return leaves a line as blank as it was, so the same tags stand alone, and it is taken away with its
line: `stripLines_withReturns`.
-/

namespace BraceTemplate

open Scanner (openBraces tagTokens)

/-- Some characters with a carriage return before every newline. -/
def addReturns (cs : List Char) : List Char :=
  cs.flatMap fun c => if c = '\n' then ['\r', '\n'] else [c]

theorem addReturns_append (first second : List Char) :
    addReturns (first ++ second) = addReturns first ++ addReturns second :=
  List.flatMap_append

theorem addReturns_of_not_mem {cs : List Char} (h : '\n' ∉ cs) : addReturns cs = cs := by
  induction cs with
  | nil => rfl
  | cons c cs ih =>
    rw [List.mem_cons, not_or] at h
    rw [addReturns, List.flatMap_cons, if_neg (Ne.symm h.1)]
    exact congrArg (c :: ·) (ih h.2)

theorem addReturns_newline {line : List Char} (hline : '\n' ∉ line) (rest : List Char) :
    addReturns (line ++ '\n' :: rest) = line ++ ['\r'] ++ '\n' :: addReturns rest := by
  rw [addReturns_append, addReturns_of_not_mem hline, List.append_assoc]
  rfl

theorem newline_mem_addReturns {cs : List Char} : '\n' ∈ addReturns cs ↔ '\n' ∈ cs := by
  constructor
  · intro h
    by_contra hnot
    exact hnot (addReturns_of_not_mem hnot ▸ h)
  · intro h
    exact List.mem_flatMap.2 ⟨'\n', h, by decide⟩

theorem addReturns_eq_nil_iff {cs : List Char} : addReturns cs = [] ↔ cs = [] := by
  cases cs with
  | nil => exact ⟨fun _ => rfl, fun _ => rfl⟩
  | cons c cs =>
    rw [addReturns, List.flatMap_cons]
    split <;> simp

/-- A text with a carriage return before every newline. -/
def withReturns (text : String) : String :=
  String.ofList (addReturns text.toList)

theorem withReturns_ofList (cs : List Char) :
    withReturns (String.ofList cs) = String.ofList (addReturns cs) := by
  rw [withReturns, String.toList_ofList]

theorem withReturns_eq_self {text : String} (h : '\n' ∉ text.toList) : withReturns text = text := by
  rw [withReturns, addReturns_of_not_mem h, String.ofList_toList]

/-! ## The ends of the lines -/

/-- What comes after the last newline has no newline. -/
theorem lastLine_addReturns (cs : List Char) : lastLine (addReturns cs) = lastLine cs := by
  induction cs with
  | nil => rfl
  | cons c cs ih =>
    have hcons : c :: cs = [c] ++ cs := rfl
    rw [hcons, addReturns_append]
    by_cases hline : '\n' ∈ cs
    · rw [lastLine_append (newline_mem_addReturns.2 hline), ih, lastLine_append hline]
    · rw [addReturns_of_not_mem hline, lastLine_append_of_not_mem hline,
        lastLine_append_of_not_mem hline]
      by_cases hc : c = '\n'
      · subst hc
        rfl
      · rw [addReturns_of_not_mem (mt List.mem_singleton.1 (Ne.symm hc))]

/-- The return before a newline leaves a line as blank as it was. -/
theorem isBlank_firstLine_addReturns (cs : List Char) :
    isBlank (firstLine (addReturns cs)) = isBlank (firstLine cs) := by
  by_cases hmem : '\n' ∈ cs
  · obtain ⟨line, rest, rfl, hline⟩ := List.eq_append_cons_of_mem hmem
    have hreturn : '\n' ∉ line ++ ['\r'] := by simp [hline]
    rw [addReturns_newline hline, firstLine_newline hreturn, firstLine_newline hline,
      isBlank_append]
    exact Bool.and_true _
  · rw [addReturns_of_not_mem hmem]

/-- The first line goes away with its return. -/
theorem dropFirstLine_addReturns (cs : List Char) :
    dropFirstLine (addReturns cs) = addReturns (dropFirstLine cs) := by
  by_cases hmem : '\n' ∈ cs
  · obtain ⟨line, rest, rfl, hline⟩ := List.eq_append_cons_of_mem hmem
    have hreturn : '\n' ∉ line ++ ['\r'] := by simp [hline]
    rw [addReturns_newline hline, dropFirstLine_newline hreturn, dropFirstLine_newline hline]
  · rw [addReturns_of_not_mem hmem, dropFirstLine_eq, endOfLine_of_not_mem hmem, List.drop_length]
    rfl

/-- The return of the line before the last one stays. -/
theorem dropLastLine_addReturns (cs : List Char) :
    dropLastLine (addReturns cs) = addReturns (dropLastLine cs) := by
  cases hsplit : splitLastLine cs with
  | none =>
    have hmem := splitLastLine_eq_none_iff.1 hsplit
    rw [addReturns_of_not_mem hmem, dropLastLine_of_not_mem hmem]
    rfl
  | some cut =>
    obtain ⟨before, line⟩ := cut
    obtain ⟨rfl, hend, hline⟩ := splitLastLine_eq_some hsplit
    have hlast : lastLine before = [] := lastLine_of_getLast? hend
    have hreturns : lastLine (addReturns before) = [] := (lastLine_addReturns before).trans hlast
    rw [addReturns_append, addReturns_of_not_mem hline, dropLastLine_append hreturns,
      dropLastLine_append hlast, dropLastLine_of_not_mem hline, List.append_nil, List.append_nil]

/-- What a text keeps between two tags commutes with writing its newlines as two characters. -/
theorem keepText_addReturns (aloneBefore aloneAfter : Bool) (cs : List Char) :
    Token.keepText aloneBefore aloneAfter (addReturns cs) =
      addReturns (Token.keepText aloneBefore aloneAfter cs) := by
  cases aloneAfter with
  | false =>
    cases aloneBefore with
    | false => rfl
    | true => exact dropFirstLine_addReturns cs
  | true =>
    cases aloneBefore with
    | false => exact dropLastLine_addReturns cs
    | true =>
      show dropFirstLine (dropLastLine (addReturns cs)) = _
      rw [dropLastLine_addReturns, dropFirstLine_addReturns]
      rfl

/-! ## The parts of a template -/

namespace Part

/-- A tag has no newline in it. -/
def InLine : Part → Prop
  | .text _ => True
  | .tag body _ => '\n' ∉ body

instance : DecidablePred InLine
  | .text _ => inferInstanceAs (Decidable True)
  | .tag body _ => inferInstanceAs (Decidable ('\n' ∉ body))

/-- A part with a carriage return before every newline of its text. -/
def withReturns : Part → Part
  | .text content => .text (addReturns content)
  | .tag body pieces => .tag body pieces

theorem source_withReturns {part : Part} (h : part.InLine) :
    part.withReturns.source = addReturns part.source := by
  cases part with
  | text content => rfl
  | tag body pieces =>
    have hbody : '\n' ∉ openBraces ++ body := by
      rw [List.mem_append, not_or]
      exact ⟨by decide, h⟩
    rw [withReturns, source, addReturns_of_not_mem hbody]

end Part

theorem source_map_withReturns {parts : List Part} (h : ∀ part ∈ parts, part.InLine) :
    (parts.map Part.withReturns).flatMap Part.source = addReturns (parts.flatMap Part.source) := by
  induction parts with
  | nil => rfl
  | cons part parts ih =>
    rw [List.forall_mem_cons] at h
    rw [List.map_cons, List.flatMap_cons, List.flatMap_cons, addReturns_append,
      Part.source_withReturns h.1, ih h.2]

/-- A return is never the start of something that has none. -/
theorem prefix_of_prefix_addReturns {marker cs : List Char} (hmarker : '\r' ∉ marker)
    (h : marker <+: addReturns cs) : marker <+: cs := by
  induction marker generalizing cs with
  | nil => exact List.nil_prefix
  | cons first marker ih =>
    rw [List.mem_cons, not_or] at hmarker
    cases cs with
    | nil => exact h
    | cons c cs =>
      rw [addReturns, List.flatMap_cons] at h
      split at h
      · exact absurd (List.cons_prefix_cons.1 h).1.symm hmarker.1
      · obtain ⟨rfl, hrest⟩ := List.cons_prefix_cons.1 h
        exact List.cons_prefix_cons.2 ⟨rfl, ih hmarker.2 hrest⟩

/-- No braces come about next to a return. -/
theorem openBraces_infix_of_addReturns {cs : List Char} (h : openBraces <:+: addReturns cs) :
    openBraces <:+: cs := by
  induction cs with
  | nil => exact h
  | cons c cs ih =>
    have hcs : cs <:+: c :: cs := (List.suffix_cons c cs).isInfix
    -- The braces begin with the first character or after it, and neither of them is a return.
    by_cases hc : c = '\n'
    · subst hc
      have hreturns : addReturns ('\n' :: cs) = '\r' :: '\n' :: addReturns cs := rfl
      rw [hreturns, List.infix_cons_iff, List.infix_cons_iff] at h
      rcases h with hprefix | hprefix | h
      · cases (List.cons_prefix_cons.1 hprefix).1
      · cases (List.cons_prefix_cons.1 hprefix).1
      · exact (ih h).trans hcs
    · have hreturns : addReturns (c :: cs) = c :: addReturns cs := by
        rw [addReturns, List.flatMap_cons, if_neg hc]
        rfl
      rw [hreturns, List.infix_cons_iff, ← hreturns] at h
      rcases h with hprefix | h
      · exact (prefix_of_prefix_addReturns (by decide) hprefix).isInfix
      · exact (ih h).trans hcs

theorem layout_withReturns {parts : List Part} (h : Layout parts) :
    Layout (parts.map Part.withReturns) := by
  induction h with
  | nil => exact .nil
  | lastText hne hbraces =>
    exact .lastText (mt addReturns_eq_nil_iff.1 hne) (mt openBraces_infix_of_addReturns hbraces)
  | text hne hbraces h ih =>
    refine .text (mt addReturns_eq_nil_iff.1 hne) (fun hin => hbraces ?_) ih
    apply openBraces_infix_of_addReturns
    rw [addReturns_append]
    exact hin
  | tag hbody h ih => exact .tag hbody ih

/-! ## The tokens of a template -/

/-- A token with its content changed if it is a text. -/
def Token.mapText (f : String → String) : Token → Token
  | .text content => .text (f content)
  | token => token

/-- A segment with its content changed if it is a text. -/
def Segment.mapText {τ : Type} (f : String → String) : Segment String τ → Segment String τ
  | .outside content => .outside (f content)
  | .tag content => .tag content

theorem map_mapText_pieces (f : String → String) (pieces : List Piece) :
    (pieces.map Token.piece).map (Token.mapText f) = pieces.map Token.piece := by
  rw [List.map_map]
  rfl

theorem tokens_withReturns (part : Part) :
    part.withReturns.tokens = part.tokens.map (Token.mapText withReturns) := by
  cases part with
  | text content => exact congrArg (fun text => [Token.text text]) (withReturns_ofList content).symm
  | tag body pieces =>
    rw [Part.withReturns, Part.tokens, tagTokens, List.map_cons, List.map_append,
      map_mapText_pieces]
    rfl

theorem tokens_map_withReturns (parts : List Part) :
    (parts.map Part.withReturns).flatMap Part.tokens =
      (parts.flatMap Part.tokens).map (Token.mapText withReturns) := by
  rw [List.flatMap_map, List.map_flatMap]
  exact congrArg parts.flatMap (funext tokens_withReturns)

theorem toTokens_mapText (f : String → String) (segment : Segment String (List Piece)) :
    (segment.mapText f).toTokens = segment.toTokens.map (Token.mapText f) := by
  cases segment with
  | outside content => rfl
  | tag pieces =>
    rw [Segment.mapText, Segment.toTokens, List.map_append, List.map_cons, map_mapText_pieces]
    rfl

theorem toTokens_map_mapText (f : String → String)
    (segments : List (Segment String (List Piece))) :
    (segments.map (Segment.mapText f)).flatMap Segment.toTokens =
      (segments.flatMap Segment.toTokens).map (Token.mapText f) := by
  rw [List.flatMap_map, List.map_flatMap]
  exact congrArg segments.flatMap (funext (toTokens_mapText f))

/-! ## Tags that stand alone -/

theorem lastLine_append_addReturns {before other : List Char} (h : lastLine other = lastLine before)
    (cs : List Char) : lastLine (other ++ addReturns cs) = lastLine (before ++ cs) := by
  by_cases hmem : '\n' ∈ cs
  · rw [lastLine_append (newline_mem_addReturns.2 hmem), lastLine_append hmem, lastLine_addReturns]
  · rw [addReturns_of_not_mem hmem, lastLine_congr h]

theorem standsAlone_addReturns {before other : List Char} (h : lastLine other = lastLine before)
    (pieces : List Piece) (after : List Char) :
    standsAlone other pieces (addReturns after) = standsAlone before pieces after := by
  rw [standsAlone, standsAlone, h, isBlank_firstLine_addReturns]

theorem opensAlone_withReturns {parts : List Part} (hline : ∀ part ∈ parts, part.InLine)
    {before other : List Char} (h : lastLine other = lastLine before) :
    opensAlone other (parts.map Part.withReturns) = opensAlone before parts := by
  cases parts with
  | nil => rfl
  | cons part parts =>
    cases part with
    | text content => rfl
    | tag body pieces =>
      rw [List.map_cons, Part.withReturns, opensAlone, opensAlone,
        source_map_withReturns (List.forall_mem_cons.1 hline).2, standsAlone_addReturns h]

/-- The lines of the same tags are taken away, and their returns with them. -/
theorem strip_withReturns {parts : List Part} (hline : ∀ part ∈ parts, part.InLine)
    {before other : List Char} (h : lastLine other = lastLine before) (alone : Bool) :
    strip other alone (parts.map Part.withReturns) =
      (strip before alone parts).map (Segment.mapText withReturns) := by
  induction parts generalizing before other alone with
  | nil => rfl
  | cons part parts ih =>
    have hparts := (List.forall_mem_cons.1 hline).2
    cases part with
    | text content =>
      -- The next tag sees the same last line before it, as long as the returns end lines alone.
      have hnext := lastLine_append_addReturns h content
      rw [List.map_cons, Part.withReturns, strip, strip, opensAlone_withReturns hparts hnext,
        keepText_addReturns, ih hparts hnext]
      simp only [List.isEmpty_iff, addReturns_eq_nil_iff]
      split
      · rfl
      · rw [List.map_cons, Segment.mapText, withReturns_ofList]
    | tag body pieces =>
      have hnext := lastLine_congr (lastLine_congr h openBraces) body
      rw [List.map_cons, Part.withReturns, strip, strip, source_map_withReturns hparts,
        standsAlone_addReturns h, ih hparts hnext]
      rfl

/-! ## The text of a template -/

/-- The text of a template of which no tag has a newline in it. -/
def TagsInLines (text : String) : Prop :=
  ∃ parts, Layout parts ∧ text.toList = parts.flatMap Part.source ∧ ∀ part ∈ parts, part.InLine

/-- The parts that a text with its tags in lines is laid out in. -/
theorem TagsInLines.exists_layout {text : String} {tokens : List Token} (h : TagsInLines text)
    (htokens : tokenize text = .ok tokens) :
    ∃ parts, Layout parts ∧ text.toList = parts.flatMap Part.source ∧
      tokens = parts.flatMap Part.tokens ∧ ∀ part ∈ parts, part.InLine := by
  obtain ⟨parts, hparts, hsource, hline⟩ := h
  rw [tokenize_eq_ok_iff.2 ⟨parts, hparts, hsource, rfl⟩] at htokens
  exact ⟨parts, hparts, hsource, (Except.ok.inj htokens).symm, hline⟩

/-- With returns the scanner finds the same tags, and the texts between them with returns. -/
theorem tokenize_withReturns {text : String} {tokens : List Token} (h : tokenize text = .ok tokens)
    (hline : TagsInLines text) :
    tokenize (withReturns text) = .ok (tokens.map (Token.mapText withReturns)) := by
  obtain ⟨parts, hparts, hsource, rfl, hinline⟩ := hline.exists_layout h
  have htokens := (tokens_map_withReturns parts).symm
  refine tokenize_eq_ok_iff.2 ⟨_, layout_withReturns hparts, ?_, htokens⟩
  rw [withReturns, String.toList_ofList, hsource, source_map_withReturns hinline]

/-- With returns the same lines are taken away, and what is left has its returns. -/
theorem stripLines_withReturns {text : String} {tokens : List Token}
    (h : tokenize text = .ok tokens) (hline : TagsInLines text) :
    Token.stripLines (tokens.map (Token.mapText withReturns)) =
      (Token.stripLines tokens).map (Token.mapText withReturns) := by
  obtain ⟨parts, hparts, -, rfl, hinline⟩ := hline.exists_layout h
  rw [← tokens_map_withReturns, stripLines_eq (layout_withReturns hparts), stripLines_eq hparts,
    strip_withReturns hinline rfl, toTokens_map_mapText]

end BraceTemplate
