import BraceTemplate.Proofs.Lines.Standalone
import BraceTemplate.Proofs.Scanning.Printing

/-!
# What is removed from a template

`isRemoved` says of every position of a template whether its character is removed: it is if it
stands beside a tag that stands alone, on the line of the tag. `stripLines_removes_lines` shows that
the pass over the tokens removes these characters and no others.
-/

namespace BraceTemplate

open Scanner (openBraces TagText tagTokens)

/-- Whether the character at a position stands beside a tag that stands alone: between the start of
its line and its opening braces, or between its closing braces and the end of its line. The
characters before the parts are given, and positions are counted from the first of them. -/
def isRemoved (before : List Char) : List Part → Nat → Bool
  | [], _ => false
  | .text content :: parts, i => isRemoved (before ++ content) parts i
  | .tag body pieces :: parts, i =>
    let after := parts.flatMap Part.source
    let stop := before ++ openBraces ++ body
    standsAlone before pieces after &&
        (decide (startOfLine before ≤ i ∧ i < before.length) ||
          decide (stop.length ≤ i ∧ i < stop.length + endOfLine after)) ||
      isRemoved stop parts i

/-- The characters at positions that are not removed, from the given position on. -/
def keepAt (removed : Nat → Bool) : Nat → List Char → List Char
  | _, [] => []
  | i, c :: cs => if removed i then keepAt removed (i + 1) cs else c :: keepAt removed (i + 1) cs

/-- The tokens of some parts without the removed characters and the texts that become empty, from
the given position on. -/
def keepTokens (removed : Nat → Bool) : Nat → List Part → List Token
  | _, [] => []
  | start, .text content :: parts =>
    let kept := keepAt removed start content
    let rest := keepTokens removed (start + content.length) parts
    if kept.isEmpty then rest else .text (String.ofList kept) :: rest
  | start, .tag body pieces :: parts =>
    (Part.tag body pieces).tokens ++
      keepTokens removed (start + (openBraces ++ body).length) parts

/-! ## The two ends of a text -/

/-- If only what lies before or after two positions is removed, what lies between them is kept. -/
theorem keepAt_eq {removed : Nat → Bool} {cs : List Char} {i first last : Nat}
    (h : ∀ k < cs.length, removed (i + k) = (decide (k < first) || decide (last ≤ k))) :
    keepAt removed i cs = (cs.take last).drop first := by
  -- Both bounds move with the text: after its first character they are one smaller.
  induction cs generalizing i first last with
  | nil => simp [keepAt]
  | cons c cs ih =>
    have hhead : removed i = (decide (0 < first) || decide (last ≤ 0)) := h 0 (Nat.zero_lt_succ _)
    have htail : ∀ k < cs.length, removed (i + 1 + k) =
        (decide (k < first - 1) || decide (last - 1 ≤ k)) := by
      intro k hk
      have hfirst : decide (k + 1 < first) = decide (k < first - 1) :=
        decide_eq_decide.2 (by omega)
      have hlast : decide (last ≤ k + 1) = decide (last - 1 ≤ k) := decide_eq_decide.2 (by omega)
      have := h (k + 1) (Nat.succ_lt_succ hk)
      rw [← Nat.add_assoc, Nat.add_right_comm] at this
      rw [this, hfirst, hlast]
    rw [keepAt, ih htail, hhead]
    cases last with
    | zero => simp
    | succ last =>
      cases first with
      | zero => simp
      | succ first => simp

/-- If a tag that stands alone comes before a text, its line ends within the text. -/
theorem endOfLine_text {content : List Char} {parts : List Part}
    (h : Layout (.text content :: parts))
    (hblank : isBlank (firstLine (content ++ parts.flatMap Part.source)) = true) :
    endOfLine (content ++ parts.flatMap Part.source) = endOfLine content := by
  by_cases hline : '\n' ∈ content
  · exact endOfLine_append hline _
  · cases h with
    | lastText => rw [List.flatMap_nil, List.append_nil]
    | text =>
      rw [firstLine_append_of_not_mem hline, isBlank_append, List.flatMap_cons, Part.source,
        List.append_assoc, isBlank_firstLine_tag, Bool.and_false] at hblank
      cases hblank

/-- If a tag that stands alone comes after a text, its line starts within the text. -/
theorem startOfLine_text {before content : List Char}
    (hstart : before = [] ∨ isBlank (lastLine before) = false)
    (hblank : isBlank (lastLine (before ++ content)) = true) :
    startOfLine (before ++ content) = before.length + startOfLine content := by
  by_cases hline : '\n' ∈ content
  · exact startOfLine_append hline before
  · rcases hstart with rfl | hnot
    · rw [List.nil_append, List.length_nil, Nat.zero_add]
    · rw [lastLine_append_of_not_mem hline, isBlank_append, hnot, Bool.false_and] at hblank
      cases hblank

/-- What is kept of a text lies between the end of the first line and the start of the last one. -/
theorem keepText_eq (aloneBefore aloneAfter : Bool) (cs : List Char) :
    Token.keepText aloneBefore aloneAfter cs =
      (cs.take (if aloneAfter then startOfLine cs else cs.length)).drop
        (if aloneBefore then endOfLine cs else 0) := by
  -- The first line is cut off after the last one, which does not move where the first one ends.
  have hboth : ∀ cs : List Char,
      (cs.take (startOfLine cs)).drop (endOfLine (cs.take (startOfLine cs))) =
        (cs.take (startOfLine cs)).drop (endOfLine cs) := by
    intro cs
    by_cases hline : '\n' ∈ cs
    · have htake : '\n' ∈ cs.take (startOfLine cs) := by
        have hsplit := @splitLastLine_eq cs
        rw [if_pos hline] at hsplit
        exact List.mem_of_getLast? (splitLastLine_eq_some hsplit).2.1
      have hend := endOfLine_append htake (cs.drop (startOfLine cs))
      rw [List.take_append_drop] at hend
      rw [hend]
    · rw [startOfLine_of_not_mem hline, List.take_zero, List.drop_nil, List.drop_nil]
  rw [Token.keepText]
  cases aloneAfter with
  | false => cases aloneBefore <;> simp [dropFirstLine_eq]
  | true =>
    cases aloneBefore with
    | false => simp [dropLastLine_eq]
    | true =>
      simp only [dropFirstLine_eq, dropLastLine_eq, if_true]
      exact hboth cs

/-! ## One tag after another -/

theorem opensAlone_eq_false {before : List Char} {parts : List Part}
    (h : isBlank (lastLine before) = false) : opensAlone before parts = false := by
  cases parts with
  | nil => rfl
  | cons part parts =>
    cases part with
    | text => rfl
    | tag => rw [opensAlone, standsAlone, h, Bool.and_false, Bool.false_and]

/-- Of the characters before some parts, only the parts' first tag can remove any. -/
theorem isRemoved_of_lt {before : List Char} {parts : List Part} {i : Nat} (h : Layout parts)
    (hstart : ∀ content rest, parts = .text content :: rest →
      before = [] ∨ isBlank (lastLine before) = false)
    (hi : i < before.length) :
    isRemoved before parts i = (opensAlone before parts && decide (startOfLine before ≤ i)) := by
  induction parts generalizing before with
  | nil => rfl
  | cons part parts ih =>
    have hparts := h.tail
    cases part with
    | text content =>
      have hnext : ∀ next rest, parts = .text next :: rest →
          before ++ content = [] ∨ isBlank (lastLine (before ++ content)) = false := by
        rintro next rest rfl
        cases h
      have hlen : i < (before ++ content).length := by
        rw [List.length_append]
        omega
      have hno : opensAlone before (.text content :: parts) = false := rfl
      rw [isRemoved, ih hparts hnext hlen, hno, Bool.false_and]
      rcases hstart content parts rfl with rfl | hnot
      · cases hi
      -- A blank line before the next tag starts within this text.
      by_cases hblank : isBlank (lastLine (before ++ content)) = true
      · rw [startOfLine_text (.inr hnot) hblank, decide_eq_false (by omega), Bool.and_false]
      · rw [opensAlone_eq_false (Bool.eq_false_iff.2 hblank), Bool.false_and]
    | tag body pieces =>
      cases h with
      | tag hbody =>
        have hend := isBlank_lastLine_tag hbody (before ++ openBraces)
        have hlen : i < (before ++ openBraces ++ body).length := by
          rw [List.length_append, List.length_append]
          omega
        rw [isRemoved, ih hparts (fun _ _ _ => .inr hend) hlen, opensAlone_eq_false hend,
          Bool.false_and, Bool.or_false, opensAlone,
          decide_eq_false (p := _ ∧ i < _ + endOfLine _) (by omega), Bool.or_false]
        simp only [hi, and_true]

/-- Of the start of a text, a tag that stands alone before it removes its first line. -/
theorem removed_first {alone : Bool} {content : List Char} {parts : List Part}
    (h : Layout (.text content :: parts))
    (halone : alone = true →
      isBlank (firstLine (content ++ parts.flatMap Part.source)) = true) (start k : Nat) :
    (alone && decide (start + k < start + endOfLine (content ++ parts.flatMap Part.source))) =
      decide (k < if alone then endOfLine content else 0) := by
  cases alone with
  | false => simp
  | true =>
    rw [endOfLine_text h (halone rfl), Bool.true_and, if_pos rfl, decide_eq_decide]
    omega

/-- Of the end of a text, a tag that stands alone after it removes its last line. -/
theorem removed_last {before content : List Char} {parts : List Part} {k : Nat}
    (hstart : before = [] ∨ isBlank (lastLine before) = false) (hk : k < content.length) :
    (opensAlone (before ++ content) parts &&
        decide (startOfLine (before ++ content) ≤ before.length + k)) =
      decide ((if opensAlone (before ++ content) parts then startOfLine content
        else content.length) ≤ k) := by
  cases hopens : opensAlone (before ++ content) parts with
  | false => simpa using hk
  | true =>
    have hblank : isBlank (lastLine (before ++ content)) = true := by
      by_contra hnot
      rw [opensAlone_eq_false (Bool.eq_false_iff.2 hnot)] at hopens
      cases hopens
    rw [startOfLine_text hstart hblank, Bool.true_and, if_pos rfl, decide_eq_decide]
    omega

/-- From some parts on, the removed characters are those that stand beside the tags to come and, if
a tag that stands alone comes right before, those on the rest of its line. -/
structure Removes (removed : Nat → Bool) (before : List Char) (alone : Bool) (parts : List Part) :
    Prop where
  layout : Layout parts
  blank : alone = true → isBlank (firstLine (parts.flatMap Part.source)) = true
  start : ∀ content rest, parts = .text content :: rest →
    before = [] ∨ isBlank (lastLine before) = false
  removed_eq : ∀ i, before.length ≤ i → removed i =
    (alone && decide (i < before.length + endOfLine (parts.flatMap Part.source)) ||
      isRemoved before parts i)

namespace Removes

variable {removed : Nat → Bool} {before : List Char} {alone : Bool} {parts : List Part}

/-- No text comes after a text. -/
theorem start_text {content : List Char} (h : Layout (.text content :: parts)) :
    ∀ next rest, parts = .text next :: rest →
      before ++ content = [] ∨ isBlank (lastLine (before ++ content)) = false := by
  rintro next rest rfl
  cases h

/-- The characters that are kept of a text are those between its first and its last line. -/
theorem keepAt_text {content : List Char}
    (h : Removes removed before alone (.text content :: parts)) :
    keepAt removed before.length content =
      Token.keepText alone (opensAlone (before ++ content) parts) content := by
  rw [keepText_eq]
  refine keepAt_eq fun k hk => ?_
  have hlt : before.length + k < (before ++ content).length := by
    rw [List.length_append]
    omega
  rw [h.removed_eq _ (Nat.le_add_right _ _), isRemoved,
    isRemoved_of_lt h.layout.tail (start_text h.layout) hlt]
  congr 1
  · exact removed_first h.layout h.blank before.length k
  · exact removed_last (h.start content parts rfl) hk

/-- After a text, no tag before it removes anything. -/
theorem text {content : List Char} (h : Removes removed before alone (.text content :: parts)) :
    Removes removed (before ++ content) false parts := by
  refine ⟨h.layout.tail, fun heq => absurd heq Bool.false_ne_true, start_text h.layout, ?_⟩
  intro i hi
  have hle := endOfLine_le content
  have hlen : (before ++ content).length = before.length + content.length := List.length_append
  have hpast := removed_first h.layout h.blank before.length (i - before.length)
  rw [Nat.add_sub_cancel' (by omega)] at hpast
  have hremoved := h.removed_eq i (by omega)
  rw [List.flatMap_cons, Part.source] at hremoved
  rw [hremoved, hpast, isRemoved, Bool.false_and]
  congr 1
  apply decide_eq_false
  split <;> omega

/-- After a tag, the tag itself may stand alone. -/
theorem tag {body : List Char} {pieces : List Piece}
    (h : Removes removed before alone (.tag body pieces :: parts)) :
    Removes removed (before ++ openBraces ++ body)
      (standsAlone before pieces (parts.flatMap Part.source)) parts := by
  obtain ⟨hlayout, hblank, -, hremoved⟩ := h
  cases hlayout with
  | tag hbody hparts =>
    have hend := isBlank_lastLine_tag hbody (before ++ openBraces)
    -- A line does not go on blank into the braces of a tag.
    have hno : alone = false := by
      rw [List.flatMap_cons, Part.source, List.append_assoc, isBlank_firstLine_tag] at hblank
      exact Bool.eq_false_iff.2 fun h => Bool.false_ne_true (hblank h)
    refine ⟨hparts, fun h => (Bool.and_eq_true_iff.1 h).2, fun _ _ _ => .inr hend, ?_⟩
    intro i hi
    have hlen : before.length ≤ (before ++ openBraces ++ body).length := by
      rw [List.length_append, List.length_append]
      omega
    have hlt : ¬ (startOfLine before ≤ i ∧ i < before.length) := by omega
    rw [hremoved i (by omega), hno, Bool.false_and, Bool.false_or, isRemoved, decide_eq_false hlt,
      Bool.false_or]
    simp only [hi, true_and]

end Removes

/-- The parts of a template are stripped by removing characters at their positions. -/
theorem strip_eq_keepTokens {removed : Nat → Bool} {before : List Char} {alone : Bool}
    {parts : List Part} (h : Removes removed before alone parts) :
    (strip before alone parts).flatMap Segment.toTokens =
      keepTokens removed before.length parts := by
  -- The text passed so far is general in the induction, and `Removes` is the invariant about it.
  induction parts generalizing before alone with
  | nil => rfl
  | cons part parts ih =>
    cases part with
    | text content =>
      have hrest := ih h.text
      rw [List.length_append] at hrest
      rw [strip, keepTokens, h.keepAt_text, ← hrest]
      split
      · rfl
      · rfl
    | tag body pieces =>
      have hrest := ih h.tag
      rw [List.append_assoc, List.length_append] at hrest
      rw [strip, keepTokens, List.flatMap_cons, ← hrest, List.append_assoc]
      rfl

/-! ## Only white space is removed -/

/-- A character that leaves a line blank, or a newline. -/
def IsLineSpace (c : Char) : Prop :=
  isBlankChar c = true ∨ c = '\n'

theorem exists_of_lt_length {cs : List Char} {k : Nat} (hk : k < cs.length)
    (hblank : isBlank cs = true) : ∃ c, cs[k]? = some c ∧ IsLineSpace c := by
  have hmem : cs.get ⟨k, hk⟩ ∈ cs := List.get_mem cs ⟨k, hk⟩
  exact ⟨_, List.getElem?_eq_getElem hk, .inl (List.all_eq_true.1 hblank _ hmem)⟩

theorem exists_of_lt_endOfLine {cs : List Char} {k : Nat} (hk : k < endOfLine cs)
    (hblank : isBlank (firstLine cs) = true) : ∃ c, cs[k]? = some c ∧ IsLineSpace c := by
  by_cases hline : '\n' ∈ cs
  · obtain ⟨line, rest, rfl, hnot⟩ := List.eq_append_cons_of_mem hline
    rw [endOfLine_newline hnot] at hk
    rw [firstLine_newline hnot] at hblank
    rcases Nat.lt_succ_iff_lt_or_eq.1 hk with hlt | rfl
    · rw [List.getElem?_append_left hlt]
      exact exists_of_lt_length hlt hblank
    · exact ⟨'\n', by simp, .inr rfl⟩
  · rw [endOfLine_of_not_mem hline] at hk
    rw [firstLine_eq_self hline] at hblank
    exact exists_of_lt_length hk hblank

/-- On a blank last line every character is a line space. -/
theorem exists_of_startOfLine_le {cs : List Char} {k : Nat} (hstart : startOfLine cs ≤ k)
    (hk : k < cs.length) (hblank : isBlank (lastLine cs) = true) :
    ∃ c, cs[k]? = some c ∧ IsLineSpace c := by
  have hsuffix : lastLine cs <:+ cs := by
    rw [lastLine, ← List.reverse_prefix, List.reverse_reverse]
    exact List.takeWhile_prefix _
  obtain ⟨before, hbefore⟩ := hsuffix
  have hlen : before.length = startOfLine cs := by
    have := congrArg List.length hbefore
    rw [List.length_append] at this
    rw [startOfLine]
    omega
  -- Counted from the start of the last line, the character is one of that line.
  have hget : cs[k]? = (lastLine cs)[k - startOfLine cs]? := by
    conv_lhs => rw [← hbefore]
    rw [List.getElem?_append_right (by omega), hlen]
  have hlt : k - startOfLine cs < (lastLine cs).length := by
    have := congrArg List.length hbefore
    rw [List.length_append] at this
    omega
  rw [hget]
  exact exists_of_lt_length hlt hblank

/-- No character is removed but white space and newlines. -/
theorem isLineSpace_of_isRemoved {before : List Char} {parts : List Part} {i : Nat}
    (h : isRemoved before parts i = true) :
    ∃ c, (before ++ parts.flatMap Part.source)[i]? = some c ∧ IsLineSpace c := by
  induction parts generalizing before with
  | nil => cases h
  | cons part parts ih =>
    cases part with
    | text content =>
      rw [List.flatMap_cons, ← List.append_assoc]
      exact ih h
    | tag body pieces =>
      have hsource : before ++ (Part.tag body pieces :: parts).flatMap Part.source =
          before ++ openBraces ++ body ++ parts.flatMap Part.source := by
        rw [List.flatMap_cons, Part.source, List.append_assoc, List.append_assoc]
        simp only [List.append_assoc]
      rw [hsource]
      rw [isRemoved, Bool.or_eq_true, Bool.and_eq_true, Bool.or_eq_true, decide_eq_true_eq,
        decide_eq_true_eq] at h
      -- Removed with the blank before this tag, with the blank after it, or for a later tag.
      rcases h with ⟨halone, hbefore | hafter⟩ | hrest
      · rw [standsAlone, Bool.and_eq_true, Bool.and_eq_true] at halone
        obtain ⟨c, hc, hspace⟩ := exists_of_startOfLine_le hbefore.1 hbefore.2 halone.1.2
        refine ⟨c, ?_, hspace⟩
        rw [List.append_assoc, List.append_assoc, List.getElem?_append_left hbefore.2, hc]
      · rw [standsAlone, Bool.and_eq_true, Bool.and_eq_true] at halone
        obtain ⟨c, hc, hspace⟩ := exists_of_lt_endOfLine
          (k := i - (before ++ openBraces ++ body).length) (by omega) halone.2
        refine ⟨c, ?_, hspace⟩
        rw [List.getElem?_append_right hafter.1, hc]
      · exact ih hrest

/-! ## The pass on a whole template -/

/-- A template that can be scanned is laid out in texts and tags in exactly one way. The pass over
its tokens removes the characters beside the tags that stand alone, which are white space and
newlines, leaves out the texts that become empty, and changes nothing else. -/
theorem stripLines_removes_lines {template : String} {tokens : List Token}
    (h : tokenize template = .ok tokens) :
    ∃ parts, Layout parts ∧ parts.flatMap Part.source = template.toList ∧
      (∀ other, Layout other → other.flatMap Part.source = template.toList → other = parts) ∧
      parts.flatMap Part.tokens = tokens ∧
      Token.stripLines tokens = keepTokens (isRemoved [] parts) 0 parts ∧
      ∀ i, isRemoved [] parts i = true → ∃ c, template.toList[i]? = some c ∧ IsLineSpace c := by
  obtain ⟨parts, hparts, hsource, rfl⟩ := tokenize_eq_ok_iff.1 h
  refine ⟨parts, hparts, hsource.symm, ?_, rfl, ?_, ?_⟩
  · intro other hother heq
    exact Scanner.layout_unique hother hparts (heq.trans hsource)
  -- Nothing stands before the first part, so the invariant holds there by definition.
  · have hremoves : Removes (isRemoved [] parts) [] false parts := by
      refine ⟨hparts, fun h => absurd h Bool.false_ne_true, fun _ _ _ => .inl rfl, ?_⟩
      intro i _
      rw [Bool.false_and, Bool.false_or]
    rw [stripLines_eq hparts]
    exact strip_eq_keepTokens hremoves
  · intro i hi
    rw [hsource]
    exact isLineSpace_of_isRemoved hi

/-- An opener on a line of its own, between two texts that are cut at it. -/
theorem stripLines_removes_lines_opener :
    let template := "a\n \x7b\x7b #x \x7d\x7d \r\nb"
    let opener : List Token := [.tagOpen, .piece (.word "x" (some .blockOpen)), .tagClose]
    let tokens := .text "a\n " :: (opener ++ [.text " \r\nb"])
    tokenize template = .ok tokens ∧
      Token.stripLines tokens = .text "a\n" :: (opener ++ [.text "b"]) ∧
      ∃ parts, Layout parts ∧ parts.flatMap Part.source = template.toList ∧
        Token.stripLines tokens = keepTokens (isRemoved [] parts) 0 parts := by
  intro template opener tokens
  have hword : IsWord "x".toList := @isWord_of_wordLength _ [] rfl
  have hopener : TagContents [.word "x" (some .blockOpen)] :=
    .sigil (c := '#') rfl hword (by decide) (List.forall_mem_nil _)
  have hwf : WellFormed tokens :=
    .text (by decide) (by decide) (by decide) (.tag hopener (.lastText (by decide) (by decide)))
  have h : tokenize template = .ok tokens :=
    @tokenize_print [' '] (List.forall_mem_singleton.2 rfl) (by decide) tokens hwf
  obtain ⟨parts, hparts, hsource, -, -, hstrip, -⟩ := stripLines_removes_lines h
  exact ⟨h, by decide, parts, hparts, hsource, hstrip⟩

end BraceTemplate
