import BraceTemplate.Proofs.Lines.Standalone

/-!
# Templates that meet at the end of a line

The last text of a template that ends with a newline becomes one with the first text of what is put
after it. No line reaches over the newline, so the same tags stand alone as before, and what is kept
of the text is what was kept of its two halves: `exists_seam`.
-/

namespace BraceTemplate

open Scanner (openBraces closeBraces TagText)

/-! ## The parts of both templates -/

/-- The text that some parts begin with. -/
def leadingText : List Part → List Char
  | .text content :: _ => content
  | _ => []

/-- The parts after the text that some parts begin with. -/
def afterText : List Part → List Part
  | .text _ :: parts => parts
  | parts => parts

theorem source_afterText (parts : List Part) :
    leadingText parts ++ (afterText parts).flatMap Part.source = parts.flatMap Part.source := by
  cases parts with
  | nil => rfl
  | cons part parts => cases part <;> rfl

/-- A template that ends with a newline ends with a text that does. -/
theorem exists_lastText {parts : List Part} (h : Layout parts)
    (hend : (parts.flatMap Part.source).getLast? = some '\n') :
    ∃ init line, parts = init ++ [Part.text line] ∧ line.getLast? = some '\n' := by
  rcases List.eq_nil_or_concat parts with rfl | ⟨init, part, rfl⟩
  · cases hend
  rw [List.concat_eq_append, List.flatMap_append, List.flatMap_singleton] at hend
  rw [List.concat_eq_append] at h
  have hpart := h.of_append
  cases part with
  | text line =>
    have hne : line ≠ [] := by
      cases hpart with
      | lastText hne => exact hne
    refine ⟨init, line, List.concat_eq_append, ?_⟩
    rwa [Part.source, List.getLast?_append_of_ne_nil _ hne] at hend
  | tag body pieces =>
    cases hpart with
    | tag hbody =>
      -- A tag ends with its closing braces, not with a newline.
      obtain ⟨before, rfl⟩ := closeBraces_suffix_tagText hbody
      rw [Part.source, ← List.append_assoc, ← List.append_assoc,
        List.getLast?_append_of_ne_nil _ (by decide)] at hend
      cases hend

/-- No braces reach over a newline. -/
theorem not_openBraces_infix_append {line cs : List Char} (hend : line.getLast? = some '\n')
    (hline : ¬ openBraces <:+: line) (hcs : ¬ openBraces <:+: cs) :
    ¬ openBraces <:+: line ++ cs := by
  obtain ⟨init, rfl⟩ := List.getLast?_eq_some_iff.1 hend
  rw [List.append_assoc, List.singleton_append]
  intro hinfix
  rcases Text.infix_of_append_cons (by decide) hinfix with hinit | hafter
  · exact hline (hinit.trans (List.prefix_append _ _).isInfix)
  · exact hcs hafter

/-- A line before a template becomes one with the text that the template begins with. -/
theorem layout_line {line : List Char} {parts : List Part} (hend : line.getLast? = some '\n')
    (hline : ¬ openBraces <:+: line) (h : Layout parts) :
    Layout (.text (line ++ leadingText parts) :: afterText parts) := by
  have hne : ∀ cs, line ++ cs ≠ [] := by
    rintro cs heq
    rw [(List.append_eq_nil_iff.1 heq).1] at hend
    cases hend
  have hbrace : ¬ openBraces <:+: ['\x7b'] := by decide
  cases h with
  | nil => exact .lastText (hne _) (not_openBraces_infix_append hend hline (by decide))
  | lastText _ hbraces => exact .lastText (hne _) (not_openBraces_infix_append hend hline hbraces)
  | text _ hbraces h =>
    refine .text (hne _) ?_ h
    rw [List.append_assoc]
    exact not_openBraces_infix_append hend hline hbraces
  | tag hbody h =>
    refine .text (hne _) ?_ (.tag hbody h)
    rw [List.append_assoc]
    exact not_openBraces_infix_append hend hline hbrace

/-- The parts of both templates in a row. -/
theorem layout_append {init : List Part} {line content : List Char} {rest : List Part}
    (h : Layout (init ++ [Part.text line])) (hrest : Layout (.text content :: rest)) :
    Layout (init ++ .text content :: rest) := by
  -- The conditions on a text are about its own characters and about whether a tag comes next.
  induction init with
  | nil => exact hrest
  | cons part init ih =>
    have htail := ih h.tail
    cases init with
    | nil =>
      cases part with
      | text => cases h
      | tag =>
        cases h with
        | tag hbody => exact .tag hbody htail
    | cons next init =>
      cases h with
      | text hne hbraces => exact .text hne hbraces htail
      | tag hbody => exact .tag hbody htail

/-! ## The lines of both templates -/

theorem standsAlone_congr {before other after later : List Char}
    (hbefore : lastLine before = lastLine other) (hafter : firstLine after = firstLine later)
    (pieces : List Piece) : standsAlone before pieces after = standsAlone other pieces later := by
  rw [standsAlone, standsAlone, hbefore, hafter]

theorem opensAlone_congr {before other : List Char} (h : lastLine before = lastLine other)
    (parts : List Part) : opensAlone before parts = opensAlone other parts := by
  cases parts with
  | nil => rfl
  | cons part parts =>
    cases part with
    | text => rfl
    | tag body pieces => exact standsAlone_congr h rfl pieces

/-- Of what comes before, only the last line has an influence on which tags stand alone. -/
theorem strip_congr {before other : List Char} (h : lastLine before = lastLine other) (alone : Bool)
    (parts : List Part) : strip before alone parts = strip other alone parts := by
  induction parts generalizing before other alone with
  | nil => rfl
  | cons part parts ih =>
    cases part with
    | text content =>
      have htext := lastLine_congr h content
      rw [strip, strip, opensAlone_congr htext, ih htext]
    | tag body pieces =>
      have hopen := lastLine_congr (lastLine_congr h openBraces) body
      rw [strip, strip, standsAlone_congr h rfl, ih hopen]

/-- The segments of a text, which are none if it is empty. -/
def textSegments (content : List Char) : List (Segment String (List Piece)) :=
  if content.isEmpty then [] else [.outside (String.ofList content)]

theorem strip_text (before : List Char) (alone : Bool) (content : List Char) (parts : List Part) :
    strip before alone (.text content :: parts) =
      textSegments (Token.keepText alone (opensAlone (before ++ content) parts) content) ++
        strip (before ++ content) false parts := by
  rw [strip, textSegments]
  split
  · rfl
  · rfl

theorem strip_tag (before : List Char) (alone : Bool) (body : List Char) (pieces : List Piece)
    (parts : List Part) :
    strip before alone (.tag body pieces :: parts) =
      .tag pieces :: strip (before ++ openBraces ++ body)
        (standsAlone before pieces (parts.flatMap Part.source)) parts := rfl

/-- What is kept of the text that some parts begin with. -/
def leadingKept (parts : List Part) : List Char :=
  Token.keepText false (opensAlone (leadingText parts) (afterText parts)) (leadingText parts)

/-- What is left of the parts after the text that they begin with. -/
def afterKept (parts : List Part) : List (Segment String (List Piece)) :=
  strip (leadingText parts) false (afterText parts)

theorem strip_afterText (parts : List Part) :
    strip [] false parts = textSegments (leadingKept parts) ++ afterKept parts := by
  rw [leadingKept, afterKept]
  have hnone : ∀ opens, textSegments (Token.keepText false opens []) = [] := by decide
  cases parts with
  | nil => rfl
  | cons part parts =>
    cases part with
    | text content => exact strip_text [] false content parts
    | tag body pieces =>
      have hleading : leadingText (.tag body pieces :: parts) = [] := rfl
      rw [hleading, hnone]
      rfl

/-- The first line of parts that end a line does not depend on what comes after them. -/
theorem firstLine_line {line : List Char} (hline : '\n' ∈ line) (init : List Part)
    (content : List Char) (rest : List Part) :
    firstLine ((init ++ .text (line ++ content) :: rest).flatMap Part.source) =
      firstLine ((init ++ [Part.text line]).flatMap Part.source) := by
  have hsource : (init ++ .text (line ++ content) :: rest).flatMap Part.source =
      (init ++ [Part.text line]).flatMap Part.source ++ (content ++ rest.flatMap Part.source) := by
    rw [List.flatMap_append, List.flatMap_append, List.flatMap_cons, List.flatMap_singleton,
      Part.source, Part.source]
    simp only [List.append_assoc]
  have hmem : '\n' ∈ (init ++ [Part.text line]).flatMap Part.source := by
    rw [List.flatMap_append, List.flatMap_singleton]
    exact List.mem_append_right _ hline
  rw [hsource, firstLine_append hmem]

theorem opensAlone_line {line : List Char} (hline : '\n' ∈ line) (before : List Char)
    (init : List Part) (content : List Char) (rest : List Part) :
    opensAlone before (init ++ .text (line ++ content) :: rest) =
      opensAlone before (init ++ [Part.text line]) := by
  cases init with
  | nil => rfl
  | cons part init =>
    cases part with
    | text => rfl
    | tag body pieces => exact standsAlone_congr rfl (firstLine_line hline init content rest) pieces

/-- What is stripped of the parts before a line does not depend on what comes after the line. -/
theorem exists_strip_append {line : List Char} (hline : '\n' ∈ line) (init : List Part)
    (before : List Char) (alone : Bool) :
    ∃ segments aloneAfter, ∀ content rest,
      strip before alone (init ++ .text (line ++ content) :: rest) =
        segments ++ strip (before ++ init.flatMap Part.source) aloneAfter
          (.text (line ++ content) :: rest) := by
  induction init generalizing before alone with
  | nil =>
    refine ⟨[], alone, fun content rest => ?_⟩
    rw [List.flatMap_nil, List.append_nil]
    rfl
  | cons part init ih =>
    cases part with
    | text first =>
      obtain ⟨segments, aloneAfter, hrest⟩ := ih (before ++ first) false
      -- What follows the newline cannot change whether the next tag stands alone before it.
      have hopens := opensAlone_line hline (before ++ first) init
      let opens := opensAlone (before ++ first) (init ++ [Part.text line])
      let kept := Token.keepText alone opens first
      refine ⟨textSegments kept ++ segments, aloneAfter, ?_⟩
      intro content rest
      rw [List.cons_append, strip_text, hopens, hrest, List.append_assoc,
        List.flatMap_cons, Part.source, List.append_assoc]
    | tag body pieces =>
      obtain ⟨segments, aloneAfter, hrest⟩ := ih (before ++ openBraces ++ body)
        (standsAlone before pieces ((init ++ [Part.text line]).flatMap Part.source))
      refine ⟨.tag pieces :: segments, aloneAfter, ?_⟩
      intro content rest
      -- The line behind this tag ends before the seam, so that the tag is judged as it was.
      have hfirst := firstLine_line hline init content rest
      rw [List.cons_append, strip_tag, standsAlone_congr (Eq.refl (lastLine before)) hfirst, hrest,
        List.cons_append, List.flatMap_cons, Part.source]
      simp only [List.append_assoc]

/-- What is stripped of two templates that meet at the end of a line is stripped of both in a row,
where the last text of the first one and the first text of the second one become one. -/
theorem exists_seam {line : List Char} (hend : line.getLast? = some '\n') (init : List Part) :
    ∃ segments former,
      strip [] false (init ++ [Part.text line]) = segments ++ textSegments former ∧
      ∀ second, strip [] false (init ++ .text (line ++ leadingText second) :: afterText second) =
        segments ++ (textSegments (former ++ leadingKept second) ++ afterKept second) := by
  have hmem : '\n' ∈ line := List.mem_of_getLast? hend
  obtain ⟨segments, alone, hstrip⟩ := exists_strip_append hmem init [] false
  refine ⟨segments, Token.keepText alone false line, ?_, ?_⟩
  · have hlast := hstrip [] []
    rw [List.append_nil, strip_text] at hlast
    rw [hlast, strip, List.append_nil]
    rfl
  · -- The line before the seam ends, so that the second template goes on as it began.
    intro second
    have hline : lastLine ([] ++ init.flatMap Part.source ++ (line ++ leadingText second)) =
        lastLine (leadingText second) := by
      have hempty : lastLine ([] ++ init.flatMap Part.source ++ line) = [] := by
        rw [lastLine_append hmem, lastLine_of_getLast? hend]
      rw [← List.append_assoc, lastLine_append_of_nil hempty]
    rw [hstrip, strip_text, strip_congr hline, opensAlone_congr hline,
      keepText_append hmem (lastLine_of_getLast? hend), leadingKept, afterKept]

end BraceTemplate
