import BraceTemplate.Proofs.Scanning.Unclosed

/-!
# Templates that go on after a tag

The scanner leaves a tag in the state in which it begins a template, but for its position. So the
tokens of a template that ends with a tag stay what they are when the template goes on, and what is
put after the tag is scanned as a template of its own, with its errors at later positions.
-/

namespace BraceTemplate

/-- Passing more characters leads to another position. -/
theorem Position.advance_ne_self (position : Position) {passed : List Char} (hne : passed ≠ []) :
    position.advance passed ≠ position := by
  intro heq
  have hline : position.line + passed.count '\n' = position.line := by
    rw [← Position.line_advance, heq]
  have hnewline : '\n' ∉ passed := List.count_eq_zero.1 (Nat.add_eq_left.1 hline)
  have hcolumn : position.column + passed.length = position.column := by
    rw [← Position.column_advance hnewline, heq]
  exact hne (List.length_eq_zero_iff.1 (Nat.add_eq_left.1 hcolumn))

/-- Two beginnings of a text end at different positions. -/
theorem Position.eq_of_advance_eq {position : Position} {first second rest left : List Char}
    (htext : first ++ rest = second ++ left)
    (h : position.advance first = position.advance second) : first = second := by
  rcases List.append_eq_append_iff.1 htext with ⟨more, rfl, -⟩ | ⟨more, rfl, -⟩
  · rw [Position.advance_append] at h
    rw [not_imp_not.1 (Position.advance_ne_self (position.advance first)) h.symm, List.append_nil]
  · rw [Position.advance_append] at h
    rw [not_imp_not.1 (Position.advance_ne_self (position.advance second)) h, List.append_nil]

namespace Scanner

/-! ## Parts before a tag or after one -/

/-- A text before a tag goes up to the opening braces, and the parts after it begin with these. -/
theorem next_of_text_before_tag {content more : List Char} {parts : List Part} {s : Scanner}
    (h : Layout (.text content :: parts ++ [.tag closeBraces []])) (hout : s.inTag = false)
    (hrest : s.rest = content ++ (parts.flatMap Part.source ++ more))
    (hmore : (Part.text content :: parts).getLast? = some (.text content) → openBraces <+: more) :
    s.next = (.ok (some (.text (String.ofList content))), s.pass content.length) := by
  have hnext : ∀ after, content ≠ [] → ¬ openBraces <:+: content ++ ['\x7b'] →
      openBraces <+: after → s.rest = content ++ after →
      s.next = (.ok (some (.text (String.ofList content))), s.pass content.length) := by
    rintro after hne hbraces ⟨left, rfl⟩ hrest
    exact next_of_text hout hne hrest (.inl (splitAtMarker_openBraces hbraces))
  -- The braces that end the text are those of the next part, or of what comes after all parts.
  cases parts with
  | nil =>
    cases h with
    | text hne hbraces _ => exact hnext more hne hbraces (hmore rfl) hrest
  | cons part parts =>
    cases h with
    | @text _ body pieces _ hne hbraces _ =>
      refine hnext _ hne hbraces ?_ hrest
      rw [List.flatMap_cons, Part.source, List.append_assoc, List.append_assoc]
      exact List.prefix_append openBraces _

/-- A scanner that passes parts of a template gives their tokens and goes on with what comes after
them. No text may go on: if the parts end with a text then a tag comes next. -/
theorem exists_tokens_after_parts {parts : List Part} {more : List Char} {s : Scanner}
    (h : Layout (parts ++ [.tag closeBraces []])) (hout : s.inTag = false)
    (hrest : s.rest = parts.flatMap Part.source ++ more)
    (hmore : ∀ content, parts.getLast? = some (.text content) → openBraces <+: more) :
    ∃ t : Scanner, t.inTag = false ∧ t.rest = more ∧
      t.position = s.position.advance (parts.flatMap Part.source) ∧
      s.tokens = t.tokens.map (parts.flatMap Part.tokens ++ ·) := by
  induction parts generalizing s with
  | nil =>
    refine ⟨s, hout, hrest, rfl, ?_⟩
    cases s.tokens <;> rfl
  | cons part parts ih =>
    -- What ends the parts after this one ends all of them.
    have hlast : ∀ content, parts.getLast? = some (.text content) → openBraces <+: more := by
      intro content hlast
      refine hmore content ?_
      rw [List.getLast?_cons, hlast]
      rfl
    rw [List.flatMap_cons, List.append_assoc] at hrest
    cases part with
    | text content =>
      have hnext := next_of_text_before_tag h hout hrest (hmore content)
      have hpass : (s.pass content.length).rest = parts.flatMap Part.source ++ more := by
        rw [rest_pass, hrest, Part.source, List.drop_left]
      have htake : s.rest.take content.length = content := by
        rw [hrest, Part.source, List.take_left]
      obtain ⟨t, htout, htrest, hposition, htokens⟩ :=
        ih h.tail (s := s.pass content.length) hout hpass hlast
      refine ⟨t, htout, htrest, ?_, ?_⟩
      · rw [hposition, List.flatMap_cons, Position.advance_append, Part.source, pass, htake]
      · rw [tokens_of_next hnext, htokens, Results.map_map]
        rfl
    | tag body pieces =>
      rw [Part.source, List.append_assoc] at hrest
      cases h with
      | tag hbody h =>
        obtain ⟨between, hbout, hbrest, hbetween, hbtokens⟩ :=
          exists_tokens_after_tag hbody hout hrest
        obtain ⟨t, htout, htrest, hposition, htokens⟩ := ih h hbout hbrest hlast
        refine ⟨t, htout, htrest, ?_, ?_⟩
        · rw [hposition, hbetween, List.flatMap_cons, Part.source, ← Position.advance_append]
        · rw [hbtokens, htokens, Results.map_map, List.flatMap_cons]
          exact congrArg (Except.map · t.tokens) (funext fun later => (List.append_assoc _ _ _).symm)

/-- A tag without an end after parts of a template is where the scanner fails. -/
theorem tokens_of_unclosed {parts : List Part} {left : List Char} {fault : LexFault} {s : Scanner}
    (h : Layout (parts ++ [.tag closeBraces []])) (hunclosed : Unclosed true left fault)
    (hout : s.inTag = false)
    (hrest : s.rest = parts.flatMap Part.source ++ (openBraces ++ left)) :
    s.tokens = .error (.lex (s.position.advance (parts.flatMap Part.source)) fault) := by
  obtain ⟨t, htout, htrest, hposition, htokens⟩ :=
    exists_tokens_after_parts h hout hrest fun _ _ => List.prefix_append _ _
  rw [htokens, tokens_of_next (next_of_open htout htrest), hunclosed.tokens_eq rfl rfl
    (congrArg (List.drop 2) htrest), ← hposition]
  rfl

/-! ## The same text at another position -/

variable {s t : Scanner}

/-- What a text is scanned into does not depend on its position. -/
theorem tokens_eq_ok_of_rest {found : List Token} (hs : s.inTag = false) (ht : t.inTag = false)
    (hrest : s.rest = t.rest) (h : s.tokens = .ok found) : t.tokens = .ok found := by
  obtain ⟨parts, hparts, hsource, rfl⟩ := exists_layout_of_tokens hs h
  exact tokens_of_layout hparts ht (hrest ▸ hsource)

/-- The error of a text is the same at another position, but for that of the tag it is about. -/
theorem tokens_eq_error_of_rest {error : Error} (hs : s.inTag = false) (ht : t.inTag = false)
    (hrest : s.rest = t.rest) (h : s.tokens = .error error) :
    ∃ before left fault, s.rest = before ++ (openBraces ++ left) ∧
      error = .lex (s.position.advance before) fault ∧
      t.tokens = .error (.lex (t.position.advance before) fault) := by
  obtain ⟨parts, left, fault, hparts, hsource, hunclosed, rfl⟩ := exists_unclosed_of_tokens hs h
  exact ⟨_, left, fault, hsource, rfl, tokens_of_unclosed hparts hunclosed ht (hrest ▸ hsource)⟩

/-! ## Parts that end with a tag -/

/-- Parts whose tokens end with a tag end with that tag. -/
theorem exists_last_tag {parts : List Part} {found : List Token}
    (h : parts.flatMap Part.tokens = found ++ [.tagClose]) :
    ∃ init body pieces, parts = init ++ [Part.tag body pieces] := by
  rcases List.eq_nil_or_concat parts with rfl | ⟨init, part, rfl⟩
  · simp at h
  · cases part with
    | tag body pieces => exact ⟨init, body, pieces, List.concat_eq_append⟩
    | text content =>
      have hlast := congrArg List.getLast? h
      simp [Part.tokens] at hlast

/-- Any parts may come after parts that end with a tag. -/
theorem layout_after_tag {init parts : List Part} {body : List Char} {pieces : List Piece}
    (h : Layout (init ++ [.tag body pieces])) (hparts : Layout parts) :
    Layout (init ++ .tag body pieces :: parts) := by
  induction init with
  | nil =>
    cases h with
    | tag hbody _ => exact .tag hbody hparts
  | cons part init ih =>
    have htail := ih h.tail
    cases init with
    | nil =>
      cases h with
      | text hne hbraces _ => exact .text hne hbraces htail
      | tag hbody _ => exact .tag hbody htail
    | cons next init =>
      cases h with
      | text hne hbraces _ => exact .text hne hbraces htail
      | tag hbody _ => exact .tag hbody htail

/-- After a template that ends with a tag the scanner goes on as it begins a template. -/
theorem exists_tokens_after_template {first : String} {found : List Token}
    (h : tokenize first = .ok (found ++ [.tagClose])) (second : String) :
    ∃ t : Scanner, t.inTag = false ∧ t.rest = second.toList ∧
      t.position = Position.start.advance first.toList ∧
      tokenize (first ++ second) = t.tokens.map (found ++ [.tagClose] ++ ·) := by
  obtain ⟨parts, hparts, hsource, htokens⟩ := tokenize_eq_ok_iff.1 h
  obtain ⟨init, body, pieces, rfl⟩ := exists_last_tag htokens.symm
  have hlayout : Layout (init ++ [.tag body pieces] ++ [.tag closeBraces []]) := by
    rw [List.append_assoc]
    exact layout_after_tag hparts (.tag (.close Text.isSpace_nil) .nil)
  have hstart : (start (first ++ second)).rest =
      (init ++ [Part.tag body pieces]).flatMap Part.source ++ second.toList := by
    rw [← hsource]
    exact String.toList_append
  obtain ⟨t, hout, hrest, hposition, hafter⟩ :=
    exists_tokens_after_parts hlayout rfl hstart fun content hlast => by simp at hlast
  rw [← htokens] at hafter
  rw [← hsource] at hposition
  exact ⟨t, hout, hrest, hposition, hafter⟩

end Scanner

open Scanner (openBraces)

/-- A template that ends with a tag can be followed by any other one. Both in a row can be scanned
just if the second one can, into the tokens of both. Otherwise the fault is that of the second one,
and its position is that of the same tag, which stands after the characters of the first one. -/
theorem tokenize_append {first second : String} {found : List Token}
    (h : tokenize first = .ok (found ++ [.tagClose])) :
    (∀ both, tokenize (first ++ second) = .ok both ↔
      ∃ later, tokenize second = .ok later ∧ both = found ++ [.tagClose] ++ later) ∧
    ∀ error, tokenize second = .error error →
      ∃ before left fault, second.toList = before ++ (openBraces ++ left) ∧
        error = .lex (Position.start.advance before) fault ∧
        (∀ other rest, second.toList = other ++ rest →
          Position.start.advance other = Position.start.advance before → other = before) ∧
        tokenize (first ++ second) =
          .error (.lex (Position.start.advance (first.toList ++ before)) fault) := by
  obtain ⟨t, hout, hrest, hposition, htokens⟩ := Scanner.exists_tokens_after_template h second
  constructor
  · intro both
    rw [htokens, Results.map_eq_ok]
    constructor
    · rintro ⟨later, hlater, rfl⟩
      exact ⟨later, Scanner.tokens_eq_ok_of_rest hout rfl hrest hlater, rfl⟩
    · rintro ⟨later, hlater, rfl⟩
      exact ⟨later, Scanner.tokens_eq_ok_of_rest rfl hout hrest.symm hlater, rfl⟩
  · intro error herror
    obtain ⟨before, left, fault, hsecond, rfl, hfault⟩ :=
      Scanner.tokens_eq_error_of_rest rfl hout hrest.symm herror
    have hsecond : second.toList = before ++ (openBraces ++ left) := hsecond
    refine ⟨before, left, fault, hsecond, rfl, ?_, ?_⟩
    -- A position belongs to one prefix only, as every character moves it on.
    · intro other rest hother hsame
      exact Position.eq_of_advance_eq (hother.symm.trans hsecond) hsame
    · rw [htokens, hfault, hposition, Position.advance_append]
      rfl

/-- A tag that spans two lines is followed by a template with a tag that is not closed, and by one
that begins with a brace. -/
theorem tokenize_append_unclosed :
    let found : List Token := [.text "a", .tagOpen, .piece (.word "x" none)]
    tokenize "a\x7b\x7bx\n\x7d\x7d" = .ok (found ++ [.tagClose]) ∧
      tokenize ("a\x7b\x7bx\n\x7d\x7d" ++ "\x7db") =
        .ok (found ++ [.tagClose] ++ [.text "\x7db"]) ∧
      tokenize ("a\x7b\x7bx\n\x7d\x7d" ++ "b\x7b\x7b") =
        .error (.lex ⟨2, 4⟩ .unterminatedExpression) := by
  intro found
  have hfirst : tokenize "a\x7b\x7bx\n\x7d\x7d" = .ok (found ++ [.tagClose]) := by
    rw [tokenize]
    iterate 4 rw [Scanner.tokens_of_next rfl]
    rw [Scanner.tokens_nil rfl rfl]
    rfl
  have htext : tokenize "\x7db" = .ok [.text "\x7db"] := by
    rw [tokenize, Scanner.tokens_of_next rfl, Scanner.tokens_nil rfl rfl]
    rfl
  have hopen : tokenize "b\x7b\x7b" = .error (.lex ⟨1, 2⟩ .unterminatedExpression) := by
    rw [tokenize]
    iterate 2 rw [Scanner.tokens_of_next rfl]
    rw [Scanner.tokens_of_next_error rfl]
    rfl
  refine ⟨hfirst, ((tokenize_append hfirst).1 _).2 ⟨_, htext, rfl⟩, ?_⟩
  obtain ⟨before, left, fault, -, herror, hplace, hboth⟩ := (tokenize_append hfirst).2 _ hopen
  obtain ⟨hposition, rfl⟩ := Error.lex.inj herror
  obtain rfl := hplace ['b'] ['\x7b', '\x7b'] rfl hposition
  exact hboth

end BraceTemplate
