import BraceTemplate.Proofs.Joining.Templates

/-!
# What comes after a line

A template that ends with a line and can be scanned on its own is scanned in the same way whatever
comes after it, and what comes after it is scanned as if it stood alone. `exists_kept_of_line` says
so of the parts of both, and what is left of them when the lines of tags are taken away.
-/

namespace BraceTemplate

open Scanner (openBraces)

namespace Scanner

/-- The parts before a text are scanned in the same way whatever the text goes on with. -/
theorem exists_tokens_of_line {init : List Part} {line cs : List Char}
    (h : Layout (init ++ [.text line])) {s : Scanner} (hout : s.inTag = false)
    (hrest : s.rest = init.flatMap Part.source ++ cs) :
    ∃ s' : Scanner, s'.inTag = false ∧ s'.rest = cs ∧
      s.tokens = s'.tokens.map (init.flatMap Part.tokens ++ ·) := by
  induction init generalizing s with
  | nil =>
    refine ⟨s, hout, hrest, ?_⟩
    cases s.tokens <;> rfl
  | cons part init ih =>
    cases part with
    | text content =>
      -- A tag comes next, so the text ends where it did.
      have hnext :
          s.next = (.ok (some (.text (String.ofList content))), s.pass content.length) := by
        cases init with
        | nil => cases h
        | cons next init =>
          cases h with
          | text hne hbraces =>
            rw [List.flatMap_cons, Part.source, List.flatMap_cons, Part.source] at hrest
            simp only [List.append_assoc] at hrest
            exact next_of_text hout hne hrest (.inl (splitAtMarker_openBraces hbraces))
      have hpass : (s.pass content.length).rest = init.flatMap Part.source ++ cs := by
        rw [rest_pass, hrest, List.flatMap_cons, Part.source, List.append_assoc, List.drop_left]
      obtain ⟨s', hout', hrest', htokens⟩ := ih h.tail (s := s.pass content.length) hout hpass
      refine ⟨s', hout', hrest', ?_⟩
      rw [tokens_of_next hnext, htokens, Results.map_map]
      rfl
    | tag body pieces =>
      rw [List.flatMap_cons, Part.source, List.append_assoc, List.append_assoc] at hrest
      rw [tokens_of_next (next_of_open hout hrest)]
      generalize ht : ({ s.pass 2 with inTag := true, tagStart := s.position, atHead := true } :
        Scanner) = t
      have htrest : t.rest = body ++ (init.flatMap Part.source ++ cs) := by
        rw [← ht]
        exact congrArg (List.drop 2) hrest
      cases h with
      | tag hbody hparts =>
        obtain ⟨atHead', htokens⟩ :=
          hbody.tokens_eq (s := t) (by rw [← ht]) (by rw [← ht]) htrest
        have hafter : (t.leaveTag body.length atHead').rest = init.flatMap Part.source ++ cs := by
          rw [rest_leaveTag, htrest, List.drop_left]
        obtain ⟨s', hout', hrest', hlater⟩ :=
          ih hparts (s := t.leaveTag body.length atHead') rfl hafter
        refine ⟨s', hout', hrest', ?_⟩
        rw [htokens, hlater, Results.map_map, Results.map_map, List.flatMap_cons, Part.tokens]
        apply congrArg (fun f => s'.tokens.map f)
        funext later
        simp [tagTokens_append]

end Scanner

/-! ## The line and what comes after it -/

/-- No line has the braces of a tag at its start. -/
theorem line_append_ne_open {line cs after : List Char} (hend : line.getLast? = some '\n')
    (hbraces : ¬ openBraces <:+: line) : line ++ cs ≠ openBraces ++ after := by
  intro heq
  match line, hend, hbraces, heq with
  | [_], hend, _, heq =>
    cases hend
    cases heq
  | first :: next :: line, _, hbraces, heq =>
    simp only [openBraces, List.cons_append, List.cons.injEq] at heq
    obtain ⟨rfl, rfl, -⟩ := heq
    exact hbraces (List.prefix_append openBraces line).isInfix

/-- What comes after a line can be scanned on its own. -/
theorem exists_layout_after_line {line cs : List Char} {parts : List Part}
    (hend : line.getLast? = some '\n') (hbraces : ¬ openBraces <:+: line) (h : Layout parts)
    (hsource : parts.flatMap Part.source = line ++ cs) :
    ∃ rest, Layout rest ∧ rest.flatMap Part.source = cs := by
  cases h with
  | nil =>
    rw [(List.append_eq_nil_iff.1 hsource.symm).1] at hend
    cases hend
  | @lastText content hne hcontent =>
    obtain rfl : content = line ++ cs := (List.append_nil _).symm.trans hsource
    by_cases hcs : cs = []
    · exact ⟨[], .nil, hcs.symm⟩
    · have hinfix : cs <:+: line ++ cs := (List.suffix_append line cs).isInfix
      exact ⟨[.text cs], .lastText hcs fun hin => hcontent (hin.trans hinfix), List.append_nil _⟩
  | @text content body pieces parts hne hcontent h =>
    rw [List.flatMap_cons, Part.source] at hsource
    rcases List.append_eq_append_iff.1 hsource with ⟨rest, rfl, hcs⟩ | ⟨rest, rfl, hcs⟩
    · by_cases hrest : rest = []
      · subst hrest
        exact ⟨_, h, hcs⟩
      · -- The line would reach into the tag.
        rw [List.flatMap_cons, Part.source, List.append_assoc] at hcs
        rw [List.getLast?_append_of_ne_nil _ hrest] at hend
        have hinfix : rest <:+: content ++ rest := (List.suffix_append content rest).isInfix
        exact (line_append_ne_open hend (fun hin => hbraces (hin.trans hinfix)) hcs.symm).elim
    · by_cases hrest : rest = []
      · subst hrest
        exact ⟨_, h, hcs.symm⟩
      · rw [List.append_assoc] at hcontent
        have hinfix : rest ++ ['\x7b'] <:+: line ++ (rest ++ ['\x7b']) :=
          (List.suffix_append line _).isInfix
        refine ⟨_, .text hrest (fun hin => hcontent (hin.trans hinfix)) h, ?_⟩
        rw [List.flatMap_cons, Part.source, hcs]
  | @tag body pieces parts hbody h =>
    rw [List.flatMap_cons, Part.source, List.append_assoc] at hsource
    exact (line_append_ne_open hend hbraces hsource.symm).elim

/-- A template that ends with a line is scanned in the same way whatever template comes after it,
and the lines of its tags are taken away alike. What comes after it can be scanned on its own. -/
theorem exists_kept_of_line {first : String} {tokens : List Token}
    (h : tokenize first = .ok tokens) (hline : EndsLine first) :
    ∃ segments ending,
      (∀ second, Layout second → ∃ parts, Layout parts ∧
        parts.flatMap Part.source = first.toList ++ second.flatMap Part.source ∧
        strip [] false parts =
          segments ++ (textSegments (ending ++ leadingKept second) ++ afterKept second)) ∧
      ∀ parts cs, Layout parts → parts.flatMap Part.source = first.toList ++ cs →
        ∃ second, Layout second ∧ second.flatMap Part.source = cs := by
  rcases hline with rfl | hend
  · refine ⟨[], [], ?_, fun parts cs hparts hsource => ⟨parts, hparts, hsource⟩⟩
    exact fun second hsecond => ⟨second, hsecond, rfl, strip_afterText second⟩
  · obtain ⟨whole, hwhole, hsource, -⟩ := tokenize_eq_ok_iff.1 h
    obtain ⟨init, line, rfl, hlast⟩ := exists_lastText hwhole (hsource ▸ hend)
    obtain ⟨segments, ending, -, hseam⟩ := exists_seam hlast init
    -- The last text of the first template holds no opening braces, and its newline is no brace:
    -- no tag can begin across the seam.
    have hbraces : ¬ openBraces <:+: line := by
      cases hwhole.of_append with
      | lastText _ hbraces => exact hbraces
    rw [List.flatMap_append, List.flatMap_singleton, Part.source] at hsource
    refine ⟨segments, ending, ?_, ?_⟩
    · intro second hsecond
      refine ⟨_, layout_append hwhole (layout_line hlast hbraces hsecond), ?_, hseam second⟩
      rw [List.flatMap_append, List.flatMap_cons, Part.source, hsource, ← source_afterText second]
      simp only [List.append_assoc]
    · intro parts cs hparts hboth
      rw [hsource, List.append_assoc] at hboth
      -- Scanning the joined text passes the first template and stands at the second one.
      let scanner : Scanner := ⟨parts.flatMap Part.source, .start, false, .start, false⟩
      obtain ⟨s', hout, hrest, htokens⟩ :=
        Scanner.exists_tokens_of_line hwhole (s := scanner) rfl hboth
      rw [Scanner.tokens_of_layout hparts rfl rfl] at htokens
      obtain ⟨later, hlater, -⟩ := Results.map_eq_ok.1 htokens.symm
      obtain ⟨after, hafter, hsame, -⟩ := Scanner.exists_layout_of_tokens hout hlater
      exact exists_layout_after_line hlast hbraces hafter (hsame.symm.trans hrest)

end BraceTemplate
