import BraceTemplate.Token.Tokenize
import Mathlib.Data.List.Infix
import Mathlib.Data.List.TakeWhile

/-!
# What the readers of a tag look at

Words, strings and comments are read from the start of a text. `wordLength_append`,
`quotedString?_append` and `commentBody?_append` show that what comes after the reading does not
change it, and `splitAtMarker_append_eq_some_iff` says exactly where a marker is found.
-/

namespace BraceTemplate

namespace Text

/-! ## White space -/

/-- A run of white space. -/
def IsSpace (cs : List Char) : Prop := ∀ c ∈ cs, isWhiteSpace c = true

theorem isSpace_nil : IsSpace [] :=
  List.forall_mem_nil _

theorem isSpace_append {first second : List Char} (hfirst : IsSpace first)
    (hsecond : IsSpace second) : IsSpace (first ++ second) :=
  fun c hc => (List.mem_append.1 hc).elim (hfirst c) (hsecond c)

theorem takeWhile_isWhiteSpace_append {space cs : List Char} (hspace : IsSpace space)
    (hcs : skipSpace cs = cs) : (space ++ cs).takeWhile isWhiteSpace = space := by
  rw [List.takeWhile_append_of_pos hspace]
  cases cs with
  | nil => rw [List.takeWhile_nil, List.append_nil]
  | cons c cs =>
    have hc : isWhiteSpace c = false := skipSpace_eq_cons hcs
    rw [List.takeWhile_cons_of_neg (by simp [hc]), List.append_nil]

theorem skipSpace_append {space cs : List Char} (hspace : IsSpace space) :
    skipSpace (space ++ cs) = skipSpace cs :=
  List.dropWhile_append_of_pos hspace

theorem skipSpace_eq_self {c : Char} {cs : List Char} (hc : isWhiteSpace c = false) :
    skipSpace (c :: cs) = c :: cs := by
  rw [skipSpace, List.dropWhile_cons_of_neg (by simp [hc])]

/-- A text is the white space it begins with and what is left after skipping it. -/
theorem exists_space_append (cs : List Char) :
    ∃ space, IsSpace space ∧ cs = space ++ skipSpace cs :=
  ⟨cs.takeWhile isWhiteSpace, fun _ hc => List.mem_takeWhile_imp hc,
    List.takeWhile_append_dropWhile.symm⟩

theorem skipSpace_eq_nil {space : List Char} (hspace : IsSpace space) : skipSpace space = [] := by
  rw [← List.append_nil space, skipSpace_append hspace]
  rfl

theorem isSpace_reverse {space : List Char} (hspace : IsSpace space) : IsSpace space.reverse :=
  fun c hc => hspace c (List.mem_reverse.1 hc)

theorem infix_trim (cs : List Char) : trim cs <:+: cs := by
  rw [trim, ← List.reverse_infix, List.reverse_reverse]
  exact (skipSpace_suffix _).isInfix.trans (List.reverse_infix.2 (skipSpace_suffix cs).isInfix)

/-- Trimming a second time changes nothing. -/
theorem trim_trim (cs : List Char) : trim (trim cs) = trim cs := by
  have hstart : skipSpace (trim cs) = trim cs := by
    have hstarts : trim cs <+: skipSpace cs := by
      rw [trim, ← List.reverse_suffix, List.reverse_reverse]
      exact skipSpace_suffix _
    cases htrim : trim cs with
    | nil => rfl
    | cons c rest =>
      rw [htrim] at hstarts
      obtain ⟨after, hafter⟩ := hstarts
      exact skipSpace_eq_self (skipSpace_eq_cons hafter.symm)
  rw [trim, hstart]
  conv_lhs => rw [trim, List.reverse_reverse, skipSpace_skipSpace]
  rfl

/-- White space at either end does not matter to a trimmed text. -/
theorem trim_append {space cs after : List Char} (hspace : IsSpace space) (hafter : IsSpace after) :
    trim (space ++ cs ++ after) = trim cs := by
  have hskip : skipSpace (cs ++ after) =
      if (skipSpace cs).isEmpty then skipSpace after else skipSpace cs ++ after :=
    List.dropWhile_append
  rw [List.append_assoc, trim, skipSpace_append hspace, trim, hskip]
  split
  · next hempty => rw [List.isEmpty_iff.1 hempty, skipSpace_eq_nil hafter]
  · rw [List.reverse_append, skipSpace_append (isSpace_reverse hafter)]

/-! ## Markers -/

/-- A marker that reaches into what follows the text is found where it begins there. -/
private theorem prefix_cons_append_iff {marker rest : List Char} (hrest : marker <+: rest)
    (c : Char) (before : List Char) :
    marker <+: c :: (before ++ rest) ↔ marker <+: c :: (before ++ marker.dropLast) := by
  obtain ⟨after, rfl⟩ := hrest
  -- One character is there already, so the marker ends before the last one of what follows.
  have hlen : marker.length ≤ (c :: (before ++ marker.dropLast)).length := by
    simp only [List.length_cons, List.length_append, List.length_dropLast]
    omega
  have hshort : c :: (before ++ marker.dropLast) <+: c :: (before ++ (marker ++ after)) := by
    rw [List.cons_prefix_cons]
    refine ⟨rfl, (List.prefix_append_right_inj before).2 ?_⟩
    exact (List.dropLast_prefix marker).trans (List.prefix_append marker after)
  constructor
  · intro h
    exact List.prefix_of_prefix_length_le h hshort hlen
  · intro h
    exact h.trans hshort

/-- A text is cut before a marker exactly if the marker does not begin any earlier. -/
theorem splitAtMarker_append_eq_some_iff {marker before rest : List Char} (hne : marker ≠ []) :
    splitAtMarker marker (before ++ rest) = some (before, rest) ↔
      marker <+: rest ∧ ¬ marker <:+: before ++ marker.dropLast := by
  -- Behind the cut there is no room for a marker without its last character.
  have hshort : ¬ marker <:+: marker.dropLast := by
    intro h
    have hlen := h.length_le
    have := List.length_pos_iff.2 hne
    rw [List.length_dropLast] at hlen
    omega
  induction before with
  | nil =>
    cases rest with
    | nil =>
      simp [splitAtMarker, hne, hshort]
    | cons c rest =>
      rw [List.nil_append, List.nil_append, splitAtMarker]
      split
      · next hm => simp [List.isPrefixOf_iff_prefix.1 hm, hshort]
      · next hm =>
        have hnot : ¬ marker <+: c :: rest := fun h => hm (List.isPrefixOf_iff_prefix.2 h)
        simp [hnot]
  | cons c before ih =>
    rw [List.cons_append, List.cons_append, List.infix_cons_iff, splitAtMarker]
    by_cases hrest : marker <+: rest
    · have hiff := prefix_cons_append_iff hrest c before
      split
      · next hm =>
        have := hiff.1 (List.isPrefixOf_iff_prefix.1 hm)
        simp [this]
      · next hm =>
        have : ¬ marker <+: c :: (before ++ marker.dropLast) :=
          fun h => hm (List.isPrefixOf_iff_prefix.2 (hiff.2 h))
        simp only [this, false_or, ← ih]
        simp [Prod.ext_iff]
    · have hno : splitAtMarker marker (before ++ rest) ≠ some (before, rest) :=
        fun h => hrest (splitAtMarker_eq_some h).2
      split
      · simp [hrest]
      · simp only [hrest, false_and, iff_false]
        intro h
        obtain ⟨parts, hparts, heq⟩ := Option.map_eq_some_iff.1 h
        simp only [Prod.mk.injEq, List.cons.injEq, true_and] at heq
        exact hno (by rw [hparts, ← heq.1, ← heq.2])

/-- The first marker of a text is the first one of every text that goes on longer. -/
theorem splitAtMarker_append {marker cs before rest : List Char} (hne : marker ≠ [])
    (h : splitAtMarker marker cs = some (before, rest)) (extra : List Char) :
    splitAtMarker marker (cs ++ extra) = some (before, rest ++ extra) := by
  obtain ⟨rfl, -⟩ := splitAtMarker_eq_some h
  obtain ⟨hrest, hbefore⟩ := (splitAtMarker_append_eq_some_iff hne).1 h
  rw [List.append_assoc]
  exact (splitAtMarker_append_eq_some_iff hne).2 ⟨hrest.trans (List.prefix_append _ _), hbefore⟩

theorem not_mem_of_isWhiteSpace {marker : List Char} {d : Char}
    (hmarker : ∀ c ∈ marker, isWhiteSpace c = false) (hd : isWhiteSpace d = true) : d ∉ marker := by
  intro hmem
  rw [hmarker d hmem] at hd
  cases hd

/-- A marker does not reach over a character that is not in it. -/
theorem infix_of_append_cons {marker before after : List Char} {d : Char} (hd : d ∉ marker)
    (h : marker <:+: before ++ d :: after) : marker <:+: before ∨ marker <:+: after := by
  -- A marker that began before the character and went past it would contain it.
  have hstarts : ∀ {before : List Char}, marker <+: before ++ d :: after → marker <+: before := by
    intro before hlong
    rcases Nat.lt_or_ge before.length marker.length with hlt | hle
    · have hshort : before ++ [d] <+: before ++ d :: after :=
        (List.prefix_append_right_inj before).2 (List.prefix_append [d] after)
      have hreach : before ++ [d] <+: marker :=
        List.prefix_of_prefix_length_le hshort hlong (by simp; omega)
      exact absurd (hreach.subset (by simp)) hd
    · exact List.prefix_of_prefix_length_le hlong (List.prefix_append _ _) hle
  induction before with
  | nil =>
    rcases List.infix_cons_iff.1 h with hhead | hafter
    · exact .inl (hstarts hhead).isInfix
    · exact .inr hafter
  | cons c before ih =>
    rcases List.infix_cons_iff.1 h with hhead | htail
    · exact .inl (hstarts hhead).isInfix
    · exact (ih htail).imp_left fun hwithin => hwithin.trans (List.suffix_cons c before).isInfix

/-- A marker without white space does not begin before its first character. -/
theorem infix_of_space_append {marker space after : List Char} (hspace : IsSpace space)
    (hmarker : ∀ c ∈ marker, isWhiteSpace c = false) (h : marker <:+: space ++ after) :
    marker <:+: after := by
  induction space with
  | nil => exact h
  | cons d space ih =>
    have hd : d ∉ marker := not_mem_of_isWhiteSpace hmarker (hspace d List.mem_cons_self)
    have hcons : marker <:+: [] ++ d :: (space ++ after) := h
    rcases infix_of_append_cons hd hcons with hnil | hafter
    · rw [List.infix_nil] at hnil
      rw [hnil]
      exact ⟨[], after, rfl⟩
    · exact ih (fun c hc => hspace c (List.mem_cons_of_mem d hc)) hafter

/-- A marker without white space does not reach over white space. -/
theorem infix_of_append_space {marker before space after : List Char} (hspace : IsSpace space)
    (hne : space ≠ []) (hmarker : ∀ c ∈ marker, isWhiteSpace c = false)
    (h : marker <:+: before ++ (space ++ after)) : marker <:+: before ∨ marker <:+: after := by
  obtain ⟨d, space, rfl⟩ := List.exists_cons_of_ne_nil hne
  have hd : d ∉ marker := not_mem_of_isWhiteSpace hmarker (hspace d List.mem_cons_self)
  rcases infix_of_append_cons hd h with hbefore | hafter
  · exact .inl hbefore
  · have htail : IsSpace space := fun c hc => hspace c (List.mem_cons_of_mem d hc)
    exact .inr (infix_of_space_append htail hmarker hafter)

end Text

namespace Scanner

/-! ## Words -/

theorem isPrefixOf_closeBraces_append {cs : List Char} (hlen : 2 ≤ cs.length) (extra : List Char) :
    closeBraces.isPrefixOf (cs ++ extra) = closeBraces.isPrefixOf cs := by
  match cs, hlen with
  | a :: b :: cs, _ => simp [closeBraces, List.isPrefixOf]

/-- A word that ends within a text is the same if the text goes on longer. -/
theorem wordLength_append {cs : List Char} (h : wordLength cs < cs.length) (extra : List Char) :
    wordLength (cs ++ extra) = wordLength cs := by
  induction cs with
  | nil => simp at h
  | cons c cs ih =>
    rw [List.cons_append, wordLength, wordLength]
    rw [wordLength] at h
    by_cases hspace : Text.isWhiteSpace c = true
    · simp [hspace]
    -- Closing braces are two characters, so that the end of the text needs a look at both.
    · cases cs with
      | nil => simp [hspace, closeBraces, List.isPrefixOf, wordLength] at h
      | cons d cs =>
        have hsame : closeBraces.isPrefixOf (c :: d :: (cs ++ extra)) =
            closeBraces.isPrefixOf (c :: d :: cs) :=
          isPrefixOf_closeBraces_append (show 2 ≤ (c :: d :: cs).length by simp) extra
        rw [List.cons_append, hsame]
        split
        · rfl
        · next hstop =>
          rw [if_neg hstop] at h
          rw [← List.cons_append, ih (by simpa using h)]

/-- Two more characters are enough to tell where a word ends. -/
theorem wordLength_of_append {cs extra : List Char}
    (h : wordLength (cs ++ extra) + 2 ≤ cs.length) : wordLength cs = wordLength (cs ++ extra) := by
  induction cs with
  | nil => simp at h
  | cons c cs ih =>
    have hsame : closeBraces.isPrefixOf (c :: cs ++ extra) = closeBraces.isPrefixOf (c :: cs) :=
      isPrefixOf_closeBraces_append (by omega) extra
    rw [List.cons_append] at hsame h ⊢
    rw [wordLength, wordLength, hsame]
    rw [wordLength, hsame] at h
    split
    · rfl
    · next hstop =>
      rw [if_neg hstop, List.length_cons] at h
      rw [ih (by omega)]

/-- A word holds no white space. -/
theorem isWhiteSpace_of_mem_word {cs : List Char} {c : Char}
    (h : c ∈ cs.take (wordLength cs)) : Text.isWhiteSpace c = false := by
  induction cs with
  | nil => simp at h
  | cons d cs ih =>
    rw [wordLength] at h
    split at h
    · simp at h
    · next hstop =>
      rw [List.take_succ_cons] at h
      rcases List.mem_cons.1 h with rfl | hmem
      · simp only [Bool.or_eq_true, not_or, Bool.not_eq_true] at hstop
        exact hstop.1
      · exact ih hmem

/-- A word holds no closing braces. -/
theorem not_closeBraces_infix_word (cs : List Char) :
    ¬ closeBraces <:+: cs.take (wordLength cs) := by
  induction cs with
  | nil => simp [closeBraces]
  | cons d cs ih =>
    rw [wordLength]
    split
    · simp [closeBraces]
    · next hstop =>
      rw [List.take_succ_cons, List.infix_cons_iff, not_or]
      refine ⟨fun hpre => hstop ?_, ih⟩
      have hlong : closeBraces <+: d :: cs :=
        hpre.trans ((List.prefix_cons_inj d).2 (List.take_prefix _ cs))
      simp [List.isPrefixOf_iff_prefix.2 hlong]

/-! ## Strings -/

theorem quotedString?_quote (quote : Char) (cs : List Char) :
    quotedString? quote (quote :: cs) = some ([], 1) := by
  rw [quotedString?.eq_def]
  exact if_pos rfl

theorem quotedString?_escape {quote : Char} (hquote : ¬ '\\' = quote) (c : Char) (cs : List Char) :
    quotedString? quote ('\\' :: c :: cs) =
      (quotedString? quote cs).map fun (value, length) => (unescape c :: value, length + 2) := by
  rw [quotedString?.eq_def]
  simp only [if_neg hquote, if_true]

theorem quotedString?_char {quote c : Char} (hquote : ¬ c = quote) (hslash : ¬ c = '\\')
    (cs : List Char) :
    quotedString? quote (c :: cs) =
      (quotedString? quote cs).map fun (value, length) => (c :: value, length + 1) := by
  rw [quotedString?.eq_def]
  simp only [if_neg hquote, if_neg hslash]

theorem quotedString?_slash {quote : Char} (hquote : ¬ '\\' = quote) :
    quotedString? quote ['\\'] = none := by
  rw [quotedString?.eq_def]
  simp only [if_neg hquote, if_true]

/-- A string has at least its closing quote. -/
theorem quotedString?_pos {quote : Char} {cs value : List Char} {length : Nat}
    (h : quotedString? quote cs = some (value, length)) : 0 < length := by
  rw [quotedString?.eq_def] at h
  split at h
  · cases h
  · split at h
    · cases h
      exact Nat.one_pos
    · split at h
      · split at h
        · cases h
        · obtain ⟨parts, -, heq⟩ := Option.map_eq_some_iff.1 h
          cases heq
          exact Nat.succ_pos _
      · obtain ⟨parts, -, heq⟩ := Option.map_eq_some_iff.1 h
        cases heq
        exact Nat.succ_pos _

/-- A string that is closed within a text is the same if the text goes on longer. -/
theorem quotedString?_append {quote : Char} {cs value : List Char} {length : Nat}
    (h : quotedString? quote cs = some (value, length)) (extra : List Char) :
    quotedString? quote (cs ++ extra) = some (value, length) := by
  induction cs using quotedString?.induct quote generalizing value length with
  | case1 => cases h
  | case2 cs => rw [List.cons_append, quotedString?_quote, ← h, quotedString?_quote]
  | case3 hquote => rw [quotedString?_slash hquote] at h; cases h
  | case4 c cs hquote ih =>
    rw [quotedString?_escape hquote] at h
    obtain ⟨⟨rest, count⟩, hrest, heq⟩ := Option.map_eq_some_iff.1 h
    rw [List.cons_append, List.cons_append, quotedString?_escape hquote, ih hrest, Option.map_some,
      heq]
  | case5 c cs hquote hslash ih =>
    rw [quotedString?_char hquote hslash] at h
    obtain ⟨⟨rest, count⟩, hrest, heq⟩ := Option.map_eq_some_iff.1 h
    rw [List.cons_append, quotedString?_char hquote hslash, ih hrest, Option.map_some, heq]

/-- A string is closed within the text that it is read from. -/
theorem quotedString?_length_le {quote : Char} {cs value : List Char} {length : Nat}
    (h : quotedString? quote cs = some (value, length)) : length ≤ cs.length := by
  induction cs using quotedString?.induct quote generalizing value length with
  | case1 => cases h
  | case2 cs =>
    rw [quotedString?_quote] at h
    cases h
    simp
  | case3 hquote => rw [quotedString?_slash hquote] at h; cases h
  | case4 c cs hquote ih =>
    rw [quotedString?_escape hquote] at h
    obtain ⟨⟨rest, count⟩, hrest, heq⟩ := Option.map_eq_some_iff.1 h
    cases heq
    exact Nat.add_le_add_right (ih hrest) 2
  | case5 c cs hquote hslash ih =>
    rw [quotedString?_char hquote hslash] at h
    obtain ⟨⟨rest, count⟩, hrest, heq⟩ := Option.map_eq_some_iff.1 h
    cases heq
    exact Nat.add_le_add_right (ih hrest) 1

/-- What comes after the closing quote does not matter to a string. -/
theorem quotedString?_of_append {quote : Char} {cs extra value : List Char} {length : Nat}
    (h : quotedString? quote (cs ++ extra) = some (value, length)) (hlen : length ≤ cs.length) :
    quotedString? quote cs = some (value, length) := by
  induction cs using quotedString?.induct quote generalizing value length with
  | case1 =>
    cases extra with
    | nil => exact h
    | cons c extra =>
      rw [Nat.le_zero.1 hlen] at h
      exact absurd (quotedString?_pos h) (Nat.lt_irrefl 0)
  | case2 cs => rw [quotedString?_quote, ← h, List.cons_append, quotedString?_quote]
  -- A backslash at the very end would have taken its character from what is appended.
  | case3 hquote =>
    cases extra with
    | nil => exact h
    | cons c extra =>
      rw [List.singleton_append, quotedString?_escape hquote] at h
      obtain ⟨⟨rest, count⟩, hrest, heq⟩ := Option.map_eq_some_iff.1 h
      cases heq
      simp at hlen
  | case4 c cs hquote ih =>
    rw [List.cons_append, List.cons_append, quotedString?_escape hquote] at h
    obtain ⟨⟨rest, count⟩, hrest, heq⟩ := Option.map_eq_some_iff.1 h
    have hcount : count ≤ cs.length := by cases heq; simpa using hlen
    rw [quotedString?_escape hquote, ih hrest hcount, Option.map_some, heq]
  | case5 c cs hquote hslash ih =>
    rw [List.cons_append, quotedString?_char hquote hslash] at h
    obtain ⟨⟨rest, count⟩, hrest, heq⟩ := Option.map_eq_some_iff.1 h
    have hcount : count ≤ cs.length := by cases heq; simpa using hlen
    rw [quotedString?_char hquote hslash, ih hrest hcount, Option.map_some, heq]

/-! ## Comments -/

/-- The two forms of a comment: one that ends at the first closing braces, and one that begins
with two dashes and ends at two dashes and closing braces. -/
theorem commentBody?_eq_ok {cs body : List Char} {length : Nat}
    (h : commentBody? cs = .ok (body, length)) :
    (∃ rest, cs = '-' :: '-' :: (body ++ rest) ∧ length = body.length + 4 ∧
        Text.splitAtMarker longCommentEnd (body ++ rest) = some (body, rest)) ∨
      (∃ rest, cs = body ++ rest ∧ length = body.length ∧
        (∀ tail, cs ≠ '-' :: '-' :: tail) ∧
        Text.splitAtMarker closeBraces (body ++ rest) = some (body, rest)) := by
  rw [commentBody?.eq_def] at h
  split at h
  · next cs =>
    split at h
    · next before rest hsplit =>
      obtain ⟨rfl, rfl⟩ := by simpa using h
      obtain ⟨rfl, -⟩ := Text.splitAtMarker_eq_some hsplit
      exact .inl ⟨rest, rfl, rfl, hsplit⟩
    · cases h
  · next hshort =>
    split at h
    · next before rest hsplit =>
      obtain ⟨rfl, rfl⟩ := by simpa using h
      obtain ⟨rfl, -⟩ := Text.splitAtMarker_eq_some hsplit
      exact .inr ⟨rest, rfl, rfl, fun tail heq => hshort tail heq, hsplit⟩
    · cases h

/-- A comment that ends within a text is the same if the text goes on longer. -/
theorem commentBody?_append {cs body : List Char} {length : Nat}
    (h : commentBody? cs = .ok (body, length)) (extra : List Char) :
    commentBody? (cs ++ extra) = .ok (body, length) := by
  rcases commentBody?_eq_ok h with ⟨rest, rfl, rfl, hsplit⟩ | ⟨rest, rfl, rfl, hshort, hsplit⟩
  · have hlong := Text.splitAtMarker_append (by simp [longCommentEnd]) hsplit extra
    rw [List.cons_append, List.cons_append, commentBody?, hlong]
  · have hlong := Text.splitAtMarker_append (by simp [closeBraces]) hsplit extra
    -- No dashes come into being at the front: the body or its end is what stands there.
    have hdash : ∀ tail, body ++ rest ++ extra ≠ '-' :: '-' :: tail := by
      intro tail heq
      obtain ⟨after, rfl⟩ := (Text.splitAtMarker_eq_some hsplit).2
      match body, hshort, heq with
      | [], _, heq => simp [closeBraces] at heq
      | [_], _, heq => simp [closeBraces] at heq
      | a :: b :: body, hshort, heq =>
        simp only [List.cons_append, List.cons.injEq] at heq
        exact hshort (body ++ (closeBraces ++ after)) (by rw [heq.1, heq.2.1]; rfl)
    rw [commentBody?.eq_def]
    split
    · next tail heq => exact absurd heq (hdash tail)
    · rw [hlong]

/-- Closing braces come right after a comment. -/
theorem commentBody?_rest {cs body : List Char} {length : Nat}
    (h : commentBody? cs = .ok (body, length)) :
    length ≤ cs.length ∧ closeBraces <+: cs.drop length := by
  rcases commentBody?_eq_ok h with ⟨rest, rfl, rfl, hsplit⟩ | ⟨rest, rfl, rfl, -, hsplit⟩
  · obtain ⟨after, rfl⟩ := (Text.splitAtMarker_eq_some hsplit).2
    have hdrop : ('-' :: '-' :: (body ++ (longCommentEnd ++ after))).drop (body.length + 4) =
        closeBraces ++ after := by
      rw [List.drop_succ_cons, List.drop_succ_cons, List.drop_append,
        List.drop_of_length_le (by simp)]
      simp [longCommentEnd, closeBraces]
    refine ⟨?_, hdrop ▸ List.prefix_append _ _⟩
    simp [longCommentEnd]
  · obtain ⟨after, rfl⟩ := (Text.splitAtMarker_eq_some hsplit).2
    refine ⟨by simp, ?_⟩
    rw [List.drop_left]
    exact List.prefix_append _ _

/-- A marker with the text before it is found without what comes after it. -/
theorem splitAtMarker_of_append {marker before rest extra : List Char} (hne : marker ≠ [])
    (h : Text.splitAtMarker marker (before ++ (rest ++ extra)) = some (before, rest ++ extra))
    (hlen : marker.length ≤ rest.length) :
    Text.splitAtMarker marker (before ++ rest) = some (before, rest) := by
  obtain ⟨hrest, hbefore⟩ := (Text.splitAtMarker_append_eq_some_iff hne).1 h
  have hshort := List.prefix_of_prefix_length_le hrest (List.prefix_append rest extra) hlen
  exact (Text.splitAtMarker_append_eq_some_iff hne).2 ⟨hshort, hbefore⟩

/-- What comes after the closing braces does not matter to a comment. -/
theorem commentBody?_of_append {cs extra body : List Char} {length : Nat}
    (h : commentBody? (cs ++ extra) = .ok (body, length)) (hlen : length + 2 ≤ cs.length) :
    commentBody? cs = .ok (body, length) := by
  rcases commentBody?_eq_ok h with ⟨rest, hcs, rfl, hsplit⟩ | ⟨rest, hcs, rfl, hshort, hsplit⟩
  · have hlong : '-' :: '-' :: body <+: cs ++ extra := by
      rw [hcs]
      exact ⟨rest, rfl⟩
    -- The body ends inside of the first text, and so does the marker behind it.
    have hpre : '-' :: '-' :: body <+: cs := by
      apply List.prefix_of_prefix_length_le hlong (List.prefix_append cs extra)
      simp only [List.length_cons]
      omega
    obtain ⟨left, rfl⟩ := hpre
    have hrest : rest = left ++ extra := by simpa using hcs.symm
    rw [hrest] at hsplit
    have hfound := splitAtMarker_of_append (by simp [longCommentEnd]) hsplit
      (by simp [longCommentEnd] at hlen ⊢; omega)
    rw [List.cons_append, List.cons_append, commentBody?, hfound]
  · have hlong : body <+: cs ++ extra := by
      rw [hcs]
      exact ⟨rest, rfl⟩
    have hpre : body <+: cs :=
      List.prefix_of_prefix_length_le hlong (List.prefix_append cs extra) (by omega)
    obtain ⟨left, rfl⟩ := hpre
    have hrest : rest = left ++ extra := by simpa using hcs.symm
    rw [hrest] at hsplit
    have hfound := splitAtMarker_of_append (by simp [closeBraces]) hsplit
      (by simp [closeBraces] at hlen ⊢; omega)
    rw [commentBody?.eq_def]
    split
    · next tail heq => exact absurd (by rw [heq]; rfl) (hshort (tail ++ extra))
    · rw [hfound]

end Scanner

end BraceTemplate
