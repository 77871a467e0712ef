import BraceTemplate.Proofs.Scanning.Concatenation

/-!
# Calls one after the other

A scanner can be called any number of times, also after it has failed. `GoesOn` is what every call but
one that opens a tag leaves as it was, and `Failure` is what a call that fails leaves. From both follows
which answers stay, what calls do after a comment without an end, and that errors are inside of tags.
-/

namespace BraceTemplate

namespace Scanner

/-- The scanner after a number of calls. -/
def after (s : Scanner) : Nat → Scanner
  | 0 => s
  | n + 1 => (s.after n).next.2

/-- The answer to the call after the given number of calls. -/
def answer (s : Scanner) (n : Nat) : Except Error (Option Token) :=
  (s.after n).next.1

variable {s t u : Scanner}

/-! ## What calls leave as it was -/

/-- A scanner has gone on in its text without opening a tag. -/
structure GoesOn (s t : Scanner) : Prop where
  rest : t.rest <:+ s.rest
  tagStart : t.tagStart = s.tagStart
  inTag : s.inTag = false → t.inTag = false
  atHead : s.atHead = false → t.atHead = false

namespace GoesOn

theorem refl (s : Scanner) : GoesOn s s :=
  ⟨List.suffix_refl _, rfl, id, id⟩

theorem trans (h : GoesOn s t) (hlater : GoesOn t u) : GoesOn s u where
  rest := hlater.rest.trans h.rest
  tagStart := hlater.tagStart.trans h.tagStart
  inTag := hlater.inTag ∘ h.inTag
  atHead := hlater.atHead ∘ h.atHead

theorem pass (h : GoesOn s t) (count : Nat) : GoesOn s (t.pass count) :=
  { h with rest := (List.drop_suffix count t.rest).trans h.rest }

theorem head (h : GoesOn s t) : GoesOn s { t with atHead := false } :=
  { h with atHead := fun _ => rfl }

theorem close (h : GoesOn s t) : GoesOn s { t with inTag := false } :=
  { h with inTag := fun _ => rfl }

theorem nextComment (h : GoesOn s t) (cs : List Char) : GoesOn s (t.nextComment cs).2 := by
  rw [Scanner.nextComment]
  cases commentBody? cs with
  | ok body => exact h.head.pass _
  | error fault => exact h.head

theorem nextString (h : GoesOn s t) (quote : Char) (cs : List Char) :
    GoesOn s (t.nextString quote cs).2 := by
  rw [Scanner.nextString]
  cases quotedString? quote cs with
  | some value => exact h.head.pass _
  | none => exact h.head

theorem nextSigil (h : GoesOn s t) (sigil : Sigil) : GoesOn s (t.nextSigil sigil).2 := by
  have hpassed := ((h.pass 1).pass ((t.pass 1).rest.takeWhile Text.isWhiteSpace).length).head
  rw [Scanner.nextSigil]
  split
  · exact hpassed
  · exact hpassed.pass _

theorem nextPiece (h : GoesOn s t) : GoesOn s t.nextPiece.2 := by
  rw [Scanner.nextPiece]
  split
  · exact h
  · split
    · exact (h.pass 2).close
    · split
      · exact h.nextString _ _
      · split
        · exact h.nextSigil _
        · exact h.head.pass _

theorem nextInTag (s : Scanner) : GoesOn s s.nextInTag.2 := by
  rw [Scanner.nextInTag]
  split
  · exact (refl s).nextComment _
  · exact ((refl s).pass _).nextPiece

end GoesOn

/-- What a call outside of a tag answers, and the scanner that it leaves. -/
inductive TextStep (s : Scanner) : Step → Prop
  | tagOpen (hopen : openBraces <+: s.rest) :
      TextStep s (.ok (some .tagOpen),
        { s.pass 2 with inTag := true, tagStart := s.position, atHead := true })
  | text (content : List Char) (hcontent : content <+: s.rest) :
      TextStep s (.ok (some (.text (String.ofList content))), s.pass content.length)
  | ended (hrest : s.rest = []) : TextStep s (.ok none, s)

theorem textStep_next (hin : s.inTag = false) : TextStep s s.next := by
  rw [next_of_inText hin, nextInText]
  split
  · next cut hsplit =>
    obtain ⟨hrest, hopen⟩ := Text.splitAtMarker_eq_some hsplit
    exact .tagOpen (hrest ▸ hopen)
  · next first before cut hsplit =>
    obtain ⟨hrest, -⟩ := Text.splitAtMarker_eq_some hsplit
    exact .text (first :: before) ⟨_, hrest⟩
  · split
    · next hempty => exact .ended (List.isEmpty_iff.1 hempty)
    · exact .text s.rest (List.prefix_refl _)

/-- Opening braces are given outside of a tag, and begin a new one. -/
theorem next_of_tagOpen (h : s.next.1 = .ok (some .tagOpen)) :
    openBraces <+: s.rest ∧
      s.next.2 = { s.pass 2 with inTag := true, tagStart := s.position, atHead := true } := by
  by_cases hin : s.inTag = true
  · have hstep := tagStep_next hin
    generalize s.next = step at h hstep
    cases hstep <;> cases h
  · have hstep := textStep_next (Bool.eq_false_iff.2 hin)
    generalize s.next = step at h hstep ⊢
    cases hstep with
    | tagOpen hopen => exact ⟨hopen, rfl⟩
    | text _ _ => cases h
    | ended _ => cases h

/-- All other calls go on in the text. -/
theorem goesOn_next (h : s.next.1 ≠ .ok (some .tagOpen)) : GoesOn s s.next.2 := by
  by_cases hin : s.inTag = true
  · rw [next_of_inTag hin]
    exact .nextInTag s
  · have hstep := textStep_next (Bool.eq_false_iff.2 hin)
    generalize s.next = step at h hstep ⊢
    cases hstep with
    | tagOpen _ => exact absurd rfl h
    | text _ _ => exact (GoesOn.refl s).pass _
    | ended _ => exact .refl s

/-- No call goes back. -/
theorem rest_next_suffix (s : Scanner) : s.next.2.rest <:+ s.rest := by
  by_cases h : s.next.1 = .ok (some .tagOpen)
  · rw [(next_of_tagOpen h).2]
    exact List.drop_suffix 2 s.rest
  · exact (goesOn_next h).rest

/-! ## What calls that fail leave -/

/-- Why a call fails, and the scanner that it leaves: at a comment without an end, which is not passed,
at the quote of a string without an end, or at the end of the text. -/
inductive Failure (s : Scanner) : LexFault → Scanner → Prop
  | comment {cs : List Char} {fault : LexFault} (hhead : s.atHead = true)
      (hrest : s.rest = '!' :: cs) (hfault : fault ≠ .unterminatedString) :
      Failure s fault { s with atHead := false }
  | string {t : Scanner} {quote : Char} {cs : List Char} (hin : t.inTag = true)
      (hhead : t.atHead = false) (hrest : t.rest = quote :: cs)
      (hquote : quote = '"' ∨ quote = '\'') (hvalue : quotedString? quote cs = none) :
      Failure s .unterminatedString t
  | ended {t : Scanner} (hin : t.inTag = true) (hrest : t.rest = []) :
      Failure s .unterminatedExpression t

theorem commentBody?_ne_unterminatedString {cs : List Char} {fault : LexFault}
    (h : commentBody? cs = .error fault) : fault ≠ .unterminatedString := by
  rw [commentBody?.eq_def] at h
  split at h <;> split at h <;> cases h <;> exact LexFault.noConfusion

theorem failure_nextComment {cs : List Char} {error : Error} (hhead : s.atHead = true)
    (hrest : s.rest = '!' :: cs) (h : s.nextComment cs = (.error error, t)) :
    ∃ fault, Failure s fault t ∧ error = s.fault fault := by
  rw [nextComment] at h
  cases hbody : commentBody? cs with
  | ok body =>
    rw [hbody] at h
    cases h
  | error fault =>
    rw [hbody] at h
    cases h
    exact ⟨fault, .comment hhead hrest (commentBody?_ne_unterminatedString hbody), rfl⟩

/-- A piece fails at the end of the template or in a string that is not closed. -/
theorem failure_nextPiece {error : Error} (hin : u.inTag = true)
    (h : u.nextPiece = (.error error, t)) :
    ∃ fault, Failure s fault t ∧ error = u.fault fault := by
  rw [nextPiece] at h
  split at h
  · next hrest =>
    cases h
    exact ⟨_, .ended hin hrest, rfl⟩
  · next first cs hrest =>
    split at h
    · cases h
    · split at h
      · next hquote =>
        rw [nextString] at h
        cases hvalue : quotedString? first cs with
        | some value =>
          rw [hvalue] at h
          cases h
        | none =>
          rw [hvalue] at h
          cases h
          exact ⟨_, .string hin rfl hrest hquote hvalue, rfl⟩
      · split at h
        -- Behind a sigil the end of the template is an error; a word may be empty.
        · rw [nextSigil] at h
          split at h
          · next hempty =>
            cases h
            exact ⟨_, .ended hin (List.isEmpty_iff.1 hempty), rfl⟩
          · cases h
        · cases h

/-- A call fails inside a tag, for one of the three reasons. -/
theorem failure_next {error : Error} (h : s.next = (.error error, t)) :
    s.inTag = true ∧ ∃ fault, Failure s fault t ∧ error = s.fault fault := by
  by_cases hin : s.inTag = true
  · refine ⟨hin, ?_⟩
    rw [next_of_inTag hin, nextInTag] at h
    split at h
    · next cs hhead hrest => exact failure_nextComment hhead hrest h
    · exact failure_nextPiece (u := s.passSpace) hin h
  · have hstep := textStep_next (Bool.eq_false_iff.2 hin)
    rw [h] at hstep
    cases hstep

/-! ## Answers that stay -/

/-- At a string without an end, a call fails and leaves the scanner as it is. -/
theorem next_of_openString {quote : Char} {cs : List Char} (hin : s.inTag = true)
    (hhead : s.atHead = false) (hrest : s.rest = quote :: cs) (hquote : quote = '"' ∨ quote = '\'')
    (hvalue : quotedString? quote cs = none) :
    s.next = (.error (s.fault .unterminatedString), s) := by
  obtain ⟨hspace, hmark⟩ := start_of_quote hquote
  obtain ⟨hnext, -⟩ :=
    @nextInTag_of_space s [] cs quote Text.isSpace_nil hspace hrest fun _ _ => hmark
  have hself : { s with atHead := false } = s := by rw [← hhead]
  rw [next_of_inTag hin, hnext, show s.pass ([] : List Char).length = s from rfl,
    nextPiece_quote hrest hquote, nextString, hvalue, hself]

/-- At the end of the text, a call inside a tag fails and leaves the scanner as it is. -/
theorem next_of_ended (hin : s.inTag = true) (hrest : s.rest = []) :
    s.next = (.error (s.fault .unterminatedExpression), s) := by
  have hmark : s.atHead = true → ∀ cs, s.rest ≠ '!' :: cs := by
    rintro - cs heq
    rw [hrest] at heq
    cases heq
  have hpass : s.passSpace = s := by
    rw [passSpace, hrest]
    rfl
  rw [next_of_inTag hin, nextInTag_eq hmark, hpass, nextPiece, hrest]

/-- At the end of a template, a call leaves the scanner as it is. -/
theorem next_of_none (h : s.next.1 = .ok none) : s.next = (.ok none, s) := by
  by_cases hin : s.inTag = true
  · have hstep := tagStep_next hin
    generalize s.next = step at h hstep
    cases hstep <;> cases h
  · have hstep := textStep_next (Bool.eq_false_iff.2 hin)
    generalize s.next = step at h hstep ⊢
    cases hstep with
    | tagOpen _ => cases h
    | text _ _ => cases h
    | ended _ => rfl

/-- A call that fails keeps the tag that it is in. -/
theorem tagStart_of_error {error : Error} (h : s.next = (.error error, t)) :
    t.tagStart = s.tagStart := by
  have hstep : GoesOn s s.next.2 := goesOn_next (by rw [h]; nofun)
  rw [h] at hstep
  exact hstep.tagStart

/-- A string without an end is met again. -/
theorem next_of_unterminatedString {position : Position}
    (h : s.next = (.error (.lex position .unterminatedString), t)) :
    t.next = (.error (.lex position .unterminatedString), t) := by
  obtain ⟨-, fault, hfailure, herror⟩ := failure_next h
  rw [herror, Scanner.fault, ← tagStart_of_error h]
  cases herror
  cases hfailure with
  | comment _ _ hfault => exact absurd rfl hfault
  | string hin hhead hrest hquote hvalue => exact next_of_openString hin hhead hrest hquote hvalue

/-- The end of the text is met again. -/
theorem next_of_unterminatedExpression {position : Position}
    (h : s.next = (.error (.lex position .unterminatedExpression), t)) (hend : t.rest = []) :
    t.next = (.error (.lex position .unterminatedExpression), t) := by
  obtain ⟨-, fault, hfailure, herror⟩ := failure_next h
  rw [herror, Scanner.fault, ← tagStart_of_error h]
  cases herror
  cases hfailure with
  | comment _ hrest _ =>
    rw [hrest] at hend
    cases hend
  | ended hin hrest => exact next_of_ended hin hrest

theorem after_add (s : Scanner) (n m : Nat) : s.after (n + m) = (s.after n).after m := by
  induction m with
  | zero => rfl
  | succ m ih => rw [← Nat.add_assoc, after, after, ih]

theorem after_of_next_eq (h : s.next.2 = s) (n : Nat) : s.after n = s := by
  induction n with
  | zero => rfl
  | succ n ih => rw [after, ih, h]

/-- If the next call would be answered alike and changes nothing more, then so are all later calls. -/
theorem answer_of_stays {n : Nat}
    (h : (s.after (n + 1)).next = (s.answer n, s.after (n + 1))) {m : Nat} (hm : n ≤ m) :
    s.answer m = s.answer n := by
  obtain ⟨k, rfl⟩ := Nat.exists_eq_add_of_le hm
  cases k with
  | zero => rfl
  | succ k =>
    have hstays : (s.after (n + 1)).after k = s.after (n + 1) :=
      after_of_next_eq (congrArg Prod.snd h) k
    rw [answer, Nat.add_comm k 1, ← Nat.add_assoc, after_add, hstays, h]

/-- A string without an end is met again by every call. -/
theorem answer_of_unterminatedString {n m : Nat} {position : Position}
    (h : s.answer n = .error (.lex position .unterminatedString)) (hm : n ≤ m) :
    s.answer m = s.answer n := by
  refine answer_of_stays ?_ hm
  rw [h]
  exact next_of_unterminatedString (Prod.ext h rfl)

/-- The end of the text inside a tag is met again by every call. -/
theorem answer_of_unterminatedExpression {n m : Nat} {position : Position}
    (h : s.answer n = .error (.lex position .unterminatedExpression))
    (hend : (s.after (n + 1)).rest = []) (hm : n ≤ m) : s.answer m = s.answer n := by
  refine answer_of_stays ?_ hm
  rw [h]
  exact next_of_unterminatedExpression (Prod.ext h rfl) hend

/-- The end of the text outside of a tag is met again by every call. -/
theorem answer_of_none {n m : Nat} (h : s.answer n = .ok none) (hm : n ≤ m) :
    s.answer m = .ok none := by
  have hnext : (s.after n).next = (.ok none, s.after n) := next_of_none h
  rw [← h]
  refine answer_of_stays ?_ hm
  rw [after, h, hnext, hnext]

/-! ## Calls in the same tag -/

/-- Between two calls without an opening tag the scanner goes on in its tag. -/
theorem goesOn_after {n k : Nat} (hle : k ≤ n)
    (h : ∀ j, k ≤ j → j < n → s.answer j ≠ .ok (some .tagOpen)) :
    GoesOn (s.after k) (s.after n) := by
  induction n, hle using Nat.le_induction with
  | base => exact .refl _
  | succ n hkn ih =>
    have hbefore := ih fun j hkj hj => h j hkj (Nat.lt_succ_of_lt hj)
    exact hbefore.trans (goesOn_next (h n hkn (Nat.lt_succ_self n)))

/-! ## Comments without an end -/

/-- A call fails because the comment that begins at the head of a tag has no end. -/
def FailsInComment (s : Scanner) (n : Nat) : Prop :=
  (s.after n).inTag = true ∧ (s.after n).atHead = true ∧ ['!'] <+: (s.after n).rest ∧
    ∃ error, s.answer n = .error error

/-- A comment without an end is not passed. -/
theorem after_of_failsInComment {n : Nat} (h : s.FailsInComment n) :
    s.after (n + 1) = { s.after n with atHead := false } := by
  obtain ⟨hin, hhead, ⟨cs, hrest⟩, error, herror⟩ := h
  have hnext : (s.after n).next = (s.after n).nextComment cs := by
    rw [next_of_inTag hin, nextInTag, hhead, ← hrest]
    rfl
  rw [answer, hnext, nextComment] at herror
  rw [after, hnext, nextComment]
  cases hbody : commentBody? cs with
  | ok body =>
    rw [hbody] at herror
    cases herror
  | error fault => rfl

/-- The exclamation mark of a comment without an end is read as the beginning of a word. -/
theorem answer_of_failsInComment {n : Nat} (h : s.FailsInComment n) :
    ∃ word, s.answer (n + 1) = .ok (some (.piece (.word (String.ofList ('!' :: word)) none))) := by
  obtain ⟨hin, -, ⟨cs, hrest⟩, -⟩ := id h
  have hafter := after_of_failsInComment h
  have hword : wordLength ('!' :: (cs.take (wordLength cs) ++ cs.drop (wordLength cs))) =
      ('!' :: cs.take (wordLength cs)).length := by
    rw [List.take_append_drop, List.length_cons, List.length_take, Nat.min_eq_left (wordLength_le cs)]
    rfl
  have hpiece : PieceText false ('!' :: cs.take (wordLength cs)) (cs.drop (wordLength cs))
      (.word (String.ofList ('!' :: cs.take (wordLength cs)))
        (pathSigil ('!' :: cs.take (wordLength cs)))) :=
    PieceText.word Text.isSpace_nil (by decide) nofun hword
  have hsplit : (s.after (n + 1)).rest =
      '!' :: cs.take (wordLength cs) ++ cs.drop (wordLength cs) := by
    rw [hafter, List.cons_append, List.take_append_drop]
    exact hrest.symm
  refine ⟨cs.take (wordLength cs), ?_⟩
  rw [answer, next_of_pieceText (by rw [hafter]; exact hin) (by rw [hafter]) hsplit hpiece]
  rfl

/-- After a comment without an end its tag is no longer at its head. -/
theorem atHead_of_failsInComment {n m : Nat} (h : s.FailsInComment n) (hm : n < m)
    (hopen : ∀ k, n < k → k < m → s.answer k ≠ .ok (some .tagOpen)) :
    (s.after m).atHead = false := by
  have hafter : GoesOn (s.after (n + 1)) (s.after m) := goesOn_after hm fun k hk => hopen k hk
  refine hafter.atHead ?_
  rw [after_of_failsInComment h]

/-- Two comments without an end are in two tags. -/
theorem exists_tagOpen_of_failsInComment {n m : Nat} (h : s.FailsInComment n)
    (hlater : s.FailsInComment m) (hm : n < m) :
    ∃ k, n < k ∧ k < m ∧ s.answer k = .ok (some .tagOpen) := by
  by_contra hnone
  have hhead := atHead_of_failsInComment h hm fun k hnk hkm hopen => hnone ⟨k, hnk, hkm, hopen⟩
  rw [hlater.2.1] at hhead
  cases hhead

/-- A piece is read from the text that a call passes. -/
theorem pieceText_of_answer {n : Nat} {piece : Piece} (h : s.answer n = .ok (some (.piece piece))) :
    ∃ cs, (s.after n).rest = cs ++ (s.after (n + 1)).rest ∧
      PieceText (s.after n).atHead cs (s.after (n + 1)).rest piece := by
  rw [answer] at h
  rw [after]
  by_cases hin : (s.after n).inTag = true
  · have hstep := tagStep_next hin
    generalize (s.after n).next = step at h hstep
    cases hstep with
    | @piece cs left piece hrest hpiece =>
      cases h
      have hleft : ((s.after n).pass cs.length).rest = left := by
        rw [rest_pass, hrest, List.drop_left]
      exact ⟨cs, by rw [hleft]; exact hrest, by rw [hleft]; exact hpiece⟩
    | close _ _ => cases h
    | fault _ _ => cases h
  · have hstep := textStep_next (Bool.eq_false_iff.2 hin)
    generalize (s.after n).next = step at h hstep
    cases hstep <;> cases h

/-- A call fails at a comment without an end, at a string without an end, or at the end of the
text. -/
theorem failsInComment_or {n : Nat} {error : Error} (h : s.answer n = .error error) :
    s.FailsInComment n ∨ error = (s.after n).fault .unterminatedString ∨
      error = (s.after n).fault .unterminatedExpression ∧ (s.after (n + 1)).rest = [] := by
  have hnext : (s.after n).next = (.error error, s.after (n + 1)) := Prod.ext h rfl
  obtain ⟨hin, fault, hfailure, rfl⟩ := failure_next hnext
  generalize s.after (n + 1) = t at hfailure
  cases hfailure with
  | comment hhead hrest _ => exact .inl ⟨hin, hhead, ⟨_, hrest.symm⟩, _, h⟩
  | string _ _ _ _ _ => exact .inr (.inl rfl)
  | ended _ hrest => exact .inr (.inr ⟨rfl, hrest⟩)

/-! ## The last tag -/

/-- The call that opened the tag which is the last one before another call. -/
def IsLastOpening (s : Scanner) (n k : Nat) : Prop :=
  k < n ∧ s.answer k = .ok (some .tagOpen) ∧
    ∀ j, k < j → j < n → s.answer j ≠ .ok (some .tagOpen)

/-- A tag is remembered by the position of its opening braces. -/
theorem tagStart_of_isLastOpening {n k : Nat} (h : s.IsLastOpening n k) :
    (s.after n).tagStart = (s.after k).position := by
  obtain ⟨hkn, hopen, hbetween⟩ := h
  have hafter := goesOn_after (s := s) (Nat.succ_le_of_lt hkn) fun j hkj => hbetween j hkj
  rw [hafter.tagStart, after, (next_of_tagOpen hopen).2]

/-- Inside a tag there is a call that opened it. -/
theorem exists_isLastOpening {n : Nat} (hout : s.inTag = false) (hin : (s.after n).inTag = true) :
    ∃ k, s.IsLastOpening n k := by
  induction n with
  | zero =>
    rw [after, hout] at hin
    cases hin
  | succ n ih =>
    by_cases hopen : s.answer n = .ok (some .tagOpen)
    · exact ⟨n, Nat.lt_succ_self n, hopen, fun j hnj hj => by omega⟩
    · have hbefore : (s.after n).inTag = true := by
        by_contra hnot
        have := (goesOn_next hopen).inTag (Bool.eq_false_iff.2 hnot)
        rw [after, this] at hin
        cases hin
      obtain ⟨k, hk, hanswer, hbetween⟩ := ih hbefore
      refine ⟨k, Nat.lt_succ_of_lt hk, hanswer, fun j hkj hj => ?_⟩
      rcases Nat.lt_succ_iff_lt_or_eq.1 hj with hj | rfl
      · exact hbetween j hkj hj
      · exact hopen

/-! ## Counting tokens -/

def isToken : Except Error (Option Token) → Bool
  | .ok (some _) => true
  | _ => false

/-- The number of tokens that the given number of calls gives. -/
def tokenCount (s : Scanner) (n : Nat) : Nat :=
  (List.range n).countP fun k => isToken (s.answer k)

theorem tokenCount_succ (s : Scanner) (n : Nat) :
    s.tokenCount (n + 1) = s.tokenCount n + if isToken (s.answer n) then 1 else 0 := by
  rw [tokenCount, List.range_succ, List.countP_append, List.countP_singleton, tokenCount]

end Scanner

end BraceTemplate
