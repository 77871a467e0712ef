import BraceTemplate.Proofs.Scanning.Calls
import BraceTemplate.Proofs.Scanning.Cursor

/-!
# The progress of calls

The scanner of a template is called again and again, whatever it answers. `Cursor.after` is its place
by bytes after each of the calls, which `Cursor.tracks_after` says by induction on their number. With
what calls leave as it was, `calls_progress` tells how far calls get, which answers stay, and where
errors are.
-/

namespace BraceTemplate

open String (utf8Len)

namespace Cursor

open Scanner (openBraces)

/-! ## The bytes that calls pass -/

namespace Tracks

variable {template : List Char} {c d : Cursor} {s t : Scanner}

theorem offset_add (h : Tracks template c s) : c.offset + utf8Len s.rest = utf8Len template := by
  obtain ⟨passed, rfl, hbytes, -⟩ := h.place
  rw [String.utf8Len_append, hbytes]

/-- At the end of the text all bytes have been passed. -/
theorem rest_eq_nil_iff (h : Tracks template c s) :
    s.rest = [] ↔ c.offset = utf8Len template := by
  rw [← String.utf8Len_eq_zero, ← h.offset_add]
  omega

theorem isSome_splitAtByte? (h : Tracks template c s) :
    (Text.splitAtByte? c.offset template).isSome = true := by
  obtain ⟨passed, rfl, hbytes, -⟩ := h.place
  rw [← hbytes, Text.splitAtByte?_append]
  rfl

/-- Going on in a text takes the bytes of what is passed. -/
theorem offset_eq (h : Tracks template c s) (ht : Tracks template d t) {passed : List Char}
    (hrest : s.rest = passed ++ t.rest) : d.offset = c.offset + utf8Len passed := by
  have hbefore := h.offset_add
  have hafter := ht.offset_add
  rw [hrest, String.utf8Len_append] at hbefore
  omega

theorem offset_le (h : Tracks template c s) (ht : Tracks template d t) (hrest : t.rest <:+ s.rest) :
    c.offset ≤ d.offset := by
  obtain ⟨passed, hpassed⟩ := hrest
  have := h.offset_eq ht hpassed.symm
  omega

theorem offset_lt (h : Tracks template c s) (ht : Tracks template d t) (hrest : t.rest <:+ s.rest)
    (hlen : t.rest.length < s.rest.length) : c.offset < d.offset := by
  obtain ⟨passed, hpassed⟩ := hrest
  have hne : passed ≠ [] := by
    rintro rfl
    rw [← hpassed, List.nil_append] at hlen
    exact Nat.lt_irrefl _ hlen
  have hpos : utf8Len passed ≠ 0 := mt String.utf8Len_eq_zero.1 hne
  have := h.offset_eq ht hpassed.symm
  omega

/-- Positions that are the same are the same places. -/
theorem tagStart_eq_offset (h : Tracks template c s) (ht : Tracks template d t)
    (hposition : t.tagStart = s.position) : d.tagStart = c.offset := by
  obtain ⟨passed, hpassed, hoffset, hadvance⟩ := h.place
  obtain ⟨before, left, hbefore, hbytes, hstart⟩ := ht.opening
  have hsame : before = passed :=
    Position.eq_of_advance_eq (hbefore.symm.trans hpassed) (by rw [hstart, hadvance, hposition])
  rw [← hbytes, ← hoffset, hsame]

end Tracks

/-- The cursor after a number of calls. It would stay where a slice is missing. -/
def after (template : String) : Nat → Cursor
  | 0 => start
  | n + 1 => (((after template n).next? template.toList).map Prod.snd).getD (after template n)

variable (template : String)

theorem next?_of_tracks {n : Nat} (h : Tracks template.toList (after template n)
    ((Scanner.start template).after n)) :
    (after template n).next? template.toList =
        some ((Scanner.start template).answer n, after template (n + 1)) ∧
      Tracks template.toList (after template (n + 1))
        ((Scanner.start template).after (n + 1)) := by
  obtain ⟨c, hnext, htracks⟩ := follows_next h
  have hafter : after template (n + 1) = c := by
    rw [after, hnext]
    rfl
  rw [hafter]
  exact ⟨hnext, htracks⟩

/-- Cursor and scanner stay at the same place. -/
theorem tracks_after (n : Nat) :
    Tracks template.toList (after template n) ((Scanner.start template).after n) := by
  induction n with
  | zero => exact tracks_start template
  | succ n ih => exact (next?_of_tracks template ih).2

theorem next?_after (n : Nat) : (after template n).next? template.toList =
    some ((Scanner.start template).answer n, after template (n + 1)) :=
  (next?_of_tracks template (tracks_after template n)).1

theorem offset_after_le (n : Nat) :
    (after template n).offset ≤ (after template (n + 1)).offset :=
  (tracks_after template n).offset_le (tracks_after template (n + 1)) (Scanner.rest_next_suffix _)

/-- A call that gives a token passes at least one byte. -/
theorem offset_after_lt {n : Nat} {token : Token}
    (h : (Scanner.start template).answer n = .ok (some token)) :
    (after template n).offset < (after template (n + 1)).offset := by
  refine (tracks_after template n).offset_lt (tracks_after template (n + 1))
    (Scanner.rest_next_suffix _) ?_
  exact Scanner.shortens_next _ token _ (Prod.ext h rfl)

theorem offset_after_le_size (n : Nat) :
    (after template n).offset ≤ template.utf8ByteSize := by
  have := (tracks_after template n).offset_add
  rw [String.utf8Len_toList] at this
  omega

/-- There are no more tokens than bytes before the cursor. -/
theorem tokenCount_le_offset (n : Nat) :
    (Scanner.start template).tokenCount n ≤ (after template n).offset := by
  induction n with
  | zero => exact Nat.zero_le _
  | succ n ih =>
    rw [Scanner.tokenCount_succ]
    cases hanswer : (Scanner.start template).answer n with
    | error error => exact ih.trans (offset_after_le template n)
    | ok answer =>
      cases answer with
      | none => exact ih.trans (offset_after_le template n)
      | some token => exact Nat.lt_of_le_of_lt ih (offset_after_lt template hanswer)

/-- The last tag begins at the opening braces that were given last. -/
theorem tagStart_after {n k : Nat} (h : (Scanner.start template).IsLastOpening n k) :
    (after template n).tagStart = (after template k).offset ∧
      ∃ left, (after template k).remaining? template.toList = some (openBraces ++ left) := by
  refine ⟨(tracks_after template k).tagStart_eq_offset (tracks_after template n)
    (Scanner.tagStart_of_isLastOpening h), ?_⟩
  obtain ⟨left, hleft⟩ := (Scanner.next_of_tagOpen h.2.1).1
  exact ⟨left, by rw [hleft]; exact (tracks_after template k).remaining?⟩

end Cursor

namespace Scanner

/-! ## All calls -/

/-- What holds of the call after a number of calls to the scanner of a template, whatever the answers
to these were. -/
structure Progress (template : String) (n : Nat) : Prop where
  /-- No slice of the template that the call takes is missing. -/
  sliced : (Cursor.after template n).next? template.toList =
    some ((start template).answer n, Cursor.after template (n + 1))
  forward : ∀ m, n ≤ m → (Cursor.after template n).offset ≤ (Cursor.after template m).offset
  inside : (Cursor.after template n).offset ≤ template.utf8ByteSize
  border : (⟨(Cursor.after template n).offset⟩ : String.Pos.Raw).IsValid template
  /-- The tag begins at the opening braces that were given last. -/
  opened : ∀ k, (start template).IsLastOpening n k →
    (Cursor.after template n).tagStart = (Cursor.after template k).offset ∧
      ∃ left, (Cursor.after template k).remaining? template.toList = some (openBraces ++ left)
  advances : ∀ token, (start template).answer n = .ok (some token) →
    (Cursor.after template n).offset < (Cursor.after template (n + 1)).offset
  counted : (start template).tokenCount n ≤ template.utf8ByteSize
  ended : (start template).answer n = .ok none → ∀ m, n ≤ m → (start template).answer m = .ok none
  openString : ∀ position, (start template).answer n = .error (.lex position .unterminatedString) →
    ∀ m, n ≤ m → (start template).answer m = .error (.lex position .unterminatedString)
  openTag : ∀ position, (start template).answer n = .error (.lex position .unterminatedExpression) →
    (Cursor.after template (n + 1)).offset = template.utf8ByteSize →
      ∀ m, n ≤ m → (start template).answer m = .error (.lex position .unterminatedExpression)
  /-- A comment without an end is not passed, and its exclamation mark begins the next word. -/
  commentKept : (start template).FailsInComment n →
    (Cursor.after template (n + 1)).offset = (Cursor.after template n).offset ∧
      ∃ word, (start template).answer (n + 1) =
        .ok (some (.piece (.word (String.ofList ('!' :: word)) none)))
  commentOnce : (start template).FailsInComment n → ∀ m, n < m → (start template).FailsInComment m →
    ∃ k, n < k ∧ k < m ∧ (start template).answer k = .ok (some .tagOpen)
  /-- The pieces of the tag after a comment without an end are words and strings of its text. -/
  commentText : (start template).FailsInComment n → ∀ m, n < m →
    (∀ k, n < k → k < m → (start template).answer k ≠ .ok (some .tagOpen)) →
      ∀ piece, (start template).answer m = .ok (some (.piece piece)) →
        ∃ cs left, (Cursor.after template m).remaining? template.toList = some (cs ++ left) ∧
          (Cursor.after template (m + 1)).remaining? template.toList = some left ∧
          PieceText false cs left piece
  /-- There are no errors but these three. -/
  kinds : ∀ error, (start template).answer n = .error error → (start template).FailsInComment n ∨
    (∃ position, error = .lex position .unterminatedString) ∨
    (∃ position, error = .lex position .unterminatedExpression) ∧
      (Cursor.after template (n + 1)).offset = template.utf8ByteSize
  /-- An error is in a tag, and carries the line and the column of its opening braces. -/
  located : ∀ error, (start template).answer n = .error error →
    (∃ k, (start template).IsLastOpening n k) ∧ ∃ before left fault,
      template.toList = before ++ left ∧ utf8Len before = (Cursor.after template n).tagStart ∧
      error = .lex ⟨1 + before.count '\n', 1 + (lastLine before).length⟩ fault

variable {template : String} {n : Nat}

theorem rest_after_eq_nil_iff : ((start template).after n).rest = [] ↔
    (Cursor.after template n).offset = template.utf8ByteSize := by
  rw [(Cursor.tracks_after template n).rest_eq_nil_iff, String.utf8Len_toList]

/-- All calls to the scanner of a template make progress, or are answered alike from then on. -/
theorem calls_progress (template : String) (n : Nat) : Progress template n where
  sliced := Cursor.next?_after template n
  forward _ hm := monotone_nat_of_le_succ (Cursor.offset_after_le template) hm
  inside := Cursor.offset_after_le_size template n
  border :=
    (Text.isSome_splitAtByte?_iff template _).1 (Cursor.tracks_after template n).isSome_splitAtByte?
  opened k hk := Cursor.tagStart_after template hk
  advances token htoken := Cursor.offset_after_lt template htoken
  counted := (Cursor.tokenCount_le_offset template n).trans (Cursor.offset_after_le_size template n)
  ended hnone m hm := answer_of_none hnone hm
  openString position herror m hm := (answer_of_unterminatedString herror hm).trans herror
  openTag position herror hend m hm :=
    (answer_of_unterminatedExpression herror (rest_after_eq_nil_iff.2 hend) hm).trans herror
  -- A failed comment leaves the scanner where it was, so that the cursor has not moved either.
  commentKept hcomment := by
    refine ⟨?_, answer_of_failsInComment hcomment⟩
    have hrest : ((start template).after n).rest = [] ++ ((start template).after (n + 1)).rest := by
      rw [after_of_failsInComment hcomment, List.nil_append]
    exact (Cursor.tracks_after template n).offset_eq (Cursor.tracks_after template (n + 1)) hrest
  commentOnce hcomment m hm hlater := exists_tagOpen_of_failsInComment hcomment hlater hm
  commentText hcomment m hm hopen piece hpiece := by
    obtain ⟨cs, hrest, htext⟩ := pieceText_of_answer hpiece
    rw [atHead_of_failsInComment hcomment hm hopen] at htext
    have hremaining := (Cursor.tracks_after template m).remaining?
    rw [hrest] at hremaining
    exact ⟨cs, _, hremaining, (Cursor.tracks_after template (m + 1)).remaining?, htext⟩
  kinds error herror := by
    obtain hcomment | hstring | ⟨htag, hend⟩ := failsInComment_or herror
    · exact .inl hcomment
    · exact .inr (.inl ⟨_, hstring⟩)
    · exact .inr (.inr ⟨⟨_, htag⟩, rest_after_eq_nil_iff.1 hend⟩)
  located error herror := by
    obtain ⟨hin, fault, -, rfl⟩ := failure_next (Prod.ext herror rfl)
    obtain ⟨before, left, htemplate, hbytes, hposition⟩ := (Cursor.tracks_after template n).opening
    refine ⟨exists_isLastOpening rfl hin, before, left, fault, htemplate, hbytes, ?_⟩
    rw [Scanner.fault, ← hposition, Text.advance_start_eq]

/-- A comment without an end that comes to a string without an end, a tag without an end, and a
template without a tag. -/
theorem calls_progress_openComment :
    (start "x\x7b\x7b! \"é").FailsInComment 2 ∧
      (Cursor.after "x\x7b\x7b! \"é" 3).offset = (Cursor.after "x\x7b\x7b! \"é" 2).offset ∧
      (Cursor.after "x\x7b\x7b! \"é" 4).tagStart = 1 ∧
      (start "x\x7b\x7b! \"é").tokenCount 9 ≤ 8 ∧
      (∀ m, 4 ≤ m → (start "x\x7b\x7b! \"é").answer m =
        .error (.lex ⟨1, 2⟩ .unterminatedString)) ∧
      (∀ m, 3 ≤ m → (start "x\n\x7b\x7ba").answer m =
        .error (.lex ⟨2, 1⟩ .unterminatedExpression)) ∧
      ∀ m, 1 ≤ m → (start "x").answer m = .ok none := by
  have hcomment : (start "x\x7b\x7b! \"é").FailsInComment 2 := ⟨rfl, rfl, ⟨_, rfl⟩, _, rfl⟩
  have hopening : (start "x\x7b\x7b! \"é").IsLastOpening 4 1 := by
    refine ⟨by decide, rfl, fun j hj hlt => ?_⟩
    obtain rfl | rfl : j = 2 ∨ j = 3 := by omega
    · exact nofun
    · exact nofun
  have hstart : (Cursor.after "x\x7b\x7b! \"é" 1).offset = 1 := rfl
  refine ⟨hcomment, ((calls_progress _ 2).commentKept hcomment).1, ?_, (calls_progress _ 9).counted,
    ?_, ?_, ?_⟩
  · rw [((calls_progress _ 4).opened 1 hopening).1, hstart]
  · exact (calls_progress _ 4).openString _ (by decide +kernel)
  · exact (calls_progress _ 3).openTag _ rfl (by decide +kernel)
  · exact (calls_progress _ 1).ended rfl

end Scanner

end BraceTemplate
