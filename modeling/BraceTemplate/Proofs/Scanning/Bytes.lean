import BraceTemplate.Proofs.Scanning.Unclosed
import Mathlib.Data.String.Basic

/-!
# Places in a text by bytes

A place in a text can be given as the number of bytes before it in UTF-8. Only the borders of
characters are places: `splitAtByte?_eq_some_iff` says where a text can be cut, and
`isSome_splitAtByte?_iff` that these are the valid positions of a string. What is found in a text, and
the line and the column of a place, can be told by bytes as well.
-/

namespace BraceTemplate.Text

open String (utf8Len)

/-! ## Cutting a text -/

/-- The text before a byte and from this byte on. There is no cut inside a character or beyond the
text. -/
def splitAtByte? : Nat → List Char → Option (List Char × List Char)
  | 0, cs => some ([], cs)
  | _ + 1, [] => none
  | bytes + 1, c :: cs =>
    if c.utf8Size ≤ bytes + 1 then
      (splitAtByte? (bytes + 1 - c.utf8Size) cs).map fun (before, rest) => (c :: before, rest)
    else none

/-- The text before a byte. -/
def takeBytes? (bytes : Nat) (cs : List Char) : Option (List Char) :=
  (splitAtByte? bytes cs).map Prod.fst

/-- The text from a byte on. -/
def dropBytes? (bytes : Nat) (cs : List Char) : Option (List Char) :=
  (splitAtByte? bytes cs).map Prod.snd

/-- The text from one byte up to another one, which has to come after the first. -/
def slice? (first last : Nat) (cs : List Char) : Option (List Char) :=
  if first ≤ last then (dropBytes? first cs).bind (takeBytes? (last - first)) else none

theorem splitAtByte?_append (before rest : List Char) :
    splitAtByte? (utf8Len before) (before ++ rest) = some (before, rest) := by
  induction before with
  | nil => rw [String.utf8Len_nil, splitAtByte?, List.nil_append]
  | cons c before ih =>
    obtain ⟨bytes, hbytes⟩ : ∃ bytes, utf8Len before + c.utf8Size = bytes + 1 :=
      Nat.exists_eq_add_one.2 (Nat.add_pos_right _ c.utf8Size_pos)
    have hleft : bytes + 1 - c.utf8Size = utf8Len before := by omega
    rw [String.utf8Len_cons, List.cons_append, hbytes, splitAtByte?, if_pos (by omega), hleft, ih]
    rfl

/-- A text is cut after the bytes of its first characters. -/
theorem splitAtByte?_eq_some_iff {bytes : Nat} {cs before rest : List Char} :
    splitAtByte? bytes cs = some (before, rest) ↔ cs = before ++ rest ∧ utf8Len before = bytes := by
  constructor
  · intro h
    induction cs generalizing bytes before with
    | nil =>
      cases bytes with
      | zero =>
        cases h
        exact ⟨rfl, rfl⟩
      | succ bytes => cases h
    | cons c cs ih =>
      cases bytes with
      | zero =>
        rw [splitAtByte?] at h
        cases h
        exact ⟨rfl, rfl⟩
      | succ bytes =>
        rw [splitAtByte?] at h
        -- The whole character must fit before the place: inside of one there is no cut.
        obtain ⟨hle, h⟩ := Option.ite_none_right_eq_some.1 h
        obtain ⟨⟨first, left⟩, hcut, heq⟩ := Option.map_eq_some_iff.1 h
        cases heq
        obtain ⟨rfl, hlen⟩ := ih hcut
        refine ⟨rfl, ?_⟩
        rw [String.utf8Len_cons, hlen]
        omega
  · rintro ⟨rfl, rfl⟩
    exact splitAtByte?_append before rest

/-- A text can be cut at the valid positions of the string that it is. -/
theorem isSome_splitAtByte?_iff (text : String) (bytes : Nat) :
    (splitAtByte? bytes text.toList).isSome = true ↔ (⟨bytes⟩ : String.Pos.Raw).IsValid text := by
  rw [String.Pos.Raw.isValid_iff_exists_append, Option.isSome_iff_exists]
  constructor
  · rintro ⟨⟨before, rest⟩, hcut⟩
    obtain ⟨htext, hlen⟩ := splitAtByte?_eq_some_iff.1 hcut
    refine ⟨String.ofList before, String.ofList rest, ?_, ?_⟩
    · rw [← String.ofList_append, ← htext, String.ofList_toList]
    · rw [String.rawEndPos_ofList, hlen]
  · rintro ⟨before, rest, rfl, hbytes⟩
    refine ⟨(before.toList, rest.toList), splitAtByte?_eq_some_iff.2 ⟨String.toList_append, ?_⟩⟩
    rw [String.utf8Len_toList]
    exact (congrArg String.Pos.Raw.byteIdx hbytes).symm

@[simp] theorem takeBytes?_append (before rest : List Char) :
    takeBytes? (utf8Len before) (before ++ rest) = some before := by
  rw [takeBytes?, splitAtByte?_append, Option.map_some]

@[simp] theorem dropBytes?_append (before rest : List Char) :
    dropBytes? (utf8Len before) (before ++ rest) = some rest := by
  rw [dropBytes?, splitAtByte?_append, Option.map_some]

theorem slice?_append (before slice rest : List Char) :
    slice? (utf8Len before) (utf8Len before + utf8Len slice) (before ++ (slice ++ rest)) =
      some slice := by
  rw [slice?, if_pos (Nat.le_add_right _ _), dropBytes?_append, Option.bind_some,
    Nat.add_sub_cancel_left, takeBytes?_append]

/-! ## Finding in a text -/

/-- The number of bytes before the first marker. -/
def findMarker? (marker : List Char) : List Char → Option Nat
  | [] => if marker.isPrefixOf [] then some 0 else none
  | c :: cs =>
    if marker.isPrefixOf (c :: cs) then some 0 else (findMarker? marker cs).map (· + c.utf8Size)

theorem findMarker?_eq (marker cs : List Char) :
    findMarker? marker cs = (splitAtMarker marker cs).map fun cut => utf8Len cut.1 := by
  induction cs with
  | nil =>
    rw [findMarker?, splitAtMarker]
    split <;> rfl
  | cons c cs ih =>
    rw [findMarker?, splitAtMarker, ih]
    split
    · rfl
    · rw [Option.map_map, Option.map_map]
      rfl

/-- The characters of a text, each with the number of bytes before it. -/
def charIndices (start : Nat) : List Char → List (Nat × Char)
  | [] => []
  | c :: cs => (start, c) :: charIndices (start + c.utf8Size) cs

/-! ## Lines and columns -/

/-- The number of bytes before the last newline. -/
def lastNewline? : List Char → Option Nat
  | [] => none
  | c :: cs =>
    match lastNewline? cs with
    | some bytes => some (bytes + c.utf8Size)
    | none => if c = '\n' then some 0 else none

/-- The line and the column of a byte, counted in the text before it. -/
def lineAndColumn? (bytes : Nat) (cs : List Char) : Option Position := do
  let before ← takeBytes? (min bytes (utf8Len cs)) cs
  let line := before.count '\n' + 1
  match lastNewline? before with
  | some newline => do
    let last ← dropBytes? (newline + 1) before
    some ⟨line, last.length + 1⟩
  | none => some ⟨line, before.length + 1⟩

theorem lastNewline?_eq_none {cs : List Char} (h : lastNewline? cs = none) : '\n' ∉ cs := by
  induction cs with
  | nil => exact List.not_mem_nil
  | cons c cs ih =>
    rw [lastNewline?] at h
    split at h
    · cases h
    · next hcs =>
      split at h
      · cases h
      · next hc =>
        rw [List.mem_cons, not_or]
        exact ⟨Ne.symm hc, ih hcs⟩

/-- After the last newline comes the last line. -/
theorem exists_of_lastNewline? {cs : List Char} {bytes : Nat} (h : lastNewline? cs = some bytes) :
    ∃ before, cs = before ++ '\n' :: lastLine cs ∧ utf8Len before = bytes := by
  induction cs generalizing bytes with
  | nil => cases h
  | cons c cs ih =>
    rw [lastNewline?] at h
    split at h
    · next hcs =>
      cases h
      obtain ⟨before, hbefore, rfl⟩ := ih hcs
      have hmem : '\n' ∈ cs := by
        rw [hbefore]
        exact List.mem_append_right _ List.mem_cons_self
      have hline : lastLine (c :: cs) = lastLine cs := lastLine_append hmem [c]
      refine ⟨c :: before, ?_, String.utf8Len_cons c before⟩
      rw [hline, List.cons_append, ← hbefore]
    · next hcs =>
      obtain ⟨rfl, hzero⟩ := Option.ite_none_right_eq_some.1 h
      cases hzero
      have hline : lastLine ('\n' :: cs) = cs :=
        lastLine_append_of_not_mem (lastNewline?_eq_none hcs) ['\n']
      exact ⟨[], by rw [hline]; rfl, rfl⟩

theorem advance_start_eq (passed : List Char) : Position.start.advance passed =
    ⟨1 + passed.count '\n', 1 + (lastLine passed).length⟩ := by
  rw [← column_advance_start, ← show Position.start.line = 1 from rfl, ← Position.line_advance]

/-- The line and the column of a place are what passing the characters before it leads to. -/
theorem lineAndColumn?_append (before rest : List Char) :
    lineAndColumn? (utf8Len before) (before ++ rest) = some (Position.start.advance before) := by
  -- The offset is inside of the text, so that it is not cut down to its length.
  have hmin : min (utf8Len before) (utf8Len (before ++ rest)) = utf8Len before := by
    rw [String.utf8Len_append]
    omega
  rw [lineAndColumn?, hmin, takeBytes?_append, advance_start_eq]
  simp only [Option.bind_eq_bind, Option.bind_some]
  split
  · next bytes hbytes =>
    obtain ⟨first, hfirst, rfl⟩ := exists_of_lastNewline? hbytes
    have hsplit : before = (first ++ ['\n']) ++ lastLine before := by
      rw [List.append_assoc, List.singleton_append, ← hfirst]
    have hlen : utf8Len first + 1 = utf8Len (first ++ ['\n']) := by
      rw [String.utf8Len_append]
      rfl
    have hlast : dropBytes? (utf8Len first + 1) before = some (lastLine before) := by
      rw [hlen]
      conv_lhs => rw [hsplit]
      rw [dropBytes?_append]
    rw [hlast, Option.bind_some, Nat.add_comm 1, Nat.add_comm 1]
  · next hnone =>
    have hline : lastLine before = before :=
      lastLine_append_of_not_mem (lastNewline?_eq_none hnone) []
    rw [hline, Nat.add_comm 1, Nat.add_comm 1]

end BraceTemplate.Text
