import BraceTemplate.Proofs.Reading.TagPasses

/-!
# Reading a template tag by tag

`readSegments` reads the texts and tags of a template one by one, in the order in which they stand:
a tag is read from its head and the pieces after it, without a look at any other tag. The last
passes over the elements, on the head of one tag, come to what the reader makes of it.
-/

namespace BraceTemplate

open Element (toArgument isPathWord)

/-- What comes of a path at the head of a tag: its value is written if nothing follows it, and a
helper of its name is called otherwise. The divider of blocks cannot be called so. -/
def readPath (word : String) (rest : List Piece) : Option Item :=
  if rest.isEmpty then some (.node (.output (Path.ofWord word)))
  else ((Path.ofWord word).bareName?.filter (· != "else")).map fun name =>
    .node (.inlineCall name (rest.map toArgument))

/-- What comes of a word without the character of a sigil at the head of a tag. -/
def readPlain (registered : String → Bool) (word : String) (sigil : Option Sigil)
    (rest : List Piece) : Option Item :=
  if isPathWord word sigil || !isHelperWord registered word then readPath word rest
  else if word != "else" then some (.node (.inlineCall word (rest.map toArgument)))
  else if rest.isEmpty then some .divider
  else none

/-- What comes of an opener that has a name. -/
def readOpener (registered : String → Bool) (inverted : Bool) (word : String) (rest : List Piece) :
    Option Item :=
  if isHelperWord registered word then
    some (.opener word (.helper (rest.map toArgument)) inverted)
  else if rest.isEmpty then some (.opener word (.path (Path.ofWord word)) inverted)
  else (Path.ofWord word).bareName?.map fun name =>
    .opener name (.helper (rest.map toArgument)) inverted

/-- The context of a partial: nothing, or one word. -/
def readContext : List Piece → Option (Option Path)
  | [] => some none
  | [.word value _] => some (some (Path.ofWord value))
  | _ => none

/-- The items of a tag, which are none for a comment and one otherwise. -/
def readTag (registered : String → Bool) : List Piece → Option (List Item)
  | [] => none
  | .quoted text :: rest => if rest.isEmpty then some [.node (.text text)] else none
  | .word word sigil :: rest =>
    match sigil with
    | some .comment => some []
    | some .partialCall =>
      if word = "" then none
      else (readContext rest).map fun context => [.node (.partialCall word context)]
    | some .blockClose => if rest.isEmpty then some [.closer word] else none
    | some .blockOpen =>
      if word = "" then none else (readOpener registered false word rest).map fun item => [item]
    | some .inverted =>
      if word ≠ "" then (readOpener registered true word rest).map fun item => [item]
      else if rest.isEmpty then some [.divider] else none
    | sigil => (readPlain registered word sigil rest).map fun item => [item]

/-- The items of a text or a tag. -/
def readSegment (registered : String → Bool) : Segment String (List Piece) → Option (List Item)
  | .outside content => some [.node (.text content)]
  | .tag pieces => readTag registered pieces

/-- The items of a template, read from its texts and tags one by one. -/
def readSegments (registered : String → Bool) (segments : List (Segment String (List Piece))) :
    Option (List Item) :=
  (segments.mapM (readSegment registered)).map List.flatten

/-- The items of the first text or tag come before those of the others. -/
theorem readSegments_cons_eq (registered : String → Bool) (segment : Segment String (List Piece))
    (segments : List (Segment String (List Piece))) :
    readSegments registered (segment :: segments) =
      (readSegment registered segment).bind fun first =>
        (readSegments registered segments).map (first ++ ·) := by
  rw [readSegments, readSegments, List.mapM_cons]
  cases readSegment registered segment with
  | none => rfl
  | some first => cases segments.mapM (readSegment registered) <;> rfl

theorem readSegments_cons {registered : String → Bool} {segment : Segment String (List Piece)}
    {segments : List (Segment String (List Piece))} {items : List Item} :
    readSegments registered (segment :: segments) = some items ↔
      ∃ first later, readSegment registered segment = some first ∧
        readSegments registered segments = some later ∧ first ++ later = items := by
  simp only [readSegments_cons_eq, Option.bind_eq_some_iff, Option.map_eq_some_iff,
    exists_and_left]

/-- A word that may be an argument and is no sign of a path has no sigil. -/
theorem sigil_eq_none {word : String} {sigil : Option Sigil} (hsigil : sigil ∈ pathSigils)
    (hpath : isPathWord word sigil = false) : sigil = none := by
  simp only [pathSigils, List.mem_cons, List.not_mem_nil, or_false] at hsigil
  rcases hsigil with rfl | rfl | rfl | rfl
  · rfl
  · cases hpath
  · cases hpath
  · cases hpath

/-- A word that may be an argument is read as such at the head of a tag. -/
theorem readTag_plain (registered : String → Bool) {word : String} {sigil : Option Sigil}
    (hsigil : sigil ∈ pathSigils) (rest : List Piece) :
    readTag registered (.word word sigil :: rest) =
      (readPlain registered word sigil rest).map fun item => [item] := by
  simp only [pathSigils, List.mem_cons, List.not_mem_nil, or_false] at hsigil
  rcases hsigil with rfl | rfl | rfl | rfl <;> rfl

/-! ## The head of a tag in the passes -/

namespace Element

/-- What the last two passes make of a head and the pieces after it. -/
def readHead (head : Element) (rest : List Piece) : Except TagFault (List Item) :=
  if head.takesArguments then
    head.bind (rest.map toArgument) >>= fun bound => toItems [bound]
  else toItems (head :: rest.map ofArgument)

/-- The head of a tag once it is told apart. -/
def headOf (registered : String → Bool) (piece : Piece) : Element :=
  readWord (classifyHead registered (ofPiece piece))

/-- The head of a tag is told apart, and the pieces after it are arguments. -/
theorem readHeads_pieces (registered : String → Bool) (head : Piece) {rest : List Piece}
    (hrest : ∀ piece ∈ rest, IsArgument piece) (later : List Element) :
    readHeads registered (tagOf ((head :: rest).map ofPiece) ++ later) =
      tagOf (headOf registered head :: rest.map ofArgument) ++ readHeads registered later := by
  have hinner : ∀ element ∈ rest.map ofPiece, IsInner element := by
    intro element hmem
    obtain ⟨piece, -, rfl⟩ := List.mem_map.1 hmem
    exact isInner_ofPiece piece
  have harguments : (rest.map ofPiece).map readWord = rest.map ofArgument := by
    rw [List.map_map]
    exact List.map_congr_left fun piece hmem => readWord_ofPiece (hrest piece hmem)
  rw [List.map_cons, readHeads_tag registered (ofPiece head) hinner, harguments]
  rfl

theorem toOption_calledName (path : Path) : (calledName path).toOption = path.bareName? := by
  rw [calledName]
  cases path.bareName? <;> rfl

/-- A head that takes no arguments is left with what follows it. -/
theorem readHead_alone {head : Element} (htakes : head.takesArguments = false) (rest : List Piece) :
    (readHead head rest).toOption =
      if rest.isEmpty then head.toItem.toOption.map fun item => [item] else none := by
  rw [readHead, htakes, if_neg Bool.false_ne_true]
  cases rest with
  | nil => exact toOption_map _ _
  | cons piece rest => rfl

/-- A head that takes arguments is bound to what follows it. -/
theorem readHead_taking {head : Element} (htakes : head.takesArguments = true) (rest : List Piece) :
    (readHead head rest).toOption = (head.bind (rest.map toArgument)).toOption.bind fun bound =>
      bound.toItem.toOption.map fun item => [item] := by
  rw [readHead, htakes, if_pos rfl, toOption_bind]
  apply congrArg (head.bind (rest.map toArgument)).toOption.bind
  funext bound
  exact toOption_map _ _

/-- A call takes whatever follows it. -/
theorem readHead_call (name : String) (sigil : Option Sigil) (rest : List Piece) :
    (readHead (.call name sigil []) rest).toOption =
      (toItem (.call name sigil (rest.map toArgument))).toOption.map fun item => [item] :=
  readHead_taking rfl rest

/-- A path with arguments is called by its name. -/
theorem readHead_output (path : Path) (rest : List Piece) :
    (readHead (.node (.output path)) rest).toOption =
      if rest.isEmpty then some [.node (.output path)]
      else path.bareName?.bind fun name =>
        (toItem (.call name none (rest.map toArgument))).toOption.map fun item => [item] := by
  cases rest with
  | nil => rfl
  | cons piece rest =>
    have hbind : Element.bind (.node (.output path)) ((piece :: rest).map toArgument) =
        (calledName path).map fun name => .call name none ((piece :: rest).map toArgument) := rfl
    rw [readHead_taking rfl, hbind, toOption_map, toOption_calledName, List.isEmpty_cons,
      if_neg Bool.false_ne_true, Option.bind_map]
    rfl

/-- An opener with arguments calls a block helper by the name of its path. -/
theorem readHead_pathOpener (word : String) (path : Path) (inverted : Bool) (rest : List Piece) :
    (readHead (.pathOpener word path inverted) rest).toOption =
      if rest.isEmpty then some [.opener word (.path path) inverted]
      else path.bareName?.map fun name =>
        [.opener name (.helper (rest.map toArgument)) inverted] := by
  cases rest with
  | nil => rfl
  | cons piece rest =>
    have hbind : Element.bind (.pathOpener word path inverted) ((piece :: rest).map toArgument) =
        (calledName path).map fun name =>
          .call name (some (if inverted then .inverted else .blockOpen))
            ((piece :: rest).map toArgument) := rfl
    rw [readHead_taking rfl, hbind, toOption_map, toOption_calledName, List.isEmpty_cons,
      if_neg Bool.false_ne_true, Option.bind_map]
    cases path.bareName? with
    | none => rfl
    | some name => cases inverted <;> rfl

/-- A path and what stands behind it are read by the passes as `readPath` reads them. -/
theorem readHead_path (word : String) (rest : List Piece) :
    (readHead (.node (.output (Path.ofWord word))) rest).toOption =
      (readPath word rest).map fun item => [item] := by
  rw [readHead_output, readPath]
  cases rest with
  | nil => rfl
  | cons piece rest =>
    rw [List.isEmpty_cons, if_neg Bool.false_ne_true, if_neg Bool.false_ne_true, Option.map_map]
    cases (Path.ofWord word).bareName? with
    | none => rfl
    | some name =>
      -- A path such as `./else` has the name of the divider, which takes no arguments.
      rw [Option.bind_some, Option.filter_some, toItem]
      by_cases helse : name = "else"
      · subst helse
        rfl
      · rw [if_pos helse, if_pos (bne_iff_ne.2 helse)]
        rfl

/-- The head of a tag that opens a block. -/
theorem readHead_opener (registered : String → Bool) {word : String} (hword : word ≠ "")
    (inverted : Bool) (rest : List Piece) :
    (readHead (headOf registered (.word word (some (if inverted then .inverted else .blockOpen))))
        rest).toOption =
      (readOpener registered inverted word rest).map fun item => [item] := by
  rw [readOpener]
  -- A registered helper is called at once; any other word stands for its path until arguments
  -- make it a call.
  by_cases hhelper : isHelperWord registered word = true
  · have hhead :
        headOf registered (.word word (some (if inverted then .inverted else .blockOpen))) =
          .call word (some (if inverted then .inverted else .blockOpen)) [] := by
      cases inverted <;>
        simp [headOf, ofPiece_word, isPathWord, classifyHead, mayCall, hhelper, readWord]
    rw [hhead, readHead_call, if_pos hhelper]
    cases inverted <;> rfl
  · have hhead :
        headOf registered (.word word (some (if inverted then .inverted else .blockOpen))) =
          .pathOpener word (Path.ofWord word) inverted := by
      cases inverted <;>
        simp [headOf, ofPiece_word, isPathWord, classifyHead, mayCall, hhelper, readWord, hword]
    rw [hhead, readHead_pathOpener, if_neg hhelper]
    cases rest with
    | nil => rfl
    | cons piece rest =>
      rw [List.isEmpty_cons, if_neg Bool.false_ne_true, if_neg Bool.false_ne_true, Option.map_map]
      rfl

/-- The head of a tag with a word that may name a helper or a path. -/
theorem readHead_plain (registered : String → Bool) {word : String} {sigil : Option Sigil}
    (hsigil : sigil ∈ pathSigils) (rest : List Piece) :
    (readHead (headOf registered (.word word sigil)) rest).toOption =
      (readPlain registered word sigil rest).map fun item => [item] := by
  rw [readPlain]
  -- A word that can only be a path is never looked up among the helpers.
  by_cases hpath : isPathWord word sigil = true
  · have hhead : headOf registered (.word word sigil) = .node (.output (Path.ofWord word)) := by
      simp [headOf, ofPiece_word, hpath, classifyHead, readWord]
    rw [hhead, hpath, Bool.true_or, if_pos rfl, readHead_path]
  · obtain rfl : sigil = none := sigil_eq_none hsigil (Bool.eq_false_iff.2 hpath)
    by_cases hhelper : isHelperWord registered word = true
    · have hhead : headOf registered (.word word none) = .call word none [] := by
        simp [headOf, ofPiece_word, hpath, classifyHead, mayCall, hhelper, readWord]
      rw [hhead, readHead_call, Bool.eq_false_iff.2 hpath, hhelper, Bool.not_true, Bool.or_false,
        if_neg Bool.false_ne_true, toItem]
      by_cases helse : word = "else"
      · subst helse
        cases rest <;> rfl
      · rw [if_pos helse, if_pos (bne_iff_ne.2 helse)]
        rfl
    · have hhead : headOf registered (.word word none) = .node (.output (Path.ofWord word)) := by
        simp [headOf, ofPiece_word, hpath, classifyHead, mayCall, hhelper, readWord]
      rw [hhead, Bool.eq_false_iff.2 hhelper, Bool.not_false, Bool.or_true, if_pos rfl,
        readHead_path]

/-- The passes read a tag that opens, closes or inverts a block as `readTag` does. -/
theorem readHead_sigil (registered : String → Bool) (word : String) {sigil : Sigil}
    (hsigil : sigil = .blockOpen ∨ sigil = .blockClose ∨ sigil = .inverted) (rest : List Piece) :
    (readHead (headOf registered (.word word (some sigil))) rest).toOption =
      readTag registered (.word word (some sigil) :: rest) := by
  -- An opener without a word is refused, a caret without a word is a divider.
  rcases hsigil with rfl | rfl | rfl
  · rw [readTag]
    by_cases hword : word = ""
    · subst hword
      rw [readHead_alone rfl, if_pos rfl]
      cases rest <;> rfl
    · rw [if_neg hword]
      exact readHead_opener registered hword false rest
  · rw [readHead_alone rfl]
    cases rest <;> rfl
  · rw [readTag]
    by_cases hword : word = ""
    · subst hword
      rw [readHead_alone rfl, if_neg (not_not_intro rfl)]
      rfl
    · rw [if_pos hword]
      exact readHead_opener registered hword true rest

theorem readHead_argument (registered : String → Bool) {head : Piece} (h : IsArgument head)
    (rest : List Piece) :
    (readHead (headOf registered head) rest).toOption = readTag registered (head :: rest) := by
  cases head with
  | quoted text => exact readHead_alone rfl rest
  | word word sigil =>
    have hsigil := sigil_mem_of_isArgument h
    rw [readHead_plain registered hsigil, readTag_plain registered hsigil]

end Element

end BraceTemplate
