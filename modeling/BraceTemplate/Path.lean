/-! # Paths

A path names a place in the data: where to start, how many frames to climb, and which members
to follow. Reading a path from a word never fails; writing it gives a word that reads back.
-/

namespace BraceTemplate

/-- Where a path starts: the current frame, the data of the whole render, or a loop variable. -/
inductive Anchor where
  | current
  | root
  | data (name : String)
  deriving Repr, DecidableEq, Inhabited

/-- A place in the data. -/
structure Path where
  segments : List String
  hops : Nat
  anchor : Anchor
  deriving Repr, DecidableEq, Inhabited

namespace Path

/-! ## Reading -/

/-- The characters between the segments of a path. -/
def isSeparator (c : Char) : Bool :=
  c = '.' || c = '/'

/-- The texts between separators, one more than there are separators. -/
def splitSegments : List Char → List (List Char)
  | [] => [[]]
  | c :: cs =>
    if isSeparator c then
      [] :: splitSegments cs
    else
      match splitSegments cs with
      | [] => [[c]]
      | segment :: segments => (c :: segment) :: segments

/-- Whether a text between separators names a member: it is not empty and not the word `this`. -/
def isMemberName (segment : List Char) : Bool :=
  !segment.isEmpty && segment != "this".toList

/-- The member names in a text. -/
def readSegments (cs : List Char) : List String :=
  ((splitSegments cs).filter isMemberName).map String.ofList

/-- Counts the steps to a parent frame that a text begins with, and gives the text after them. -/
def readHops : List Char → Nat × List Char
  | '.' :: '.' :: '/' :: rest => let (hops, rest) := readHops rest; (hops + 1, rest)
  | ['.', '.'] => (1, [])
  | rest => (0, rest)

/-- The anchor that a name after the at sign stands for. -/
def namedAnchor (name : String) : Anchor :=
  if name = "root" then .root else .data name

/-- The path that a text denotes. -/
def ofChars : List Char → Path
  | '@' :: rest =>
    { segments := readSegments ((rest.dropWhile fun c => !isSeparator c).drop 1)
      hops := 0
      anchor := namedAnchor (String.ofList (rest.takeWhile fun c => !isSeparator c)) }
  | cs =>
    let (hops, rest) := readHops cs
    { segments := readSegments rest, hops, anchor := .current }

/-- The path that a word denotes. -/
def ofWord (word : String) : Path :=
  ofChars word.toList

/-- Whether a path is the current value itself. -/
def isThis (path : Path) : Bool :=
  path.segments.isEmpty && path.hops == 0 && path.anchor == .current

/-- The name of a path that is a single name, in the current frame. -/
def bareName? (path : Path) : Option String :=
  match path.segments, path.hops, path.anchor with
  | [name], 0, .current => some name
  | _, _, _ => none

/-! ## Writing -/

/-- The start of the written path, up to and including a separator. -/
def writeStart (path : Path) : String :=
  match path.anchor with
  | .root => "@root/"
  | .data name => "@" ++ name ++ "/"
  | .current => if path.hops = 0 then "./" else String.join (List.replicate path.hops "../")

/-- A word for a path. -/
def write (path : Path) : String :=
  path.writeStart ++ "/".intercalate path.segments

/-- Whether a word is a single name: it has no separators, does not begin with the at sign and is
not the word `this`. -/
def isSingleName (word : String) : Bool :=
  !(word.toList.any isSeparator || ['@'].isPrefixOf word.toList || word == "this")

/-- A text that holds a separator. -/
def HasSeparator (text : String) : Prop :=
  ∃ c ∈ text.toList, isSeparator c = true

/-- The paths that words denote: every segment names a member, only a path from the current
frame climbs, and the name of a loop variable is a single name other than `root`. -/
structure Canonical (path : Path) : Prop where
  segments_isMemberName : ∀ segment ∈ path.segments, isMemberName segment.toList = true
  segments_single : ∀ segment ∈ path.segments, ¬ HasSeparator segment
  hops_eq_zero : path.anchor ≠ .current → path.hops = 0
  data_single : ∀ name, path.anchor = .data name → ¬ HasSeparator name ∧ name ≠ "root"

/-! ## Lemmas -/

theorem splitSegments_ne_nil (cs : List Char) : splitSegments cs ≠ [] := by
  cases cs with
  | nil => exact List.cons_ne_nil _ _
  | cons c cs =>
    rw [splitSegments]
    split
    · exact List.cons_ne_nil _ _
    · split <;> exact List.cons_ne_nil _ _

/-- A separator divides the segments before it from those after it. -/
theorem splitSegments_append {c : Char} (h : isSeparator c = true) (first second : List Char) :
    splitSegments (first ++ c :: second) = splitSegments first ++ splitSegments second := by
  induction first with
  | nil => simp [splitSegments, h]
  | cons d first ih =>
    rw [List.cons_append, splitSegments, splitSegments]
    split
    · rw [ih, List.cons_append]
    · rw [ih]
      cases hsplit : splitSegments first with
      | nil => exact absurd hsplit (splitSegments_ne_nil first)
      | cons segment segments => rfl

/-- The member names of two texts with a separator between them are those of both. -/
theorem readSegments_append {c : Char} (h : isSeparator c = true) (first second : List Char) :
    readSegments (first ++ c :: second) = readSegments first ++ readSegments second := by
  simp [readSegments, splitSegments_append h]

/-- A segment between separators holds none. -/
theorem not_isSeparator_of_mem_splitSegments {cs segment : List Char}
    (h : segment ∈ splitSegments cs) : ∀ c ∈ segment, isSeparator c = false := by
  induction cs generalizing segment with
  | nil =>
    intro c hc
    rw [splitSegments, List.mem_singleton] at h
    subst h
    cases hc
  | cons d cs ih =>
    rw [splitSegments] at h
    split at h
    · rcases List.mem_cons.1 h with rfl | hin
      · intro c hc; cases hc
      · exact ih hin
    · next hd =>
      split at h
      · next hnil => exact absurd hnil (splitSegments_ne_nil cs)
      -- The character goes in front of the first segment, and the others are those of the rest.
      · next first segments hsplit =>
        rcases List.mem_cons.1 h with rfl | hin
        · intro c hc
          rcases List.mem_cons.1 hc with rfl | hc
          · exact Bool.eq_false_iff.2 hd
          · exact ih (hsplit ▸ List.mem_cons_self) c hc
        · exact ih (hsplit ▸ List.mem_cons_of_mem _ hin)

/-- A text without separators is one segment. -/
theorem splitSegments_of_not_isSeparator {cs : List Char} (h : ∀ c ∈ cs, isSeparator c = false) :
    splitSegments cs = [cs] := by
  induction cs with
  | nil => rfl
  | cons c cs ih =>
    rw [splitSegments, h c List.mem_cons_self, if_neg Bool.false_ne_true,
      ih fun d hd => h d (List.mem_cons_of_mem c hd)]

/-- A text without separators that names a member names this member only. -/
theorem readSegments_eq_singleton {segment : String}
    (hsingle : ∀ c ∈ segment.toList, isSeparator c = false)
    (hmember : isMemberName segment.toList = true) :
    readSegments segment.toList = [segment] := by
  rw [readSegments, splitSegments_of_not_isSeparator hsingle, List.filter_cons_of_pos hmember,
    List.filter_nil, List.map_singleton, String.ofList_toList]

/-- A text that begins neither with the at sign nor with a dot denotes the members it names. -/
theorem ofChars_cons {c : Char} (hat : c ≠ '@') (hdot : c ≠ '.') (cs : List Char) :
    ofChars (c :: cs) = ⟨readSegments (c :: cs), 0, .current⟩ := by
  have hhops : readHops (c :: cs) = (0, c :: cs) := by
    rw [readHops.eq_def]
    split
    · next heq => exact absurd (List.cons.inj heq).1 hdot
    · next heq => exact absurd (List.cons.inj heq).1 hdot
    · rfl
  rw [ofChars.eq_def]
  split
  · next heq => exact absurd (List.cons.inj heq).1 hat
  · rw [hhops]

/-- A word that is a single name denotes the member of that name in the current frame. -/
theorem ofWord_of_isSingleName {word : String} (h : isSingleName word = true) (hne : word ≠ "") :
    ofWord word = ⟨[word], 0, .current⟩ := by
  simp only [isSingleName, Bool.not_eq_true', Bool.or_eq_false_iff, beq_eq_false_iff_ne] at h
  obtain ⟨⟨hseparator, hat⟩, hthis⟩ := h
  rw [List.any_eq_false] at hseparator
  have hsingle : ∀ c ∈ word.toList, isSeparator c = false := fun c hc =>
    Bool.eq_false_iff.2 (hseparator c hc)
  have hmember : isMemberName word.toList = true := by
    rw [isMemberName, Bool.and_eq_true, Bool.not_eq_true', List.isEmpty_eq_false_iff, bne_iff_ne]
    exact ⟨mt String.toList_eq_nil_iff.1 hne, mt String.toList_inj.1 hthis⟩
  rw [ofWord, ← readSegments_eq_singleton hsingle hmember]
  cases hchars : word.toList with
  | nil => exact absurd (String.toList_eq_nil_iff.1 hchars) hne
  | cons c cs =>
    -- Neither `@` nor a dot stands in front, so that the word is one segment as it is.
    apply ofChars_cons
    · rintro rfl
      rw [hchars] at hat
      cases hat
    · rintro rfl
      cases hsingle '.' (hchars ▸ List.mem_cons_self)

theorem bareName?_ofWord {word : String} (h : isSingleName word = true) (hne : word ≠ "") :
    (ofWord word).bareName? = some word := by
  rw [ofWord_of_isSingleName h hne]
  rfl

/-- A member name is not empty, not the word `this`, and holds no separator. -/
theorem of_mem_readSegments {cs : List Char} {segment : String} (h : segment ∈ readSegments cs) :
    isMemberName segment.toList = true ∧ ∀ c ∈ segment.toList, isSeparator c = false := by
  obtain ⟨found, hfound, rfl⟩ := List.mem_map.1 h
  obtain ⟨hsplit, hmember⟩ := List.mem_filter.1 hfound
  rw [String.toList_ofList]
  exact ⟨hmember, not_isSeparator_of_mem_splitSegments hsplit⟩

/-- A word is the name of its path only if it is a single name. -/
theorem isSingleName_of_bareName? {word : String} (h : (ofWord word).bareName? = some word) :
    isSingleName word = true := by
  rw [ofWord, ofChars.eq_def] at h
  split at h
  · next rest hchars =>
    -- A path with `@` in front is never in the current frame, and has no bare name.
    have hanchor : ∀ name, namedAnchor name ≠ .current := by
      intro name
      rw [namedAnchor]
      split <;> simp
    rw [bareName?.eq_def] at h
    split at h
    · next hcurrent => exact absurd hcurrent (hanchor _)
    · cases h
  · next cs hat =>
    have hmem : word ∈ readSegments (readHops word.toList).2 := by
      rw [bareName?.eq_def] at h
      split at h
      · next name hsegments _ _ =>
        cases h
        have hread : readSegments (readHops word.toList).2 = [word] := hsegments
        rw [hread]
        exact List.mem_singleton_self word
      · cases h
    obtain ⟨hmember, hsingle⟩ := of_mem_readSegments hmem
    rw [isMemberName, Bool.and_eq_true, bne_iff_ne] at hmember
    rw [isSingleName, Bool.not_eq_true', Bool.or_eq_false_iff, Bool.or_eq_false_iff]
    refine ⟨⟨List.any_eq_false.2 fun c hc => ?_, ?_⟩, ?_⟩
    · rw [hsingle c hc]
      exact Bool.false_ne_true
    · cases hchars : word.toList with
      | nil => rfl
      | cons c cs =>
        have hne : '@' ≠ c := by
          rintro rfl
          exact hat cs hchars
        rw [List.isPrefixOf, beq_eq_false_iff_ne.2 hne, Bool.false_and]
    · rw [beq_eq_false_iff_ne]
      rintro rfl
      exact hmember.2 rfl

end Path

end BraceTemplate
