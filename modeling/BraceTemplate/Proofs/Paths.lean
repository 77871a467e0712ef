import BraceTemplate.Path
import Mathlib.Data.List.TakeWhile

/-!
# The texts of paths

Reading a path follows the text that it is read from: a text that is put together from two texts
denotes the path that is put together from theirs, and a canonical path is read back from the word
that is written for it. Nothing else is read, so words denote canonical paths and only these.
-/

namespace BraceTemplate

namespace Path

/-! ## Reading a text that is put together -/

/-- A text that begins with no step to a parent is left as it is. -/
theorem readHops_eq_self {cs : List Char} (hstep : ∀ rest, cs ≠ '.' :: '.' :: '/' :: rest)
    (hend : cs ≠ ['.', '.']) : readHops cs = (0, cs) := by
  rw [readHops.eq_def]
  split
  · next rest => exact absurd rfl (hstep rest)
  · exact absurd rfl hend
  · rfl

theorem readHops_of_hops_eq_zero {cs : List Char} (h : (readHops cs).1 = 0) :
    readHops cs = (0, cs) := by
  apply readHops_eq_self
  · rintro rest rfl
    cases h
  · rintro rfl
    cases h

/-- No step to a parent comes into being where a separator is put after a text. -/
theorem append_ne_parent {first : List Char} (hstep : ∀ rest, first ≠ '.' :: '.' :: '/' :: rest)
    (hend : first ≠ ['.', '.']) (second rest : List Char) :
    first ++ '/' :: second ≠ '.' :: '.' :: '/' :: rest := by
  rintro heq
  match first with
  | [] => cases heq
  | [c] => cases heq
  | [c, d] =>
    cases heq
    exact hend rfl
  | c :: d :: e :: tail =>
    cases heq
    exact hstep tail rfl

/-- The steps to a parent that a text begins with are the same when segments follow that are none. -/
theorem readHops_append (first : List Char) {second : List Char} (h : (readHops second).1 = 0) :
    (readHops (first ++ '/' :: second)).1 = (readHops first).1 ∧
      readSegments (readHops (first ++ '/' :: second)).2 =
        readSegments (readHops first).2 ++ readSegments second := by
  induction first using readHops.induct with
  | case1 rest _ _ _ ih => exact ⟨congrArg (· + 1) ih.1, ih.2⟩
  | case2 =>
    -- Two dots alone are a step already, without the separator that comes after them.
    have hsecond := readHops_of_hops_eq_zero h
    have hparent : readHops (['.', '.'] ++ '/' :: second) =
        ((readHops second).1 + 1, (readHops second).2) := rfl
    rw [hparent, hsecond]
    exact ⟨rfl, rfl⟩
  | case3 first hstep hend =>
    -- There is no step, and the separator does not make one of the end of the text.
    have hjoined : readHops (first ++ '/' :: second) = (0, first ++ '/' :: second) := by
      refine readHops_eq_self (append_ne_parent hstep hend second) fun heq => ?_
      have hmem : '/' ∈ first ++ '/' :: second := by simp
      rw [heq] at hmem
      simp at hmem
    rw [hjoined, readHops_eq_self hstep hend]
    exact ⟨rfl, readSegments_append rfl first second⟩

/-- A text that does not begin with the at sign denotes a path from the current frame. -/
theorem ofChars_eq {cs : List Char} (hat : cs.head? ≠ some '@') :
    ofChars cs = ⟨readSegments (readHops cs).2, (readHops cs).1, .current⟩ := by
  rw [ofChars.eq_def]
  split
  · exact absurd rfl hat
  · rfl

/-- A name ends where it ends when more segments follow, and they are put after its own. -/
theorem ofChars_at_append (rest second : List Char) :
    ofChars ('@' :: (rest ++ '/' :: second)) =
      { ofChars ('@' :: rest) with
        segments := (ofChars ('@' :: rest)).segments ++ readSegments second } := by
  have hslash : isSeparator '/' = true := rfl
  -- The name ends before the slash at the latest, so what follows it is all in the segments.
  have hname : (rest ++ '/' :: second).takeWhile (fun c => !isSeparator c) =
      rest.takeWhile fun c => !isSeparator c := by
    rw [List.takeWhile_append, List.takeWhile_cons_of_neg (by simp [hslash]), List.append_nil]
    split
    · next hlength => exact ((List.takeWhile_prefix _).eq_of_length hlength).symm
    · rfl
  have hsegments :
      readSegments (((rest ++ '/' :: second).dropWhile fun c => !isSeparator c).drop 1) =
      readSegments ((rest.dropWhile fun c => !isSeparator c).drop 1) ++ readSegments second := by
    rw [List.dropWhile_append]
    cases hleft : rest.dropWhile fun c => !isSeparator c with
    | nil =>
      rw [List.isEmpty_nil, if_pos rfl, List.dropWhile_cons_of_neg (by simp [hslash])]
      rfl
    | cons c left =>
      rw [List.isEmpty_cons, if_neg Bool.false_ne_true]
      exact readSegments_append hslash left second
  rw [ofChars, ofChars, hname, hsegments]

/-- A path from the current frame that does not climb has its segments put after those of another
path when its text is put after a separator. -/
theorem ofChars_append (first : List Char) {second : List Char} (hat : second.head? ≠ some '@')
    (hhops : (ofChars second).hops = 0) :
    ofChars (first ++ '/' :: second) =
      { ofChars first with
        segments := (ofChars first).segments ++ (ofChars second).segments } := by
  rw [ofChars_eq hat] at hhops ⊢
  rw [readHops_of_hops_eq_zero hhops]
  by_cases hfirst : first.head? = some '@'
  · obtain ⟨rest, rfl⟩ := List.head?_eq_some_iff.1 hfirst
    exact ofChars_at_append rest second
  · have hjoined : (first ++ '/' :: second).head? ≠ some '@' := by
      cases first with
      | nil => simp
      | cons c cs => exact hfirst
    obtain ⟨hsame, hsegments⟩ := readHops_append first hhops
    rw [ofChars_eq hfirst, ofChars_eq hjoined, hsame, hsegments]

/-- A step to a parent that is put before a path is one more. -/
theorem ofChars_parent {cs : List Char} (hat : cs.head? ≠ some '@') :
    ofChars ('.' :: '.' :: '/' :: cs) = { ofChars cs with hops := (ofChars cs).hops + 1 } := by
  rw [ofChars_eq hat, ofChars_eq (by simp)]
  rfl

/-! ## The same of words -/

variable {word : String}

theorem ofWord_append (first : String) (hat : word.toList.head? ≠ some '@')
    (hhops : (ofWord word).hops = 0) :
    ofWord (first ++ "/" ++ word) =
      { ofWord first with segments := (ofWord first).segments ++ (ofWord word).segments } := by
  have hjoined : (first ++ "/" ++ word).toList = first.toList ++ '/' :: word.toList := by
    rw [String.toList_append, String.toList_append, List.append_assoc]
    rfl
  rw [ofWord, hjoined]
  exact ofChars_append first.toList hat hhops

theorem ofWord_parent (hat : word.toList.head? ≠ some '@') :
    ofWord ("../" ++ word) = { ofWord word with hops := (ofWord word).hops + 1 } := by
  rw [ofWord, String.toList_append]
  exact ofChars_parent hat

theorem anchor_ofWord (hat : word.toList.head? ≠ some '@') : (ofWord word).anchor = .current := by
  rw [ofWord, ofChars_eq hat]

/-! ## Canonical paths -/

theorem not_hasSeparator_iff {text : String} :
    ¬ HasSeparator text ↔ ∀ c ∈ text.toList, isSeparator c = false := by
  simp [HasSeparator]

instance : DecidablePred HasSeparator := fun text =>
  decidable_of_iff (text.toList.any isSeparator = true) List.any_eq_true

/-- The path of a word is canonical. -/
theorem canonical_ofWord (word : String) : (ofWord word).Canonical := by
  have hread : ∀ cs : List Char, ∀ segment ∈ readSegments cs,
      isMemberName segment.toList = true ∧ ¬ HasSeparator segment := fun cs segment hmem =>
    (of_mem_readSegments hmem).imp_right not_hasSeparator_iff.2
  rw [ofWord, ofChars.eq_def]
  split
  -- With `@` in front the name is cut at its first separator, and `root` is an anchor of its own.
  · next rest _ =>
    constructor
    · exact fun segment hmem => (hread _ segment hmem).1
    · exact fun segment hmem => (hread _ segment hmem).2
    · exact fun _ => rfl
    · intro name hanchor
      rw [namedAnchor] at hanchor
      split at hanchor
      · cases hanchor
      · next hroot =>
        cases hanchor
        refine ⟨not_hasSeparator_iff.2 fun c hc => ?_, hroot⟩
        rw [String.toList_ofList] at hc
        simpa using List.mem_takeWhile_imp hc
  · constructor
    · exact fun segment hmem => (hread _ segment hmem).1
    · exact fun segment hmem => (hread _ segment hmem).2
    · exact fun hanchor => absurd rfl hanchor
    · rintro name ⟨⟩

/-- Member names are read back from their texts with a separator between them. -/
theorem readSegments_intercalate {segments : List String}
    (hmember : ∀ segment ∈ segments, isMemberName segment.toList = true)
    (hsingle : ∀ segment ∈ segments, ¬ HasSeparator segment) :
    readSegments ("/".intercalate segments).toList = segments := by
  induction segments with
  | nil => rfl
  | cons segment segments ih =>
    obtain ⟨hfirst, hrest⟩ := List.forall_mem_cons.1 hmember
    obtain ⟨hfirstSingle, hrestSingle⟩ := List.forall_mem_cons.1 hsingle
    have hsegment := readSegments_eq_singleton (not_hasSeparator_iff.1 hfirstSingle) hfirst
    cases segments with
    | nil => rw [String.intercalate_singleton, hsegment]
    | cons next segments =>
      have htext : ("/".intercalate (segment :: next :: segments)).toList =
          segment.toList ++ '/' :: ("/".intercalate (next :: segments)).toList := by
        rw [String.intercalate_cons_cons, String.append_assoc, String.toList_append,
          String.toList_append]
        rfl
      rw [htext, readSegments_append rfl, hsegment, ih hrest hrestSingle, List.singleton_append]

/-- A text of member names begins with no step to a parent. -/
theorem readHops_intercalate {segments : List String}
    (hmember : ∀ segment ∈ segments, isMemberName segment.toList = true)
    (hsingle : ∀ segment ∈ segments, ¬ HasSeparator segment) :
    readHops ("/".intercalate segments).toList = (0, ("/".intercalate segments).toList) := by
  cases segments with
  | nil => rfl
  | cons segment segments =>
    obtain ⟨tail, htail⟩ : ∃ tail, "/".intercalate (segment :: segments) = segment ++ tail := by
      cases segments with
      | nil => exact ⟨"", by simp⟩
      | cons next segments => exact ⟨_, by rw [String.intercalate_cons_cons, String.append_assoc]⟩
    have hfirst := hmember segment List.mem_cons_self
    -- Dots separate segments, so that none stands at the start to be read as a hop.
    have hdots : ∀ c ∈ segment.toList, c ≠ '.' := by
      rintro c hc rfl
      cases not_hasSeparator_iff.1 (hsingle segment List.mem_cons_self) '.' hc
    rw [htail, String.toList_append]
    cases hchars : segment.toList with
    | nil =>
      rw [hchars] at hfirst
      cases hfirst
    | cons c cs =>
      have hdot : c ≠ '.' := hdots c (hchars ▸ List.mem_cons_self)
      apply readHops_eq_self
      · exact fun rest heq => hdot (List.cons.inj heq).1
      · exact fun heq => hdot (List.cons.inj heq).1

theorem toList_parents (hops : Nat) (cs : List Char) :
    (String.join (List.replicate (hops + 1) "../")).toList ++ cs =
      '.' :: '.' :: '/' :: ((String.join (List.replicate hops "../")).toList ++ cs) := by
  rw [List.replicate_succ, String.join_cons, String.toList_append]
  rfl

/-- Steps to a parent are counted before a text that begins with none. -/
theorem readHops_parents {cs : List Char} (h : readHops cs = (0, cs)) (hops : Nat) :
    readHops ((String.join (List.replicate hops "../")).toList ++ cs) = (hops, cs) := by
  induction hops with
  | zero => exact h
  | succ hops ih => rw [toList_parents, readHops, ih]

/-- A name after the at sign is the anchor, up to the separator after it. -/
theorem ofChars_at {name : String} (hsingle : ¬ HasSeparator name) (second : List Char) :
    ofChars ('@' :: (name.toList ++ '/' :: second)) =
      ⟨readSegments second, 0, namedAnchor name⟩ := by
  have hname : ∀ c ∈ name.toList, (!isSeparator c) = true := by
    intro c hc
    rw [not_hasSeparator_iff.1 hsingle c hc, Bool.not_false]
  have hdrop : name.toList.dropWhile (fun c => !isSeparator c) = [] :=
    List.dropWhile_eq_nil_iff.2 hname
  have hfirst : ofChars ('@' :: name.toList) = ⟨[], 0, namedAnchor name⟩ := by
    rw [ofChars, hdrop, List.takeWhile_eq_self_iff.2 hname, String.ofList_toList]
    rfl
  rw [ofChars_at_append, hfirst, List.nil_append]

/-- A text after a dot and a separator is read as it is alone, whatever it begins with. -/
theorem ofChars_here (cs : List Char) :
    ofChars ('.' :: '/' :: cs) = ⟨readSegments cs, 0, .current⟩ := by
  have hhops : readHops ('.' :: '/' :: cs) = (0, '.' :: '/' :: cs) :=
    readHops_eq_self (by rintro rest ⟨⟩) (by rintro ⟨⟩)
  have hsegments : readSegments ('.' :: '/' :: cs) = readSegments cs :=
    @readSegments_append '/' rfl ['.'] cs
  rw [ofChars_eq (by simp), hhops, hsegments]

/-- A canonical path is read back from the word that is written for it. -/
theorem ofWord_write {path : Path} (h : path.Canonical) : ofWord path.write = path := by
  obtain ⟨segments, hops, anchor⟩ := path
  obtain ⟨hmember, hsingle, hhops, hdata⟩ := h
  have hsegments := readSegments_intercalate hmember hsingle
  rw [ofWord, write, String.toList_append]
  -- Each anchor has a spelling of its own in front, and the segments are read back behind it.
  cases anchor with
  | root =>
    obtain rfl : hops = 0 := hhops (by simp)
    have hname : ¬ HasSeparator "root" := by decide
    have hstart : writeStart ⟨segments, 0, .root⟩ = "@root/" := rfl
    rw [hstart]
    show ofChars ('@' :: ("root".toList ++ '/' :: ("/".intercalate segments).toList)) = _
    rw [ofChars_at hname, hsegments]
    rfl
  | data name =>
    obtain rfl : hops = 0 := hhops (by simp)
    obtain ⟨hname, hroot⟩ := hdata name rfl
    have hstart : (writeStart ⟨segments, 0, .data name⟩).toList = '@' :: (name.toList ++ ['/']) := by
      rw [writeStart, String.toList_append, String.toList_append]
      rfl
    rw [hstart, List.cons_append, List.append_assoc, List.singleton_append, ofChars_at hname,
      hsegments, namedAnchor, if_neg hroot]
  | current =>
    cases hops with
    | zero =>
      have hstart : writeStart ⟨segments, 0, .current⟩ = "./" := rfl
      rw [hstart]
      show ofChars ('.' :: '/' :: ("/".intercalate segments).toList) = _
      rw [ofChars_here, hsegments]
    | succ hops =>
      have hparents := readHops_parents (readHops_intercalate hmember hsingle) (hops + 1)
      have hat : ((String.join (List.replicate (hops + 1) "../")).toList ++
          ("/".intercalate segments).toList).head? ≠ some '@' := by
        rw [toList_parents]
        simp
      show ofChars ((String.join (List.replicate (hops + 1) "../")).toList ++
        ("/".intercalate segments).toList) = _
      rw [ofChars_eq hat, hparents, hsegments]

end Path

/-- Every word denotes a canonical path. A canonical path is read back from the word that is written
for it, so these are all the paths that words denote, and writing the path of a word and reading it
again changes nothing. -/
theorem words_denote_canonical_paths :
    (∀ word, (Path.ofWord word).Canonical) ∧
      (∀ path : Path, path.Canonical → Path.ofWord path.write = path) ∧
      (∀ path : Path, path.Canonical ↔ ∃ word, Path.ofWord word = path) ∧
      ∀ word, Path.ofWord (Path.ofWord word).write = Path.ofWord word := by
  refine ⟨Path.canonical_ofWord, fun path => Path.ofWord_write, fun path => ?_, fun word => ?_⟩
  · constructor
    · exact fun hcanonical => ⟨path.write, Path.ofWord_write hcanonical⟩
    · rintro ⟨word, rfl⟩
      exact Path.canonical_ofWord word
  · exact Path.ofWord_write (Path.canonical_ofWord word)

/-- A member whose name begins with the at sign, two frames up, and a member of the loop variable
with an empty name. -/
theorem words_denote_canonical_paths_at :
    let climbing : Path := ⟨["@x", "y"], 2, .current⟩
    let nameless : Path := ⟨["a"], 0, .data ""⟩
    climbing.Canonical ∧ climbing.write = "../../@x/y" ∧ Path.ofWord climbing.write = climbing ∧
      nameless.Canonical ∧ nameless.write = "@/a" ∧ Path.ofWord nameless.write = nameless := by
  intro climbing nameless
  obtain ⟨-, hwritten, -, -⟩ := words_denote_canonical_paths
  have hclimbing : climbing.Canonical :=
    ⟨by decide, by decide, fun hanchor => absurd rfl hanchor, by rintro name ⟨⟩⟩
  have hnameless : nameless.Canonical := by
    refine ⟨by decide, by decide, fun _ => rfl, ?_⟩
    rintro name ⟨⟩
    exact ⟨by decide, by decide⟩
  exact ⟨hclimbing, by decide, hwritten climbing hclimbing, hnameless, by decide,
    hwritten nameless hnameless⟩

end BraceTemplate
