import BraceTemplate.MergedContext
import BraceTemplate.Proofs.Members
import Mathlib.Data.List.Nodup

/-!
# The names of merged contexts

A merged context lists a name once, in the spelling of the first value that has it. It finds the
members of objects only, up to case. `names_listed_and_found` says which of the names that are
listed are found, and what is found under them.
-/

namespace BraceTemplate

/-! ## Names of digits -/

namespace Text

/-- Nothing but a digit itself has the digit as its small letter. -/
theorem toLower_eq_iff_of_isDigit {c d : Char} (hd : d.isDigit = true) :
    c.toLower = d ↔ c = d := by
  simp only [Char.isDigit, Bool.and_eq_true, decide_eq_true_eq, ge_iff_le,
    UInt32.le_iff_toNat_le, Char.reduceVal, UInt32.reduceToNat] at hd
  show dite _ _ _ = d ↔ c = d
  split
  · next hcapital =>
    simp only [ge_iff_le, UInt32.le_iff_toNat_le, Char.reduceVal, UInt32.reduceToNat] at hcapital
    constructor
    · intro h
      have hval := congrArg (fun e : Char => e.val.toNat) h
      simp only [UInt32.toNat_add, Char.reduceVal, UInt32.reduceSub, UInt32.reduceToNat] at hval
      omega
    · rintro rfl
      omega
  · exact Iff.rfl

theorem map_toLower_eq_iff_of_isDigit {cs ds : List Char} (hds : ∀ d ∈ ds, d.isDigit = true) :
    cs.map Char.toLower = ds ↔ cs = ds := by
  induction ds generalizing cs with
  | nil => exact List.map_eq_nil_iff
  | cons d ds ih =>
    rw [List.forall_mem_cons] at hds
    cases cs with
    | nil => simp
    | cons c cs =>
      rw [List.map_cons, List.cons_eq_cons, List.cons_eq_cons, toLower_eq_iff_of_isDigit hds.1,
        ih hds.2]

/-- A name of digits is spelled in one way only. -/
theorem foldCase_eq_iff_of_isDigit {name other : String}
    (h : ∀ c ∈ name.toList, c.isDigit = true) : foldCase other = foldCase name ↔ other = name := by
  have hname : foldCase name = name.toList := (map_toLower_eq_iff_of_isDigit h).2 rfl
  rw [hname, foldCase, map_toLower_eq_iff_of_isDigit h, String.toList_inj]

end Text

namespace MergedContext

/-! ## The names of a merged context -/

/-- No two names are the same up to case. -/
def DistinctUpToCase (names : List String) : Prop :=
  (names.map Text.foldCase).Nodup

theorem any_sameUpToCase_iff {names : List String} {name : String} :
    (names.any (Text.sameUpToCase · name)) = true ↔
      Text.foldCase name ∈ names.map Text.foldCase := by
  rw [List.any_eq_true, List.mem_map]
  simp only [Text.sameUpToCase_iff]

theorem DistinctUpToCase.addName {names : List String} (h : DistinctUpToCase names)
    (name : String) : DistinctUpToCase (addName names name) := by
  rw [MergedContext.addName]
  split
  · exact h
  · next hnew =>
    rw [any_sameUpToCase_iff] at hnew
    rw [DistinctUpToCase, List.map_append, List.nodup_append]
    refine ⟨h, List.nodup_singleton _, ?_⟩
    rintro fold hfold _ hmem rfl
    exact hnew (List.mem_singleton.1 hmem ▸ hfold)

theorem mem_foldCase_addName {names : List String} {name : String} {fold : List Char} :
    fold ∈ (addName names name).map Text.foldCase ↔
      fold ∈ names.map Text.foldCase ∨ fold = Text.foldCase name := by
  rw [addName]
  split
  · next hold =>
    rw [any_sameUpToCase_iff] at hold
    exact (or_iff_left_of_imp fun heq => heq ▸ hold).symm
  · rw [List.map_append, List.mem_append, List.map_singleton, List.mem_singleton]

theorem DistinctUpToCase.foldl_addName {seen : List String} (h : DistinctUpToCase seen)
    (names : List String) : DistinctUpToCase (names.foldl MergedContext.addName seen) := by
  induction names generalizing seen with
  | nil => exact h
  | cons name names ih => exact ih (h.addName name)

theorem mem_foldCase_foldl_addName {seen names : List String} {fold : List Char} :
    fold ∈ (names.foldl addName seen).map Text.foldCase ↔
      fold ∈ seen.map Text.foldCase ∨ fold ∈ names.map Text.foldCase := by
  induction names generalizing seen with
  | nil => simp
  | cons name names ih =>
    rw [List.foldl_cons, ih, mem_foldCase_addName, List.map_cons, List.mem_cons, or_assoc]

variable (merged : MergedContext)

theorem distinctUpToCase_memberNames : DistinctUpToCase merged.memberNames :=
  have hempty : DistinctUpToCase [] := List.nodup_nil
  hempty.foldl_addName _

/-- Every name of one of the values is listed in some spelling. -/
theorem exists_mem_memberNames {value : Value} (hvalue : value ∈ merged.objects) {name : String}
    (hname : name ∈ value.memberNames) :
    ∃ spelling ∈ merged.memberNames, Text.foldCase spelling = Text.foldCase name := by
  refine List.mem_map.1 (mem_foldCase_foldl_addName.2 (.inr (List.mem_map_of_mem ?_)))
  exact List.mem_flatMap.2 ⟨value, hvalue, hname⟩

/-! ## The members of a merged context -/

variable {merged}

theorem findUpToCase?_cons (key : String) (value : Value) (members : Table Value)
    (name : String) :
    findUpToCase? ((key, value) :: members) name =
      if Text.foldCase key = Text.foldCase name then some value
      else findUpToCase? members name := by
  rw [findUpToCase?, List.find?_cons]
  by_cases hsame : Text.foldCase key = Text.foldCase name
  · rw [if_pos hsame, Text.sameUpToCase_iff.2 hsame]
    rfl
  · rw [if_neg hsame, Bool.eq_false_iff.2 (mt Text.sameUpToCase_iff.1 hsame)]
    rfl

/-- A member up to case is one of the members. -/
theorem mem_of_findUpToCase? {members : Table Value} {name : String} {value : Value}
    (h : findUpToCase? members name = some value) :
    ∃ key, (key, value) ∈ members ∧ Text.foldCase key = Text.foldCase name := by
  obtain ⟨⟨key, found⟩, hfound, rfl⟩ := Option.map_eq_some_iff.1 h
  refine ⟨key, List.mem_of_find?_eq_some hfound, ?_⟩
  have hsame : Text.sameUpToCase key name = true :=
    @List.find?_some _ (fun member : String × Value => Text.sameUpToCase member.1 name) _ _ hfound
  exact Text.sameUpToCase_iff.1 hsame

/-- A member that is found is listed, up to the case of its name. -/
theorem exists_mem_memberNames_of_memberOf? {name : String} {object value : Value}
    (h : memberOf? name object = some value) :
    ∃ key ∈ object.memberNames, Text.foldCase key = Text.foldCase name := by
  cases object with
  | object members =>
    have hkey : ∀ {key : String}, (key, value) ∈ members → key ∈ Table.keys members := fun hmem =>
      List.mem_map_of_mem hmem
    rcases Option.or_eq_some_iff.1 h with hexact | ⟨-, hcase⟩
    · exact ⟨name, hkey (Table.mem_of_find? hexact), rfl⟩
    · obtain ⟨key, hmem, hfold⟩ := mem_of_findUpToCase? hcase
      exact ⟨key, hkey hmem, hfold⟩
  | null => cases h
  | bool b => cases h
  | number n => cases h
  | string s => cases h
  | array items => cases h

/-- A name that is found is listed in one spelling. -/
theorem existsUnique_spelling {name : String} {value : Value}
    (h : merged.member? name = some value) :
    ∃! spelling, spelling ∈ merged.memberNames ∧
      Text.sameUpToCase spelling name = true := by
  obtain ⟨object, hobject, hmember⟩ := List.exists_of_findSome?_eq_some h
  obtain ⟨key, hkey, hfold⟩ := exists_mem_memberNames_of_memberOf? hmember
  obtain ⟨spelling, hspelling, hsame⟩ := merged.exists_mem_memberNames hobject hkey
  refine ⟨spelling, ⟨hspelling, Text.sameUpToCase_iff.2 (hsame.trans hfold)⟩, ?_⟩
  rintro other ⟨hother, hcase⟩
  have hinjective := List.inj_on_of_nodup_map merged.distinctUpToCase_memberNames
  exact hinjective hother hspelling
    ((Text.sameUpToCase_iff.1 hcase).trans (hsame.trans hfold).symm)

/-- Where no two names are the same up to case, there is no exact match but the match up to case. -/
theorem memberOf?_eq_findUpToCase? {members : Table Value}
    (h : DistinctUpToCase (Table.keys members)) (name : String) :
    memberOf? name (.object members) = findUpToCase? members name := by
  show (Table.find? members name).or (findUpToCase? members name) = findUpToCase? members name
  induction members with
  | nil => rfl
  | cons member members ih =>
    obtain ⟨key, value⟩ := member
    obtain ⟨hkey, hrest⟩ := List.nodup_cons.1 h
    have hcase := ih hrest
    rw [Table.find?_cons, findUpToCase?_cons]
    by_cases hsame : Text.foldCase key = Text.foldCase name
    -- Another key with this name would be a second spelling of it.
    · have hnone : Table.find? members name = none := by
        rw [← Option.not_isSome_iff_eq_none, Table.isSome_find?_iff]
        exact fun hmem => hkey (hsame ▸ List.mem_map_of_mem hmem)
      rw [hnone, if_pos hsame]
      split
      · rfl
      · rfl
    · rw [if_neg hsame, if_neg fun heq => hsame (congrArg Text.foldCase heq)]
      exact hcase

/-- No single object has two names that are the same up to case. -/
def ObjectsDistinct (merged : MergedContext) : Prop :=
  ∀ members, .object members ∈ merged.objects → DistinctUpToCase (Table.keys members)

/-- A merged context finds its members up to case. -/
theorem member?_congr (h : merged.ObjectsDistinct) {name other : String}
    (hsame : Text.sameUpToCase name other = true) : merged.member? name = merged.member? other := by
  have hmembers : merged.objects.map (memberOf? name) = merged.objects.map (memberOf? other) := by
    refine List.map_congr_left fun object hobject => ?_
    cases object with
    | object members =>
      have hdistinct := h members hobject
      rw [memberOf?_eq_findUpToCase? hdistinct, memberOf?_eq_findUpToCase? hdistinct, findUpToCase?,
        findUpToCase?]
      simp only [Text.sameUpToCase, Text.sameUpToCase_iff.1 hsame]
    | null => rfl
    | bool b => rfl
    | number n => rfl
    | string s => rfl
    | array items => rfl
  have hfirst := congrArg (List.findSome? id) hmembers
  rwa [List.findSome?_map, List.findSome?_map] at hfirst

/-! ## The first value that has a name -/

/-- A name that is added is one of the new names, and was not there up to case. -/
theorem mem_foldl_addName {seen names : List String} {name : String}
    (h : name ∈ names.foldl addName seen) :
    name ∈ seen ∨ name ∈ names ∧ Text.foldCase name ∉ seen.map Text.foldCase := by
  induction names generalizing seen with
  | nil => exact .inl h
  | cons first names ih =>
    rcases ih h with hadded | ⟨hmem, hnew⟩
    · rw [addName] at hadded
      split at hadded
      · exact .inl hadded
      · next hnew =>
        rw [any_sameUpToCase_iff] at hnew
        rcases List.mem_append.1 hadded with hseen | hfirst
        · exact .inl hseen
        · cases List.mem_singleton.1 hfirst
          exact .inr ⟨List.mem_cons_self, hnew⟩
    · exact .inr ⟨List.mem_cons_of_mem _ hmem, fun hseen =>
        hnew (mem_foldCase_addName.2 (.inl hseen))⟩

/-- The names that a value has, up to case. -/
def foldedNames (value : Value) : List (List Char) :=
  value.memberNames.map Text.foldCase

/-- A new name comes from the first value that has it up to case, as this value spells it. -/
theorem exists_first_of_mem {objects : List Value} {seen : List String} {name : String}
    (h : name ∈ (objects.flatMap Value.memberNames).foldl addName seen)
    (hnew : Text.foldCase name ∉ seen.map Text.foldCase) :
    ∃ before value after, objects = before ++ value :: after ∧ name ∈ value.memberNames ∧
      ∀ earlier ∈ before, Text.foldCase name ∉ foldedNames earlier := by
  induction objects generalizing seen with
  | nil => exact absurd (List.mem_map_of_mem h) hnew
  | cons value objects ih =>
    rw [List.flatMap_cons, List.foldl_append] at h
    by_cases hvalue : Text.foldCase name ∈ foldedNames value
    · refine ⟨[], value, objects, rfl, ?_, List.forall_mem_nil _⟩
      rcases mem_foldl_addName h with hadded | ⟨-, hlater⟩
      · exact ((mem_foldl_addName hadded).resolve_left fun hseen =>
          hnew (List.mem_map_of_mem hseen)).1
      · exact absurd (mem_foldCase_foldl_addName.2 (.inr hvalue)) hlater
    · have hrest : Text.foldCase name ∉ (value.memberNames.foldl addName seen).map Text.foldCase :=
        fun hmem => (mem_foldCase_foldl_addName.1 hmem).elim hnew hvalue
      obtain ⟨before, found, after, rfl, hname, hbefore⟩ := ih h hrest
      exact ⟨value :: before, found, after, rfl, hname, List.forall_mem_cons.2 ⟨hvalue, hbefore⟩⟩

/-- An object has a member under every name that it has up to case. -/
theorem isSome_memberOf?_iff {members : Table Value} {name : String} :
    (memberOf? name (.object members)).isSome = true ↔
      Text.foldCase name ∈ foldedNames (.object members) := by
  constructor
  · intro h
    obtain ⟨value, hvalue⟩ := Option.isSome_iff_exists.1 h
    exact List.mem_map.2 (exists_mem_memberNames_of_memberOf? hvalue)
  · intro h
    obtain ⟨key, hkey, hfold⟩ := List.mem_map.1 h
    obtain ⟨⟨key, value⟩, hmember, rfl⟩ := List.mem_map.1 hkey
    rw [memberOf?, Option.isSome_or, Bool.or_eq_true]
    refine .inr ?_
    rw [findUpToCase?, Option.isSome_map, List.find?_isSome]
    exact ⟨_, hmember, Text.sameUpToCase_iff.2 hfold⟩

theorem memberOf?_eq_none {value : Value} {name : String}
    (h : Text.foldCase name ∉ foldedNames value) : memberOf? name value = none := by
  rw [← Option.not_isSome_iff_eq_none]
  intro hfound
  obtain ⟨found, hfound⟩ := Option.isSome_iff_exists.1 hfound
  exact h (List.mem_map.2 (exists_mem_memberNames_of_memberOf? hfound))

/-! ## Names that are listed and names that are found -/

/-- Something is the member of a name in the first of some values that has the name up to case. -/
def IsFirstMember (values : List Value) (name : String) (found : Value) : Prop :=
  ∃ before value after, values = before ++ value :: after ∧ value.member? name = some found ∧
    ∀ earlier ∈ before, ∀ key ∈ earlier.memberNames, Text.sameUpToCase key name = false

/-- A value with named members, in contrast to an array. -/
def IsObject (value : Value) : Prop :=
  ∃ members, value = .object members

instance : DecidablePred IsObject
  | .object members => .isTrue ⟨members, rfl⟩
  | .null | .bool _ | .number _ | .string _ | .array _ => .isFalse nofun

theorem isObject_of_memberOf? {value found : Value} {name : String}
    (h : memberOf? name value = some found) : IsObject value := by
  cases value with
  | object members => exact ⟨members, rfl⟩
  | _ => cases h

theorem sameUpToCase_eq_false_of_not_mem {value : Value} {name : String}
    (h : Text.foldCase name ∉ foldedNames value) :
    ∀ key ∈ value.memberNames, Text.sameUpToCase key name = false := by
  intro key hkey
  rw [Bool.eq_false_iff, ne_eq, Text.sameUpToCase_iff]
  exact fun hfold => h (hfold ▸ List.mem_map_of_mem hkey)

/-- A merged context finds a name if one of its objects has it up to case. -/
theorem isSome_member?_iff (merged : MergedContext) (name : String) :
    (merged.member? name).isSome = true ↔ ∃ value ∈ merged.objects, IsObject value ∧
      ∃ key ∈ value.memberNames, Text.sameUpToCase key name = true := by
  simp only [Text.sameUpToCase_iff]
  rw [member?, List.findSome?_isSome_iff]
  refine exists_congr fun value => and_congr_right fun _ => ?_
  constructor
  · intro hsome
    obtain ⟨found, hfound⟩ := Option.isSome_iff_exists.1 hsome
    exact ⟨isObject_of_memberOf? hfound, exists_mem_memberNames_of_memberOf? hfound⟩
  · rintro ⟨⟨members, rfl⟩, hkey⟩
    exact isSome_memberOf?_iff.2 (List.mem_map.2 hkey)

/-- A name that is listed comes from an object, or is the name of an index. -/
theorem isObject_or_digits_of_mem {value : Value} {name : String} (h : name ∈ value.memberNames) :
    IsObject value ∨ (∃ items, value = .array items) ∧ ∀ c ∈ name.toList, c.isDigit = true := by
  cases value with
  | object members => exact .inl ⟨members, rfl⟩
  | array items =>
    obtain ⟨index, -, rfl⟩ := List.mem_map.1 h
    exact .inr ⟨⟨items, rfl⟩, Value.isDigit_of_mem_indexName index⟩
  | _ => cases h

/-- What is found under the exact name of an object that comes first is its member. -/
theorem member?_of_first {merged : MergedContext} {before after : List Value} {value : Value}
    {name : String} (hobjects : merged.objects = before ++ value :: after)
    (hobject : IsObject value) (hname : name ∈ value.memberNames)
    (hbefore : ∀ earlier ∈ before, memberOf? name earlier = none) :
    ∃ found, value.member? name = some found ∧ merged.member? name = some found := by
  obtain ⟨members, rfl⟩ := hobject
  have hsome := (Table.isSome_find?_iff members name).2 hname
  obtain ⟨found, hfound⟩ := Option.isSome_iff_exists.1 hsome
  refine ⟨found, hfound, ?_⟩
  rw [member?, hobjects, List.findSome?_append, List.findSome?_eq_none_iff.2 hbefore,
    Option.none_or, List.findSome?_cons_of_isSome]
  · rw [memberOf?, hfound, Option.some_or]
  · rw [memberOf?, hfound, Option.some_or]
    rfl

/-- The first value that has a listed name up to case. -/
theorem exists_first_of_mem_memberNames {merged : MergedContext} {name : String}
    (h : name ∈ merged.memberNames) : ∃ before value after,
      merged.objects = before ++ value :: after ∧ name ∈ value.memberNames ∧
      ∀ earlier ∈ before, Text.foldCase name ∉ foldedNames earlier :=
  exists_first_of_mem h List.not_mem_nil

/-- A name is listed up to case if it is found, or if an array has an item under it. -/
theorem exists_spelling_iff (merged : MergedContext) (name : String) :
    (∃ spelling ∈ merged.memberNames, Text.sameUpToCase spelling name = true) ↔
      (merged.member? name).isSome = true ∨ ∃ value ∈ merged.objects,
        (∃ items, value = .array items) ∧ name ∈ value.memberNames := by
  constructor
  · rintro ⟨spelling, hspelling, hsame⟩
    obtain ⟨before, value, after, hobjects, hname, -⟩ := exists_first_of_mem_memberNames hspelling
    have hvalue : value ∈ merged.objects := by simp [hobjects]
    -- A listed name is a key of an object or the index of an array; digits have no case.
    rcases isObject_or_digits_of_mem hname with hobject | ⟨harray, hdigits⟩
    · refine .inl ((isSome_member?_iff merged name).2 ?_)
      exact ⟨value, hvalue, hobject, spelling, hname, hsame⟩
    · have hfold := (Text.sameUpToCase_iff.1 hsame).symm
      have hequal := (Text.foldCase_eq_iff_of_isDigit hdigits).1 hfold
      exact .inr ⟨value, hvalue, harray, hequal ▸ hname⟩
  · rintro (hfound | ⟨value, hvalue, -, hname⟩)
    · obtain ⟨found, hfound⟩ := Option.isSome_iff_exists.1 hfound
      obtain ⟨spelling, hspelling, -⟩ := existsUnique_spelling hfound
      exact ⟨spelling, hspelling⟩
    · obtain ⟨spelling, hspelling, hfold⟩ := merged.exists_mem_memberNames hvalue hname
      exact ⟨spelling, hspelling, Text.sameUpToCase_iff.2 hfold⟩

/-- What is found under a listed name comes from an object that has this very name, and no object
before it has the name up to case. -/
theorem exists_object_of_member? {merged : MergedContext} {name : String} {found : Value}
    (hname : name ∈ merged.memberNames) (hfound : merged.member? name = some found) :
    ∃ before value after, merged.objects = before ++ value :: after ∧ IsObject value ∧
      name ∈ value.memberNames ∧ ∀ earlier ∈ before, memberOf? name earlier = none := by
  obtain ⟨before, value, after, hobjects, hmem, hbefore⟩ := exists_first_of_mem_memberNames hname
  rcases isObject_or_digits_of_mem hmem with hobject | ⟨-, hdigits⟩
  · exact ⟨before, value, after, hobjects, hobject, hmem, fun earlier hearlier =>
      memberOf?_eq_none (hbefore earlier hearlier)⟩
  · -- The name is listed for an array, but an object can spell its digits in no other way.
    obtain ⟨before, value, after, hobjects, hmember, hnone⟩ := List.findSome?_eq_some_iff.1 hfound
    obtain ⟨key, hkey, hfold⟩ := exists_mem_memberNames_of_memberOf? hmember
    obtain rfl : key = name := (Text.foldCase_eq_iff_of_isDigit hdigits).1 hfold
    exact ⟨before, value, after, hobjects, isObject_of_memberOf? hmember, hkey, hnone⟩

/-- A listed name that is found is the name of a member of the first object that has it. -/
theorem isFirstMember_filter {merged : MergedContext} {name : String} {found : Value}
    (hname : name ∈ merged.memberNames) (hfound : merged.member? name = some found) :
    IsFirstMember (merged.objects.filter IsObject) name found := by
  obtain ⟨before, value, after, hobjects, hobject, hmem, hnone⟩ :=
    exists_object_of_member? hname hfound
  obtain ⟨member, hmember, hsame⟩ := member?_of_first hobjects hobject hmem hnone
  obtain rfl : member = found := Option.some.inj (hsame.symm.trans hfound)
  refine ⟨before.filter IsObject, value, after.filter IsObject, ?_, hmember, ?_⟩
  · have hkept : decide (IsObject value) = true := decide_eq_true hobject
    rw [hobjects, List.filter_append, List.filter_cons, if_pos hkept]
  · intro earlier hearlier
    obtain ⟨hearlier, hearlierObject⟩ := List.mem_filter.1 hearlier
    obtain ⟨members, rfl⟩ := of_decide_eq_true hearlierObject
    apply sameUpToCase_eq_false_of_not_mem
    rw [← isSome_memberOf?_iff, hnone _ hearlier]
    exact Bool.false_ne_true

/-- Without items of arrays, a listed name is the name of a member of the first value that has it,
and this member is found. -/
theorem exists_isFirstMember {merged : MergedContext} {name : String}
    (hitems : ∀ items, .array items ∈ merged.objects → items = [])
    (hname : name ∈ merged.memberNames) :
    ∃ found, merged.member? name = some found ∧ IsFirstMember merged.objects name found := by
  obtain ⟨before, value, after, hobjects, hmem, hbefore⟩ := exists_first_of_mem_memberNames hname
  have hvalue : value ∈ merged.objects := by simp [hobjects]
  rcases isObject_or_digits_of_mem hmem with hobject | ⟨⟨items, rfl⟩, -⟩
  · obtain ⟨found, hmember, hfound⟩ := member?_of_first hobjects hobject hmem
      fun earlier hearlier => memberOf?_eq_none (hbefore earlier hearlier)
    exact ⟨found, hfound, before, value, after, hobjects, hmember, fun earlier hearlier =>
      sameUpToCase_eq_false_of_not_mem (hbefore earlier hearlier)⟩
  · cases hitems items hvalue
    cases hmem

/-- A merged context lists no name twice up to case. A name is found if one of the objects has it up
to case. It is listed if it is found, and the names of the indices of arrays are listed as well. A
listed name that is found leads to the member of the first object that has it. If no array has
items, the names that are listed are those that are found, and lead to the members of the first
values that have them. -/
theorem names_listed_and_found (merged : MergedContext) :
    DistinctUpToCase merged.memberNames ∧
      (∀ name, (merged.member? name).isSome = true ↔ ∃ value ∈ merged.objects, IsObject value ∧
        ∃ key ∈ value.memberNames, Text.sameUpToCase key name = true) ∧
      (∀ name, (∃ spelling ∈ merged.memberNames, Text.sameUpToCase spelling name = true) ↔
        (merged.member? name).isSome = true ∨ ∃ value ∈ merged.objects,
          (∃ items, value = .array items) ∧ name ∈ value.memberNames) ∧
      (∀ name ∈ merged.memberNames, ∀ found, merged.member? name = some found →
        IsFirstMember (merged.objects.filter IsObject) name found) ∧
      ((∀ items, .array items ∈ merged.objects → items = []) →
        (∀ name, (merged.member? name).isSome = true ↔
          ∃ spelling ∈ merged.memberNames, Text.sameUpToCase spelling name = true) ∧
        ∀ name ∈ merged.memberNames, ∃ found, merged.member? name = some found ∧
          IsFirstMember merged.objects name found) := by
  refine ⟨merged.distinctUpToCase_memberNames, isSome_member?_iff merged,
    exists_spelling_iff merged, fun name hname found => isFirstMember_filter hname,
    fun hitems => ⟨fun name => ?_, fun name => exists_isFirstMember hitems⟩⟩
  -- Only arrays list a name that is not found, and here they are empty.
  rw [exists_spelling_iff, iff_self_or]
  rintro ⟨value, hvalue, ⟨items, rfl⟩, hname⟩
  cases hitems items hvalue
  cases hname

/-- Of two objects with a name in different spellings, the first one gives the spelling that is
listed and the value that is found. -/
theorem names_listed_and_found_objects :
    let first : Value := .object [("Name", .string "x")]
    let second : Value := .object [("city", .string "z"), ("name", .string "y")]
    let merged : MergedContext := ⟨[.null, .array [], first, second]⟩
    merged.memberNames = ["Name", "city"] ∧ merged.member? "Name" = some (.string "x") ∧
      (∀ items, .array items ∈ merged.objects → items = []) ∧
      IsFirstMember [first, second] "Name" (.string "x") ∧
      ∃ found, merged.member? "city" = some found ∧ IsFirstMember merged.objects "city" found := by
  intro first second merged
  obtain ⟨-, -, -, hfirst, hfull⟩ := names_listed_and_found merged
  have hitems : ∀ items, .array items ∈ merged.objects → items = [] := by
    intro items hmem
    simp only [merged, first, second, List.mem_cons, reduceCtorEq, false_or, or_false,
      Value.array.injEq, List.not_mem_nil] at hmem
    exact hmem
  have hnames : merged.memberNames = ["Name", "city"] := by decide
  have hname : "Name" ∈ merged.memberNames := hnames ▸ List.mem_cons_self
  have hcity : "city" ∈ merged.memberNames := hnames ▸ List.mem_cons_of_mem _ List.mem_cons_self
  exact ⟨hnames, rfl, hitems, hfirst "Name" hname _ rfl, (hfull hitems).2 "city" hcity⟩

/-- The index of an item of an array is listed, but not found. -/
theorem exists_listed_not_found :
    let merged : MergedContext := ⟨[.array [.string "a"]]⟩
    "0" ∈ merged.memberNames ∧ merged.member? "0" = none := by
  decide

end MergedContext

end BraceTemplate
