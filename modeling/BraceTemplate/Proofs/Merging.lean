import BraceTemplate.Proofs.Rendering.Merged

/-!
# Merging contexts

Merged contexts can be merged themselves. Names are looked up in the values of the first context
before those of the second one, which is `earlier_values_win`. The object that a merged context stands
for has, for each name, the first member of all objects whose name is the same up to case, so it can
stand in for the values that it was made of: `toValue_flattens`.
-/

namespace BraceTemplate

namespace Table

variable {α : Type} {table other : Table α}

theorem Ordered.mem_iff (h : table.Ordered) {name : String} {value : α} :
    (name, value) ∈ table ↔ table.find? name = some value :=
  ⟨find?_of_mem h, mem_of_find?⟩

/-- Ordered tables in which the same is found are the same. -/
theorem Ordered.ext (h : table.Ordered) (hother : other.Ordered)
    (hfind : ∀ name, table.find? name = other.find? name) : table = other := by
  have hnodup : ∀ {table : Table α}, table.Ordered → table.Nodup := fun h =>
    List.Nodup.of_map Prod.fst h.nodup_keys
  have hperm : table.Perm other := by
    refine (List.perm_ext_iff_of_nodup (hnodup h) (hnodup hother)).2 ?_
    rintro ⟨name, value⟩
    rw [h.mem_iff, hother.mem_iff, hfind]
  refine List.Perm.eq_of_pairwise ?_ h hother hperm
  intro first second _ _ hlt hgt
  exact absurd (String.lt_trans hlt hgt) (String.lt_irrefl _)

end Table

namespace MergedContext

variable {merged other : MergedContext} {name key : String} {value found : Value}

/-! ## The first member under a name -/

/-- The members of an object. -/
def objectMembers : Value → Table Value
  | .object members => members
  | _ => []

/-- The members of all objects, one object after the other. -/
def allMembers (merged : MergedContext) : Table Value :=
  merged.objects.flatMap objectMembers

/-- The first of some members that has a name up to case. -/
def firstMember? (members : Table Value) (name : String) : Option (String × Value) :=
  List.find? (fun member => Text.sameUpToCase member.1 name) members

theorem firstMember?_append (members others : Table Value) (name : String) :
    firstMember? (members ++ others) name =
      (firstMember? members name).or (firstMember? others name) :=
  List.find?_append

theorem firstMember?_congr (h : Text.foldCase key = Text.foldCase name) (members : Table Value) :
    firstMember? members key = firstMember? members name := by
  simp only [firstMember?, Text.sameUpToCase, h]

theorem mem_of_firstMember? {members : Table Value} {member : String × Value}
    (h : firstMember? members name = some member) :
    member ∈ members ∧ Text.foldCase member.1 = Text.foldCase name := by
  refine ⟨List.mem_of_find?_eq_some h, Text.sameUpToCase_iff.1 ?_⟩
  exact List.find?_some (p := fun member : String × Value => Text.sameUpToCase member.1 name) h

theorem isSome_firstMember?_iff {members : Table Value} :
    (firstMember? members name).isSome = true ↔
      ∃ member ∈ members, Text.foldCase member.1 = Text.foldCase name := by
  rw [firstMember?, List.find?_isSome]
  simp only [Text.sameUpToCase_iff]

/-- If the first member under a name up to case has the very name, it is found under it. -/
theorem find?_of_firstMember? {members : Table Value}
    (h : firstMember? members name = some (name, value)) : Table.find? members name = some value := by
  induction members with
  | nil => cases h
  | cons member members ih =>
    obtain ⟨key, first⟩ := member
    rw [firstMember?, List.find?_cons] at h
    rw [Table.find?_cons]
    split at h
    · cases h
      exact if_pos rfl
    · next hdiffers =>
      have hkey : key ≠ name := by
        rintro rfl
        rw [Text.sameUpToCase_iff.2 rfl] at hdiffers
        cases hdiffers
      rw [if_neg hkey]
      exact ih h

theorem memberOf?_eq_none_of_firstMember? {members : Table Value}
    (h : firstMember? members name = none) : memberOf? name (.object members) = none := by
  refine memberOf?_eq_none fun hmem => ?_
  obtain ⟨key, hkey, hfold⟩ := List.mem_map.1 hmem
  obtain ⟨member, hmember, rfl⟩ := List.mem_map.1 hkey
  have hsome := isSome_firstMember?_iff.2 ⟨member, hmember, hfold⟩
  rw [h] at hsome
  cases hsome

/-- A merged context finds the first member of its objects, if that has the very name. -/
theorem member?_of_firstMember? (h : firstMember? merged.allMembers name = some (name, value)) :
    merged.member? name = some value := by
  obtain ⟨objects⟩ := merged
  show objects.findSome? (memberOf? name) = some value
  -- Up to the object with the first member, no object has the name in any spelling.
  induction objects with
  | nil => cases h
  | cons object objects ih =>
    rw [List.findSome?_cons]
    cases object with
    | object members =>
      rcases Option.or_eq_some_iff.1 ((firstMember?_append members _ name).symm.trans h) with
        hfirst | ⟨hnone, hlater⟩
      · rw [memberOf?, find?_of_firstMember? hfirst]
        rfl
      · rw [memberOf?_eq_none_of_firstMember? hnone]
        exact ih hlater
    | null => exact ih h
    | bool b => exact ih h
    | number n => exact ih h
    | string s => exact ih h
    | array items => exact ih h

theorem exists_firstMember? (h : merged.member? name = some found) :
    ∃ member, firstMember? merged.allMembers name = some member := by
  obtain ⟨object, hobject, hmember⟩ := List.exists_of_findSome?_eq_some h
  obtain ⟨members, rfl⟩ := isObject_of_memberOf? hmember
  obtain ⟨key, hkey, hfold⟩ := exists_mem_memberNames_of_memberOf? hmember
  obtain ⟨member, hmem, rfl⟩ := List.mem_map.1 hkey
  refine Option.isSome_iff_exists.1 (isSome_firstMember?_iff.2 ⟨member, ?_, hfold⟩)
  exact List.mem_flatMap.2 ⟨_, hobject, hmem⟩

/-! ## The spelling that is listed -/

theorem foldCase_of_find? {names : List String} {spelling : String}
    (h : names.find? (Text.sameUpToCase · name) = some spelling) :
    Text.foldCase spelling = Text.foldCase name :=
  Text.sameUpToCase_iff.1 (List.find?_some (p := (Text.sameUpToCase · name)) h)

/-- A name is found as if the new one had been appended: a name left out has an earlier spelling. -/
theorem find?_addName (names : List String) (new name : String) :
    (addName names new).find? (Text.sameUpToCase · name) =
      (names ++ [new]).find? (Text.sameUpToCase · name) := by
  rw [addName]
  split
  · next hold =>
    obtain ⟨old, hmem, hsame⟩ := List.any_eq_true.1 hold
    rw [List.find?_append]
    cases hfound : names.find? (Text.sameUpToCase · name) with
    | some spelling => rfl
    | none =>
      have hdiffers := List.find?_eq_none.1 hfound old hmem
      rw [Text.sameUpToCase_iff, Text.sameUpToCase_iff.1 hsame, ← Text.sameUpToCase_iff] at hdiffers
      simp [hdiffers]
  · rfl

/-- Names that are added keep the first spelling of each name. -/
theorem find?_foldl_addName (seen names : List String) (name : String) :
    (names.foldl addName seen).find? (Text.sameUpToCase · name) =
      (seen ++ names).find? (Text.sameUpToCase · name) := by
  induction names generalizing seen with
  | nil => rw [List.foldl_nil, List.append_nil]
  | cons new names ih =>
    rw [List.foldl_cons, ih, List.find?_append, find?_addName, ← List.find?_append,
      List.append_assoc, List.singleton_append]

/-- A name is listed if it is the first spelling of the name among the names of all values. -/
theorem mem_memberNames_iff : name ∈ merged.memberNames ↔
    (merged.objects.flatMap Value.memberNames).find? (Text.sameUpToCase · name) = some name := by
  have hfind : merged.memberNames.find? (Text.sameUpToCase · name) =
      (merged.objects.flatMap Value.memberNames).find? (Text.sameUpToCase · name) :=
    find?_foldl_addName [] _ name
  rw [← hfind]
  constructor
  · intro hname
    have hsome : (merged.memberNames.find? (Text.sameUpToCase · name)).isSome = true :=
      List.find?_isSome.2 ⟨name, hname, Text.sameUpToCase_iff.2 rfl⟩
    obtain ⟨spelling, hspelling⟩ := Option.isSome_iff_exists.1 hsome
    have hsame := foldCase_of_find? hspelling
    have hinjective := List.inj_on_of_nodup_map merged.distinctUpToCase_memberNames
    rw [hspelling, hinjective (List.mem_of_find?_eq_some hspelling) hname hsame]
  · exact List.mem_of_find?_eq_some

/-- The name of the first member of all objects is the first spelling of the name. Arrays do not get
in between, because the names of indices have one spelling. -/
theorem find?_memberNames_of_firstMember? {objects : List Value}
    (h : firstMember? (objects.flatMap objectMembers) name = some (key, value)) :
    (objects.flatMap Value.memberNames).find? (Text.sameUpToCase · name) = some key := by
  induction objects with
  | nil => cases h
  | cons object objects ih =>
    rw [List.flatMap_cons, List.find?_append]
    rw [List.flatMap_cons, firstMember?_append] at h
    cases object with
    | object members =>
      have hkeys : (Value.object members).memberNames.find? (Text.sameUpToCase · name) =
          (firstMember? members name).map Prod.fst := List.find?_map
      rw [hkeys]
      rcases Option.or_eq_some_iff.1 h with hfirst | ⟨hnone, hlater⟩
      · rw [show firstMember? members name = some (key, value) from hfirst]
        rfl
      · rw [show firstMember? members name = none from hnone]
        exact ih hlater
    | array items =>
      cases hindex : (Value.array items).memberNames.find? (Text.sameUpToCase · name) with
      | none => exact ih h
      | some spelling =>
        -- An index that agrees with the key up to case is the key: digits have no case.
        obtain ⟨index, -, rfl⟩ := List.mem_map.1 (List.mem_of_find?_eq_some hindex)
        have hfold := (mem_of_firstMember? h).2.trans (foldCase_of_find? hindex).symm
        obtain rfl : key = Value.indexName index :=
          (Text.foldCase_eq_iff_of_isDigit (Value.isDigit_of_mem_indexName index)).1 hfold
        rfl
    | null => exact ih h
    | bool b => exact ih h
    | number n => exact ih h
    | string s => exact ih h

/-! ## The object of a merged context -/

/-- The object that a merged context stands for has the first members of all objects. -/
theorem member?_toValue_eq_some_iff : merged.toValue.member? name = some value ↔
    firstMember? merged.allMembers name = some (name, value) := by
  rw [member?_toValue]
  constructor
  · intro h
    obtain ⟨hlisted, hvalue⟩ := Option.ite_none_right_eq_some.1 h
    obtain ⟨⟨key, first⟩, hfirst⟩ := exists_firstMember? hvalue
    have hkey := find?_memberNames_of_firstMember? hfirst
    rw [mem_memberNames_iff.1 hlisted] at hkey
    cases hkey
    rw [member?_of_firstMember? hfirst] at hvalue
    cases hvalue
    exact hfirst
  · intro h
    rw [if_pos (mem_memberNames_iff.2 (find?_memberNames_of_firstMember? h))]
    exact member?_of_firstMember? h

/-- The first member under a name is the same in the object of a merged context as in its objects. -/
theorem firstMember?_toValue (merged : MergedContext) (name : String) :
    firstMember? (objectMembers merged.toValue) name = firstMember? merged.allMembers name := by
  -- The merged object has exactly one member for each name, the first one in the list.
  have hmember : ∀ {key value}, (key, value) ∈ objectMembers merged.toValue ↔
      firstMember? merged.allMembers key = some (key, value) := fun {key value} =>
    (Table.Ordered.mem_iff (Table.ordered_ofPairs _)).trans member?_toValue_eq_some_iff
  have hfirst : ∀ {member}, firstMember? (objectMembers merged.toValue) name = some member →
      firstMember? merged.allMembers name = some member := by
    intro member h
    obtain ⟨hmem, hfold⟩ := mem_of_firstMember? h
    rw [← firstMember?_congr hfold]
    exact hmember.1 hmem
  cases h : firstMember? merged.allMembers name with
  | none =>
    rw [Option.eq_none_iff_forall_ne_some]
    intro member hsome
    rw [hfirst hsome] at h
    cases h
  | some member =>
    obtain ⟨-, hfold⟩ := mem_of_firstMember? h
    have hmem := hmember.2 ((firstMember?_congr hfold _).trans h)
    obtain ⟨other, hother⟩ :=
      Option.isSome_iff_exists.1 (isSome_firstMember?_iff.2 ⟨member, hmem, hfold⟩)
    rw [hother, ← h, hfirst hother]

/-- Merged contexts with the same first members stand for the same object. -/
theorem toValue_congr
    (h : ∀ name, firstMember? merged.allMembers name = firstMember? other.allMembers name) :
    merged.toValue = other.toValue := by
  refine congrArg Value.object
    (Table.Ordered.ext (Table.ordered_ofPairs _) (Table.ordered_ofPairs _) fun name => ?_)
  refine Option.ext fun value => ?_
  show merged.toValue.member? name = some value ↔ other.toValue.member? name = some value
  rw [member?_toValue_eq_some_iff, member?_toValue_eq_some_iff, h]

/-- In the values of a merged context, a merged context can be put in place of its values. -/
theorem toValue_append (xs ys zs : List Value) :
    toValue ⟨xs ++ [toValue ⟨ys⟩] ++ zs⟩ = toValue ⟨xs ++ ys ++ zs⟩ := by
  refine toValue_congr fun name => ?_
  simp only [allMembers, List.flatMap_append, List.flatMap_singleton, firstMember?_append,
    firstMember?_toValue]

/-- A value that is no object makes no difference. -/
theorem toValue_append_of_not_isObject (h : ¬ IsObject value) (xs zs : List Value) :
    toValue ⟨xs ++ [value] ++ zs⟩ = toValue ⟨xs ++ zs⟩ := by
  have hnone : objectMembers value = [] := by
    cases value with
    | object members => exact absurd ⟨members, rfl⟩ h
    | _ => rfl
  refine toValue_congr fun name => ?_
  simp only [allMembers, List.flatMap_append, List.flatMap_singleton, hnone, List.append_nil]

/-- The members of the object that a merged context stands for are found in the merged context. -/
theorem exists_member?_of_mem_memberNames (h : name ∈ merged.toValue.memberNames) :
    ∃ value, merged.toValue.member? name = some value ∧ merged.member? name = some value := by
  obtain ⟨value, hvalue⟩ := Option.isSome_iff_exists.1 ((Table.isSome_find?_iff _ name).2 h)
  exact ⟨value, hvalue, member?_of_firstMember? (member?_toValue_eq_some_iff.1 hvalue)⟩

/-- Merging is associative: the object of a merged context can be merged with other values in place of
the values that it was made of. An object that was merged already stays as it is, values that are no
objects contribute nothing, and each member of the object is what is found under its name. -/
theorem toValue_flattens (xs ys zs : List Value) :
    toValue ⟨xs ++ [toValue ⟨ys⟩] ++ zs⟩ = toValue ⟨xs ++ ys ++ zs⟩ ∧
      toValue ⟨[toValue ⟨ys⟩]⟩ = toValue ⟨ys⟩ ∧
      (push ⟨xs⟩ (toValue ⟨ys⟩)).toValue = (ys.foldl push ⟨xs⟩).toValue ∧
      (∀ value, ¬ IsObject value → toValue ⟨xs ++ [value] ++ zs⟩ = toValue ⟨xs ++ zs⟩) ∧
      ∀ name ∈ (toValue ⟨xs⟩).memberNames, ∃ value,
        (toValue ⟨xs⟩).member? name = some value ∧ member? ⟨xs⟩ name = some value := by
  have hpush : ∀ xs : List Value, ys.foldl push ⟨xs⟩ = ⟨xs ++ ys⟩ := by
    induction ys with
    | nil => exact fun xs => congrArg mk (List.append_nil xs).symm
    | cons value ys ih =>
      intro xs
      rw [List.foldl_cons, push, ih, List.append_assoc, List.singleton_append]
  refine ⟨toValue_append xs ys zs, ?_, ?_, ?_, ?_⟩
  · simpa using toValue_append [] ys []
  · rw [hpush, push]
    simpa using toValue_append xs ys []
  · exact fun value hvalue => toValue_append_of_not_isObject hvalue xs zs
  · exact fun name hname => exists_member?_of_mem_memberNames hname

/-- Of two spellings in one object the first one goes on, and a number listed for an array does not
hide the member of a later object. -/
theorem toValue_flattens_spellings :
    let first : Value := .object [("a", .null)]
    let second : Value := .object [("0", .null), ("Name", .string "x"), ("name", .string "y")]
    let items : Value := .array [.null]
    ¬ IsObject items ∧ "Name" ∈ (toValue ⟨[items, second]⟩).memberNames ∧
      toValue ⟨[items, second]⟩ = .object [("0", .null), ("Name", .string "x")] ∧
      toValue ⟨[items, second, first]⟩ = toValue ⟨[items, second] ++ [items] ++ [first]⟩ ∧
      ∃ value, (toValue ⟨[items, second]⟩).member? "Name" = some value ∧
        member? ⟨[items, second]⟩ "Name" = some value := by
  intro first second items
  obtain ⟨-, -, -, hskip, hmembers⟩ := toValue_flattens [items, second] [] [first]
  have hitems : ¬ IsObject items := by decide
  have hvalue : toValue ⟨[items, second]⟩ = .object [("0", .null), ("Name", .string "x")] := rfl
  have hname : "Name" ∈ (toValue ⟨[items, second]⟩).memberNames := by
    rw [hvalue]
    decide
  exact ⟨hitems, hname, hvalue, (hskip items hitems).symm, hmembers "Name" hname⟩

/-! ## Looking up names -/

/-- What the first values have goes before what later values have. -/
theorem member?_append (xs ys : List Value) (name : String) :
    member? ⟨xs ++ ys⟩ name = (member? ⟨xs⟩ name).or (member? ⟨ys⟩ name) :=
  List.findSome?_append

theorem isSome_member?_congr (merged : MergedContext)
    (h : Text.sameUpToCase name key = true) :
    (merged.member? name).isSome = (merged.member? key).isSome := by
  rw [Bool.eq_iff_iff, isSome_member?_iff, isSome_member?_iff]
  simp only [Text.sameUpToCase_iff, Text.sameUpToCase_iff.1 h]

/-- Names are looked up in the first values before the later ones, so that a value that is added does
not change what is found already. Whether a name is found does not depend on its case, and if no
single object has two names that are the same up to case, what is found does not either. -/
theorem earlier_values_win (xs ys : List Value) (name : String) :
    member? ⟨xs ++ ys⟩ name = (member? ⟨xs⟩ name).or (member? ⟨ys⟩ name) ∧
      (∀ found, member? ⟨xs⟩ name = some found → ∀ value, (push ⟨xs⟩ value).member? name = some found) ∧
      ∀ asked, Text.sameUpToCase name asked = true →
        ((member? ⟨xs⟩ name).isSome = true ↔ (member? ⟨xs⟩ asked).isSome = true) ∧
        (ObjectsDistinct ⟨xs⟩ → member? ⟨xs⟩ name = member? ⟨xs⟩ asked) := by
  refine ⟨member?_append xs ys name, fun found hfound value => ?_, fun asked hsame => ⟨?_, ?_⟩⟩
  · rw [push, member?_append, hfound, Option.some_or]
  · rw [isSome_member?_congr ⟨xs⟩ hsame]
  · exact fun hdistinct => member?_congr hdistinct hsame

/-- A member stays although a later object spells its name as it is asked for. -/
theorem earlier_values_win_spelling :
    let first : Value := .object [("NAME", .string "x")]
    let second : Value := .object [("name", .string "y")]
    member? ⟨[first]⟩ "name" = some (.string "x") ∧
      (push ⟨[first]⟩ second).member? "name" = some (.string "x") ∧
      Text.sameUpToCase "name" "Name" = true ∧ ObjectsDistinct ⟨[first]⟩ ∧
      member? ⟨[first]⟩ "name" = member? ⟨[first]⟩ "Name" := by
  intro first second
  have hfound : member? ⟨[first]⟩ "name" = some (.string "x") := rfl
  have hdistinct : ObjectsDistinct ⟨[first]⟩ := by
    intro members hmem
    obtain rfl := Value.object.inj (List.mem_singleton.1 hmem)
    exact List.nodup_singleton _
  obtain ⟨-, hkept, hcase⟩ := earlier_values_win [first] [second] "name"
  exact ⟨hfound, hkept _ hfound second, rfl, hdistinct, (hcase "Name" rfl).2 hdistinct⟩

end MergedContext

end BraceTemplate
