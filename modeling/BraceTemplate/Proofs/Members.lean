import BraceTemplate.Value
import Mathlib.Data.List.Induction
import Mathlib.Data.List.Nodup
import Mathlib.Data.Nat.Digits.Defs

/-!
# Members of values

The names of the members of a value lead to these members, in the same order: the name of an index
reads back as the index, and the ordered names of an object are all different. An object has no other
names. An array has an item under every numeral for its index, and `names_lead_to_members` puts all
this together.
-/

namespace BraceTemplate

/-! ## Tables -/

/-- A member of an ordered table is found under its name. -/
theorem Table.find?_of_mem {α : Type} {table : Table α} (h : table.Ordered) {name : String}
    {value : α} (hmem : (name, value) ∈ table) : table.find? name = some value := by
  induction table with
  | nil => cases hmem
  | cons entry rest ih =>
    obtain ⟨key, first⟩ := entry
    obtain ⟨hfirst, hrest⟩ := List.pairwise_cons.1 h
    rw [find?_cons]
    rcases List.mem_cons.1 hmem with heq | hmem
    · cases heq
      exact if_pos rfl
    · rw [if_neg, ih hrest hmem]
      rintro rfl
      exact String.lt_irrefl key (hfirst _ hmem)

theorem Table.Ordered.nodup_keys {α : Type} {table : Table α} (h : table.Ordered) :
    table.keys.Nodup := by
  refine List.pairwise_map.2 (List.Pairwise.imp (fun {first second} hlt heq => ?_) h)
  rw [heq] at hlt
  exact String.lt_irrefl _ hlt

namespace Value

/-- What data comes as: an array has no more items than there are indices, and the names of the
members of an object stand in order. -/
def IsData : Value → Prop
  | .array items => items.length ≤ indexBound
  | .object members => Table.Ordered members
  | _ => True

/-! ## Numerals -/

/-- The number that a row of decimal digits denotes, the last digit counting ones. -/
def decimal (digits : List Char) : Nat :=
  Nat.ofDigits 10 (digits.reverse.map Text.digitValue)

/-- A name is made of ASCII digits, at least one of them, with or without one plus sign before them. -/
def IsNumeral (name : String) (digits : List Char) : Prop :=
  (name.toList = digits ∨ name.toList = '+' :: digits) ∧ digits ≠ [] ∧ ∀ c ∈ digits, c.isDigit = true

theorem continueNumber_eq_decimal (digits : List Char) :
    Text.continueNumber 0 digits = decimal digits := by
  induction digits using List.reverseRecOn with
  | nil => rfl
  | append_singleton digits c ih =>
    rw [Text.continueNumber_append, ih, decimal, decimal, List.reverse_concat, List.map_cons,
      Nat.ofDigits_cons, Nat.add_comm]
    rfl

/-- A numeral is read as the number that its digits denote, unless this number is no index. -/
theorem readIndex_of_isNumeral {name : String} {digits : List Char} (h : IsNumeral name digits) :
    readIndex name = if decimal digits < indexBound then some (decimal digits) else none := by
  obtain ⟨hname, hne, hdigits⟩ := h
  have hread : Text.readDigits digits = some (decimal digits) :=
    Text.readDigits_eq_some_iff.2 ⟨hne, hdigits, continueNumber_eq_decimal digits⟩
  have hfilter : (Text.readDigits digits).filter (· < indexBound) =
      if decimal digits < indexBound then some (decimal digits) else none := by
    rw [hread, Option.filter_some]
    simp only [decide_eq_true_eq]
  rw [readIndex]
  rcases hname with hname | hname
  · -- A sign is not a digit, so a name of digits has none.
    rw [hname]
    split
    · next sign => cases hdigits '+' List.mem_cons_self
    · exact hfilter
  · rw [hname]
    exact hfilter

/-- Nothing but a numeral is read as an index. -/
theorem exists_isNumeral_of_readIndex {name : String} {index : Nat}
    (h : readIndex name = some index) : ∃ digits, IsNumeral name digits := by
  rw [readIndex] at h
  obtain ⟨hread, -⟩ := Option.filter_eq_some_iff.1 h
  obtain ⟨hne, hdigits, -⟩ := Text.readDigits_eq_some_iff.1 hread
  split at hne
  · next digits hname =>
    rw [hname] at hdigits
    exact ⟨digits, .inr hname, hne, hdigits⟩
  · next hsign =>
    refine ⟨name.toList, .inl rfl, hne, ?_⟩
    split at hdigits
    · next digits hname => exact absurd hname (hsign digits)
    · exact hdigits

/-! ## Names of indices -/

theorem isDigit_of_mem_indexName (index : Nat) :
    ∀ c ∈ (indexName index).toList, c.isDigit = true := by
  intro c hmem
  rw [indexName, String.toList_ofList] at hmem
  exact Nat.isDigit_of_mem_toDigits (by decide) (by decide) hmem

theorem decimal_indexName (index : Nat) : decimal (indexName index).toList = index := by
  rw [← continueNumber_eq_decimal, indexName, String.toList_ofList]
  exact Nat.ofDigitChars_toDigits (by decide) (by decide)

theorem isNumeral_indexName (index : Nat) : IsNumeral (indexName index) (indexName index).toList := by
  refine ⟨.inl rfl, ?_, isDigit_of_mem_indexName index⟩
  rw [indexName, String.toList_ofList]
  exact Nat.toDigits_ne_nil

theorem indexName_injective : Function.Injective indexName := by
  intro first second h
  rw [← decimal_indexName first, h, decimal_indexName]

/-- The name of an index is read as that index. -/
theorem readIndex_indexName {index : Nat} (h : index < indexBound) :
    readIndex (indexName index) = some index := by
  rw [readIndex_of_isNumeral (isNumeral_indexName index), decimal_indexName, if_pos h]

/-- The name of an index leads to the item at the index. -/
theorem member?_indexName (items : List Value) {index : Nat} (h : index < indexBound) :
    (Value.array items).member? (indexName index) = items[index]? := by
  rw [member?, readIndex_indexName h, Option.bind_some]

/-! ## Names and members -/

/-- The members of a value: those of an object in the order of their names, or the items of an
array. -/
def members : Value → List Value
  | .object members => members.map Prod.snd
  | .array items => items
  | _ => []

theorem nodup_memberNames {value : Value} (hdata : value.IsData) : value.memberNames.Nodup := by
  cases value with
  | object members => exact Table.Ordered.nodup_keys hdata
  | array items => exact List.nodup_range.map indexName_injective
  | _ => exact List.nodup_nil

/-- The names of a value lead to its members, one by one. -/
theorem map_member?_memberNames {value : Value} (hdata : value.IsData) :
    value.memberNames.map value.member? = value.members.map some := by
  cases value with
  | object members =>
    rw [memberNames, Value.members, Table.keys, List.map_map, List.map_map]
    exact List.map_congr_left fun member hmember => Table.find?_of_mem hdata hmember
  | array items =>
    rw [memberNames, Value.members, List.map_map]
    apply List.ext_getElem
    · simp
    · intro index hindex hitem
      have hlt : index < items.length := by simpa using hitem
      have hmember := member?_indexName items (Nat.lt_of_lt_of_le hlt hdata)
      simpa [hlt] using hmember
  | _ => rfl

/-- An array leads from a numeral to the item at the number that it denotes, if there is one. -/
theorem member?_of_isNumeral {items : List Value} (hlen : items.length ≤ indexBound) {name : String}
    {digits : List Char} (h : IsNumeral name digits) :
    (Value.array items).member? name = items[decimal digits]? := by
  rw [member?, readIndex_of_isNumeral h]
  split
  · rfl
  · next hlarge =>
    rw [List.getElem?_eq_none (by omega)]
    rfl

theorem isSome_member?_array_iff {items : List Value} (hlen : items.length ≤ indexBound)
    (name : String) : ((Value.array items).member? name).isSome = true ↔
      ∃ digits, IsNumeral name digits ∧ decimal digits < items.length := by
  constructor
  · intro h
    obtain ⟨item, hitem⟩ := Option.isSome_iff_exists.1 h
    obtain ⟨index, hindex, -⟩ := Option.bind_eq_some_iff.1 hitem
    obtain ⟨digits, hdigits⟩ := exists_isNumeral_of_readIndex hindex
    rw [member?_of_isNumeral hlen hdigits] at h
    exact ⟨digits, hdigits, by simpa using h⟩
  · rintro ⟨digits, hdigits, hlt⟩
    rw [member?_of_isNumeral hlen hdigits, List.getElem?_eq_getElem hlt]
    rfl

/-- A value lists no name twice, and its names lead to its members in order. An object has members
under its names only. An array has items under the numerals that denote a number below its length,
with or without a plus sign and leading zeros, and a numeral of any length leads to the item at the
very number that it denotes. -/
theorem names_lead_to_members (value : Value) (hdata : value.IsData) :
    value.memberNames.Nodup ∧
      value.memberNames.map value.member? = value.members.map some ∧
      (∀ members, value = .object members → ∀ name,
        (value.member? name).isSome = true ↔ name ∈ value.memberNames) ∧
      ∀ items, value = .array items → ∀ name,
        ((value.member? name).isSome = true ↔
          ∃ digits, IsNumeral name digits ∧ decimal digits < items.length) ∧
        ∀ digits, IsNumeral name digits → value.member? name = items[decimal digits]? := by
  refine ⟨nodup_memberNames hdata, map_member?_memberNames hdata, ?_, ?_⟩
  · rintro members rfl name
    exact Table.isSome_find?_iff members name
  · rintro items rfl name
    exact ⟨isSome_member?_array_iff hdata name, fun digits => member?_of_isNumeral hdata⟩

/-- An array of two items, with numerals for its last index and for the number of all indices. -/
theorem names_lead_to_members_array :
    let items : List Value := [.string "a", .string "b"]
    let value : Value := .array items
    value.IsData ∧ value.memberNames = ["0", "1"] ∧ value.memberNames.Nodup ∧
      IsNumeral "+01" ['0', '1'] ∧ value.member? "+01" = some (.string "b") ∧
      IsNumeral "18446744073709551616" "18446744073709551616".toList ∧
      value.member? "18446744073709551616" = none := by
  intro items value
  have hdata : items.length ≤ indexBound := by decide
  have hsigned : IsNumeral "+01" ['0', '1'] := ⟨.inr rfl, by decide, List.all_eq_true.1 rfl⟩
  have hlarge : IsNumeral "18446744073709551616" "18446744073709551616".toList :=
    ⟨.inl rfl, by decide, List.all_eq_true.1 rfl⟩
  obtain ⟨hnodup, -, -, harray⟩ := names_lead_to_members value hdata
  refine ⟨hdata, rfl, hnodup, hsigned, ?_, hlarge, ?_⟩
  · exact (harray items rfl "+01").2 _ hsigned
  · rw [(harray items rfl _).2 _ hlarge]
    rfl

end Value

end BraceTemplate
