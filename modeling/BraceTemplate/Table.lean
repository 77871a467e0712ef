/-! # Tables ordered by key

A table pairs names with values and keeps its names in ascending order, comparing code
points. The members of an object and the entries of a registry are tables.
-/

namespace BraceTemplate

/-- A list of named values. -/
abbrev Table (α : Type) := List (String × α)

namespace Table

variable {α : Type}

/-- The value under a name. -/
def find? : Table α → String → Option α
  | [], _ => none
  | (key, value) :: rest, name => if key = name then some value else find? rest name

/-- Puts a value under a name, in place of the value that was there. -/
def insert : Table α → String → α → Table α
  | [], name, value => [(name, value)]
  | (key, old) :: rest, name, value =>
    if name < key then
      (name, value) :: (key, old) :: rest
    else if key = name then
      (name, value) :: rest
    else
      (key, old) :: insert rest name value

/-- The table of a list of pairs, of which a later one replaces an earlier one of its name. -/
def ofPairs (pairs : List (String × α)) : Table α :=
  pairs.foldl (fun table pair => table.insert pair.1 pair.2) []

/-- The names of a table, in order. -/
def keys (table : Table α) : List String :=
  table.map Prod.fst

/-- The names stand in ascending order, each of them once. -/
def Ordered (table : Table α) : Prop :=
  table.Pairwise fun first second => first.1 < second.1

/-! ## Lemmas -/

@[simp] theorem find?_nil (name : String) : find? ([] : Table α) name = none := rfl

theorem find?_cons (key : String) (value : α) (rest : Table α) (name : String) :
    find? ((key, value) :: rest) name = if key = name then some value else find? rest name := rfl

/-- The last value put under a name is found there, and other names are not touched. -/
theorem find?_insert (table : Table α) (name : String) (value : α) (asked : String) :
    (table.insert name value).find? asked =
      if name = asked then some value else table.find? asked := by
  induction table with
  | nil => rfl
  | cons entry rest ih =>
    obtain ⟨key, old⟩ := entry
    simp only [insert]
    split
    · rfl
    · split
      · next hkey => subst hkey; simp only [find?_cons]; split <;> rfl
      · next hkey =>
        simp only [find?_cons, ih]
        by_cases hk : key = asked
        · have : name ≠ asked := fun hn => hkey (hk.trans hn.symm)
          simp [hk, this]
        · simp [hk]

/-- A name is found exactly when it is among the names of the table. -/
theorem isSome_find?_iff (table : Table α) (name : String) :
    (table.find? name).isSome = true ↔ name ∈ table.keys := by
  induction table with
  | nil => simp [keys]
  | cons entry rest ih =>
    obtain ⟨key, value⟩ := entry
    rw [find?_cons]
    by_cases h : key = name
    · simp [h, keys]
    · have h' : ¬ name = key := fun hn => h hn.symm
      simp [h, h', keys] at ih ⊢
      exact ih

/-- A member that is found is one of the pairs. -/
theorem mem_of_find? {table : Table α} {name : String} {value : α}
    (h : table.find? name = some value) : (name, value) ∈ table := by
  induction table with
  | nil => cases h
  | cons entry rest ih =>
    obtain ⟨key, old⟩ := entry
    rw [find?_cons] at h
    split at h
    · next hkey => cases h; subst hkey; exact List.mem_cons_self
    · exact List.mem_cons_of_mem _ (ih h)

/-- Every pair of the new table is the one put in or was there before. -/
theorem mem_insert {table : Table α} {name : String} {value : α} {pair : String × α}
    (h : pair ∈ table.insert name value) : pair = (name, value) ∨ pair ∈ table := by
  induction table with
  | nil => simpa [insert] using h
  | cons entry rest ih =>
    obtain ⟨key, old⟩ := entry
    simp only [insert] at h
    split at h
    · simpa using h
    · split at h
      · rcases List.mem_cons.1 h with h | h
        · exact .inl h
        · exact .inr (List.mem_cons_of_mem _ h)
      · rcases List.mem_cons.1 h with h | h
        · exact .inr (h ▸ List.mem_cons_self)
        · exact (ih h).imp_right (List.mem_cons_of_mem _)

/-- Putting a value under a name keeps the names in order. -/
theorem Ordered.insert {table : Table α} (h : table.Ordered) (name : String) (value : α) :
    (table.insert name value).Ordered := by
  induction table with
  | nil => exact List.pairwise_singleton _ _
  | cons entry rest ih =>
    obtain ⟨key, old⟩ := entry
    obtain ⟨hhead, hrest⟩ := List.pairwise_cons.1 h
    simp only [Table.insert]
    split
    · next hlt =>
      refine List.pairwise_cons.2 ⟨?_, h⟩
      intro pair hmem
      rcases List.mem_cons.1 hmem with rfl | hmem
      · exact hlt
      · exact String.lt_trans hlt (hhead pair hmem)
    -- Not before this key: the name replaces its value or goes somewhere behind it.
    · next hnlt =>
      split
      · next hkey => subst hkey; exact List.pairwise_cons.2 ⟨hhead, hrest⟩
      · next hkey =>
        refine List.pairwise_cons.2 ⟨?_, ih hrest⟩
        intro pair hmem
        rcases mem_insert hmem with rfl | hmem
        · have hle : key ≤ name := String.not_lt.1 hnlt
          exact Std.lt_of_le_of_ne hle hkey
        · exact hhead pair hmem

theorem ordered_ofPairs (pairs : List (String × α)) : (ofPairs pairs).Ordered := by
  suffices h : ∀ table : Table α, table.Ordered →
      (pairs.foldl (fun table pair => table.insert pair.1 pair.2) table).Ordered from
    h [] List.Pairwise.nil
  induction pairs with
  | nil => exact fun _ h => h
  | cons pair rest ih => exact fun table h => ih _ (h.insert pair.1 pair.2)

/-- Every pair of the table of a list is a pair of the list. -/
theorem mem_of_mem_ofPairs {pairs : List (String × α)} {pair : String × α}
    (h : pair ∈ ofPairs pairs) : pair ∈ pairs := by
  suffices hfold : ∀ table : Table α,
      pair ∈ pairs.foldl (fun table pair => table.insert pair.1 pair.2) table →
        pair ∈ table ∨ pair ∈ pairs from (hfold [] h).resolve_left List.not_mem_nil
  clear h
  induction pairs with
  | nil => exact fun _ h => .inl h
  | cons first rest ih =>
    intro table h
    rcases ih _ h with h | h
    · rcases mem_insert h with rfl | h
      · exact .inr List.mem_cons_self
      · exact .inl h
    · exact .inr (List.mem_cons_of_mem _ h)

/-- Inserted one after the other, distinct names are found with their values. -/
theorem find?_foldl_insert {pairs : List (String × α)} (h : (keys pairs).Nodup) (table : Table α)
    (name : String) :
    (pairs.foldl (fun table pair => table.insert pair.1 pair.2) table).find? name =
      (find? pairs name).or (table.find? name) := by
  induction pairs generalizing table with
  | nil => rfl
  | cons pair pairs ih =>
    obtain ⟨key, value⟩ := pair
    obtain ⟨hkey, hrest⟩ := List.nodup_cons.1 h
    rw [List.foldl_cons, ih hrest, find?_insert, find?_cons]
    by_cases hname : key = name
    · subst hname
      have hnone : find? pairs key = none := by
        rw [← Option.not_isSome_iff_eq_none, isSome_find?_iff]
        exact hkey
      rw [hnone, if_pos rfl, if_pos rfl]
      rfl
    · rw [if_neg hname, if_neg hname]

/-- Where no name is given twice, a table finds what is in its list. -/
theorem find?_ofPairs {pairs : List (String × α)} (h : (keys pairs).Nodup) (name : String) :
    (ofPairs pairs).find? name = find? pairs name := by
  rw [ofPairs, find?_foldl_insert h, find?_nil, Option.or_none]

end Table

end BraceTemplate
