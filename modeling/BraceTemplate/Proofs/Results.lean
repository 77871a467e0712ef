import Mathlib.Data.Option.Basic

/-!
# Results that may be errors

What it takes for a mapped or chained result to be a value, and for the members of a list to be
read one by one.
-/

namespace BraceTemplate.Results

variable {ε α β γ : Type}

theorem map_eq_ok {f : α → β} {result : Except ε α} {b : β} :
    result.map f = .ok b ↔ ∃ a, result = .ok a ∧ f a = b := by
  cases result with
  | error e => simp [Except.map]
  | ok a => simp [Except.map]

theorem map_eq_error {f : α → β} {result : Except ε α} {e : ε} :
    result.map f = .error e ↔ result = .error e := by
  cases result with
  | error e' => simp [Except.map]
  | ok a => simp [Except.map]

theorem map_map (f : α → β) (g : β → γ) (result : Except ε α) :
    (result.map f).map g = result.map (g ∘ f) := by
  cases result <;> rfl

theorem mapError_eq_ok {φ : Type} {f : ε → φ} {result : Except ε α} {a : α} :
    result.mapError f = .ok a ↔ result = .ok a := by
  cases result with
  | error e => simp [Except.mapError]
  | ok b => simp [Except.mapError]

theorem toOption_eq_some {result : Except ε α} {a : α} :
    result.toOption = some a ↔ result = .ok a := by
  cases result with
  | error e => simp [Except.toOption]
  | ok b => simp [Except.toOption]

/-- A sequence succeeds exactly when both of its parts do. -/
theorem bind_eq_ok {f : α → Except ε β} {result : Except ε α} {b : β} :
    result >>= f = .ok b ↔ ∃ a, result = .ok a ∧ f a = .ok b := by
  cases result with
  | error e =>
    constructor
    · intro h
      cases h
    · rintro ⟨a, h, -⟩
      cases h
  | ok a =>
    constructor
    · intro h
      exact ⟨a, rfl, h⟩
    · rintro ⟨a', h, hb⟩
      cases h
      exact hb

/-- Members of a list that are all read are read in a row. -/
theorem exists_mapM_eq_ok {f : α → Except ε β} {members : List α}
    (h : ∀ a ∈ members, ∃ b, f a = .ok b) : ∃ bs, members.mapM f = .ok bs := by
  induction members with
  | nil => exact ⟨[], rfl⟩
  | cons a members ih =>
    obtain ⟨⟨b, hb⟩, hmembers⟩ := List.forall_mem_cons.1 h
    obtain ⟨bs, hbs⟩ := ih hmembers
    rw [List.mapM_cons, hb, hbs]
    exact ⟨b :: bs, rfl⟩

end BraceTemplate.Results
