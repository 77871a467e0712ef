/-! # Decimal digits

Reading a run of ASCII digits as a natural number. Digits of other scripts are not read.
-/

namespace BraceTemplate.Text

/-- The value of an ASCII digit. -/
def digitValue (c : Char) : Nat :=
  c.toNat - '0'.toNat

/-- The number that continues `start` with a run of digits. -/
def continueNumber (start : Nat) (digits : List Char) : Nat :=
  digits.foldl (fun value c => 10 * value + digitValue c) start

/-- The number that a non-empty run of ASCII digits denotes. -/
def readDigits (digits : List Char) : Option Nat :=
  if digits ≠ [] ∧ digits.all Char.isDigit then some (continueNumber 0 digits) else none

theorem continueNumber_append (start : Nat) (first second : List Char) :
    continueNumber start (first ++ second) =
      continueNumber (continueNumber start first) second := by
  simp [continueNumber]

theorem readDigits_eq_some_iff {digits : List Char} {value : Nat} :
    readDigits digits = some value ↔
      digits ≠ [] ∧ (∀ c ∈ digits, c.isDigit = true) ∧ continueNumber 0 digits = value := by
  simp only [readDigits, List.all_eq_true]
  split
  · next h => simp [h.1]; exact fun _ => h.2
  · next h => simp; intro hne hall; exact absurd ⟨hne, hall⟩ h

end BraceTemplate.Text
