import BraceTemplate.Json.Writer

/-! # The text of a value

What a template writes for a value: nothing for null, a string as it is, the items of an array
with commas between them, and JSON for all else.
-/

namespace BraceTemplate.Value

mutual

/-- The text that a template writes for a value. -/
def text : Value → String
  | .null => ""
  | .string s => s
  | .array items => ",".intercalate (itemTexts items)
  | .bool b => Json.text (.bool b)
  | .number n => Json.text (.number n)
  | .object members => Json.text (.object members)

/-- The texts of the items of an array. -/
def itemTexts : List Value → List String
  | [] => []
  | item :: items => text item :: itemTexts items

end

theorem itemTexts_eq_map (items : List Value) : itemTexts items = items.map text := by
  induction items with
  | nil => rfl
  | cons item items ih => simp [itemTexts, ih]

/-- An array is written as its items are, with commas between them. -/
theorem text_array (items : List Value) :
    text (.array items) = ",".intercalate (items.map text) := by
  rw [text, itemTexts_eq_map]

end BraceTemplate.Value
