import BraceTemplate.Value

/-! # Compact JSON

The JSON text of a value, without spaces and with members in the order of their names.
-/

namespace BraceTemplate.Json

/-- A control character by its code point in four digits. -/
def escapedCode (c : Char) : List Char :=
  let digits := Nat.toDigits 16 c.toNat
  ['\\', 'u'] ++ List.replicate (4 - digits.length) '0' ++ digits

/-- How one character of a string is written. -/
def escapedChar (c : Char) : List Char :=
  match c with
  | '"' => ['\\', '"']
  | '\\' => ['\\', '\\']
  | '\x08' => ['\\', 'b']
  | '\x0c' => ['\\', 'f']
  | '\n' => ['\\', 'n']
  | '\r' => ['\\', 'r']
  | '\t' => ['\\', 't']
  | c => if c.toNat < 0x20 then escapedCode c else [c]

/-- A string with its quotes. -/
def string (s : String) : String :=
  String.ofList ('"' :: s.toList.flatMap escapedChar ++ ['"'])

mutual

/-- The JSON text of a value. -/
def text : Value → String
  | .null => "null"
  | .bool b => if b then "true" else "false"
  | .number n => n.text
  | .string s => string s
  | .array items => "[" ++ ",".intercalate (itemTexts items) ++ "]"
  | .object members => "\x7b" ++ ",".intercalate (memberTexts members) ++ "\x7d"

/-- The JSON texts of the items of an array. -/
def itemTexts : List Value → List String
  | [] => []
  | item :: items => text item :: itemTexts items

/-- The members of an object, each with its name and its JSON text. -/
def memberTexts : List (String × Value) → List String
  | [] => []
  | (name, value) :: members => (string name ++ ":" ++ text value) :: memberTexts members

end

theorem itemTexts_eq_map (items : List Value) : itemTexts items = items.map text := by
  induction items with
  | nil => rfl
  | cons item items ih => simp [itemTexts, ih]

end BraceTemplate.Json
