import BraceTemplate.Number
import BraceTemplate.Table

/-! # Values

The data that templates are rendered against: the values of JSON, with the members of an
object in a table. Names reach into objects by their keys and into arrays by their indices.
-/

namespace BraceTemplate

/-- A JSON value. -/
inductive Value where
  | null
  | bool (b : Bool)
  | number (n : Number)
  | string (s : String)
  | array (items : List Value)
  | object (members : List (String × Value))
  deriving Repr, BEq, Inhabited

namespace Value

/-- Null, false and all that is empty count as false, everything else as true. -/
def isTruthy : Value → Bool
  | .null => false
  | .bool b => b
  | .number _ => true
  | .string s => !s.isEmpty
  | .array items => !items.isEmpty
  | .object members => !members.isEmpty

/-- A value that may be undefined, which counts as false. -/
def isDefinedTruthy (value : Option Value) : Bool :=
  value.any isTruthy

/-! ## Members -/

/-- Indices are below this bound. -/
def indexBound : Nat := Nat.pow 2 64

/-- The index that a name denotes: ASCII digits, with or without one plus sign before them. -/
def readIndex (name : String) : Option Nat :=
  let digits :=
    match name.toList with
    | '+' :: digits => digits
    | digits => digits
  (Text.readDigits digits).filter (· < indexBound)

/-- The name of the item at an index. -/
def indexName (index : Nat) : String :=
  String.ofList (Nat.toDigits 10 index)

/-- The member of a value under a name: a member of an object, or an item of an array. -/
def member? : Value → String → Option Value
  | .object members, name => Table.find? members name
  | .array items, name => (readIndex name).bind fun index => items[index]?
  | _, _ => none

/-- The names of the members of a value, in order. -/
def memberNames : Value → List String
  | .object members => Table.keys members
  | .array items => (List.range items.length).map indexName
  | _ => []

/-- The value reached by following one name after another. -/
def descend? (value : Value) (names : List String) : Option Value :=
  names.foldlM member? value

/-- The member under a name, or null. -/
def get (value : Value) (name : String) : Value :=
  (value.member? name).getD .null

/-! ## Lemmas -/

@[simp] theorem descend?_nil (value : Value) : value.descend? [] = some value := rfl

theorem descend?_cons (value : Value) (name : String) (names : List String) :
    value.descend? (name :: names) = (value.member? name).bind (·.descend? names) := rfl

/-- Following names one after another may stop anywhere and go on from there. -/
theorem descend?_append (value : Value) (first second : List String) :
    value.descend? (first ++ second) = (value.descend? first).bind (·.descend? second) := by
  simp [descend?]

end Value

end BraceTemplate
