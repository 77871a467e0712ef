import BraceTemplate.Text.AsciiCase
import BraceTemplate.Value

/-! # Merged contexts

Several objects seen as one. A member comes from the first object that has it, and names are
matched up to the case of ASCII letters, an exact match within one object going first.
-/

namespace BraceTemplate

/-- Values whose members are looked up one after another. -/
structure MergedContext where
  objects : List Value
  deriving Repr, Inhabited

namespace MergedContext

/-- No objects at all. -/
def empty : MergedContext := ⟨[]⟩

/-- Adds a value, behind the values that are there. -/
def push (merged : MergedContext) (value : Value) : MergedContext :=
  ⟨merged.objects ++ [value]⟩

/-- The first member whose name is the given one up to case. -/
def findUpToCase? (members : Table Value) (name : String) : Option Value :=
  (List.find? (fun member => Text.sameUpToCase member.1 name) members).map Prod.snd

/-- The member of one value: under the exact name if there is one, else up to case. -/
def memberOf? (name : String) : Value → Option Value
  | .object members => (Table.find? members name).or (findUpToCase? members name)
  | _ => none

/-- The member under a name, from the first value that has it. -/
def member? (merged : MergedContext) (name : String) : Option Value :=
  merged.objects.findSome? (memberOf? name)

/-- Adds a name at the end unless it is there up to case. -/
def addName (names : List String) (name : String) : List String :=
  if names.any (Text.sameUpToCase · name) then names else names ++ [name]

/-- The names of all values in order, without those that are there before up to case. -/
def memberNames (merged : MergedContext) : List String :=
  (merged.objects.flatMap Value.memberNames).foldl addName []

/-- The one object that a merged context stands for as data. -/
def toValue (merged : MergedContext) : Value :=
  .object (Table.ofPairs (merged.memberNames.filterMap fun name =>
    (merged.member? name).map fun value => (name, value)))

end MergedContext

end BraceTemplate
