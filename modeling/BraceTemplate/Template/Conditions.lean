import BraceTemplate.Template

/-! # Conditions

The first argument of a block named `if` or `unless` is replaced by whether it is truthy, at
every depth of a template.
-/

namespace BraceTemplate

/-- The names of the blocks whose first argument is a condition. -/
def conditionNames : List String := ["if", "unless"]

/-- The arguments with the first one replaced by its truth. -/
def testFirst : List Argument → List Argument
  | [] => []
  | condition :: arguments => .truth condition :: arguments

/-- The arguments of the block with the given name. -/
def testArguments (name : String) (arguments : List Argument) : List Argument :=
  if conditionNames.contains name then testFirst arguments else arguments

mutual

/-- A node with its conditions and those inside it tested. -/
def Node.testConditions : Node → Node
  | .blockCall name arguments body inverse =>
    .blockCall name (testArguments name arguments) (testAll body) (testInverse inverse)
  | .pathBlock path body inverse => .pathBlock path (testAll body) (testInverse inverse)
  | .text content => .text content
  | .output path => .output path
  | .inlineCall name arguments => .inlineCall name arguments
  | .partialCall name context => .partialCall name context

/-- A list of nodes with all conditions tested. -/
def testAll : List Node → List Node
  | [] => []
  | node :: nodes => node.testConditions :: testAll nodes

/-- An inverse body with all conditions tested. -/
def testInverse : Option (List Node) → Option (List Node)
  | none => none
  | some nodes => some (testAll nodes)

end

theorem testAll_eq_map (nodes : List Node) : testAll nodes = nodes.map Node.testConditions := by
  induction nodes with
  | nil => rfl
  | cons node nodes ih => simp [testAll, ih]

end BraceTemplate
