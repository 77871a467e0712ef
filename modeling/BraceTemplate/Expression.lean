import BraceTemplate.Template

/-! # Expressions

In its general form a template is a tree of expressions, in which any expression may stand as an
argument or as a context. The templates that are rendered are those whose expressions stand where
they have a value.
-/

namespace BraceTemplate

/-- A part of a template in its general form. -/
inductive Expression where
  | text (content : String)
  | path (target : Path)
  /-- Whether another expression is truthy. -/
  | truth (operand : Expression)
  | inlineCall (name : String) (arguments : List Expression)
  | blockCall (name : String) (arguments body : List Expression)
      (inverse : Option (List Expression))
  | pathBlock (target : Path) (body : List Expression) (inverse : Option (List Expression))
  | partialCall (name : String) (context : Option Expression)
  deriving Inhabited

/-! ## Templates in their general form -/

/-- An argument in its general form. -/
def Argument.toExpression : Argument → Expression
  | .literal text => .text text
  | .path target => .path target
  | .truth operand => .truth operand.toExpression

mutual

/-- A node in its general form. -/
def Node.toExpression : Node → Expression
  | .text content => .text content
  | .output path => .path path
  | .inlineCall name arguments => .inlineCall name (arguments.map Argument.toExpression)
  | .blockCall name arguments body inverse =>
    .blockCall name (arguments.map Argument.toExpression) (toExpressions body)
      (inverseExpressions inverse)
  | .pathBlock path body inverse =>
    .pathBlock path (toExpressions body) (inverseExpressions inverse)
  | .partialCall name context => .partialCall name (context.map .path)

/-- A template in its general form. -/
def toExpressions : List Node → List Expression
  | [] => []
  | node :: nodes => node.toExpression :: toExpressions nodes

/-- An inverse body in its general form. -/
def inverseExpressions : Option (List Node) → Option (List Expression)
  | none => none
  | some nodes => some (toExpressions nodes)

end

theorem toExpressions_eq_map (nodes : List Node) :
    toExpressions nodes = nodes.map Node.toExpression := by
  induction nodes with
  | nil => rfl
  | cons node nodes ih => rw [toExpressions, ih, List.map_cons]

end BraceTemplate
