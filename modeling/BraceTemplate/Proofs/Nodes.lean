import BraceTemplate.Template.Conditions

/-!
# The nodes of a template

A template is a tree: blocks have bodies. `allNodes` lists its nodes at every depth, so that a
property of all of them is one statement about a list.
-/

namespace BraceTemplate

mutual

/-- A node and the nodes in its bodies, at every depth. -/
def Node.nodes : Node → List Node
  | .blockCall name arguments body inverse =>
    .blockCall name arguments body inverse :: (allNodes body ++ inverseNodes inverse)
  | .pathBlock path body inverse =>
    .pathBlock path body inverse :: (allNodes body ++ inverseNodes inverse)
  | .text content => [.text content]
  | .output path => [.output path]
  | .inlineCall name arguments => [.inlineCall name arguments]
  | .partialCall name context => [.partialCall name context]

/-- The nodes of a template, at every depth. -/
def allNodes : List Node → List Node
  | [] => []
  | node :: nodes => node.nodes ++ allNodes nodes

/-- The nodes of an inverse body, at every depth. -/
def inverseNodes : Option (List Node) → List Node
  | none => []
  | some nodes => allNodes nodes

end

theorem allNodes_append (first second : List Node) :
    allNodes (first ++ second) = allNodes first ++ allNodes second := by
  induction first with
  | nil => rfl
  | cons node nodes ih => rw [List.cons_append, allNodes, allNodes, ih, List.append_assoc]

/-! ## Paths -/

/-- The path that an argument reads, if it reads one. -/
def Argument.path? : Argument → Option Path
  | .literal _ => none
  | .path target => some target
  | .truth operand => operand.path?

/-- The paths that a node reads itself, apart from those in its bodies. -/
def Node.paths : Node → List Path
  | .text _ => []
  | .output path => [path]
  | .inlineCall _ arguments => arguments.filterMap Argument.path?
  | .blockCall _ arguments _ _ => arguments.filterMap Argument.path?
  | .pathBlock path _ _ => [path]
  | .partialCall _ context => context.toList

/-- The paths that a template reads, at every depth. -/
def allPaths (nodes : List Node) : List Path :=
  (allNodes nodes).flatMap Node.paths

end BraceTemplate
