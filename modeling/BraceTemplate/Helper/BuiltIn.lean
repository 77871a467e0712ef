import BraceTemplate.Helper
import BraceTemplate.Value.Text

/-! # Built-in helpers

The blocks `if`, `unless`, `with` and `each`, and the inline helper `log`. Each of the blocks
takes one argument, and renders the inverse body in the frame of the block itself.
-/

namespace BraceTemplate.BuiltIn

/-- A block helper of one argument. -/
def ofOne (name : String) (script : Value → Script .block) : BlockHelper :=
  fun _ arguments _ =>
    match arguments with
    | [argument] => script argument
    | arguments => .fail (.helper name (.argumentCount arguments.length))

/-- Renders the inverse body in the frame of the block. -/
def renderInverse : Script .block :=
  .render .inverse .current .done

/-- Renders the body if the argument is truthy. -/
def ifBlock : BlockHelper :=
  ofOne "if" fun condition =>
    if condition.isTruthy then .render .body .current .done else renderInverse

/-- Renders the body unless the argument is truthy. -/
def unlessBlock : BlockHelper :=
  ofOne "unless" fun condition =>
    if condition.isTruthy then renderInverse else .render .body .current .done

/-- Renders the body against the argument if that is truthy. -/
def withBlock : BlockHelper :=
  ofOne "with" fun target =>
    if target.isTruthy then .render .body (.child target) .done else renderInverse

/-- The scopes of a loop over an array. -/
def itemScopes (items : List Value) : List Scope :=
  items.zipIdx.map fun (item, index) => .turn item (.ofIndex index items.length)

/-- The scopes of a loop over an object. -/
def memberScopes (members : Table Value) : List Scope :=
  members.zipIdx.map fun ((name, value), index) =>
    .turn value ((Iteration.ofIndex index members.length).withKey name)

/-- Renders the body against every item or member of the argument, and the inverse body if it
has none. -/
def eachBlock : BlockHelper :=
  ofOne "each" fun collection =>
    let scopes :=
      match collection with
      | .array items => itemScopes items
      | .object members => memberScopes members
      | _ => []
    if scopes.isEmpty then renderInverse else .renderEach scopes

/-- Writes nothing to the output. -/
def logInline : InlineHelper :=
  fun _ _ => .done

/-- The built-in block helpers. -/
def blockHelpers : Table BlockHelper :=
  .ofPairs [("if", ifBlock), ("unless", unlessBlock), ("with", withBlock), ("each", eachBlock)]

/-- The built-in inline helpers. -/
def inlineHelpers : Table InlineHelper :=
  .ofPairs [("log", logInline)]

end BraceTemplate.BuiltIn
