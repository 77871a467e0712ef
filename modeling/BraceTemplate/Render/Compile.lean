import BraceTemplate.Conversion
import BraceTemplate.Render

/-! # Compiling expressions

Any expression may stand as an argument or as a context. Compiling it fails if one of these has no
value. What a compiled expression does is no longer looked up in the tree.
-/

namespace BraceTemplate

/-- An expression that stands where a value is needed and has none. -/
structure NotValue where
  found : Expression
  deriving Inhabited

/-- What a compiled argument gives in a frame, if it is defined. -/
abbrev Evaluation := Frame → Option Value

/-- What a compiled expression does in a frame, given how to render a partial. -/
abbrev Emission := (Template → Frame → Render Unit) → Frame → Render Unit

namespace Evaluation

/-- The values of arguments, with null for what is undefined. -/
def all (evaluations : List Evaluation) (frame : Frame) : List Value :=
  evaluations.map fun evaluation => (evaluation frame).getD .null

end Evaluation

namespace Emission

/-- Does nothing. -/
def nothing : Emission :=
  fun _ _ => pure ()

/-- One after the other. -/
def andThen (first second : Emission) : Emission :=
  fun renderPartial frame => do
    first renderPartial frame
    second renderPartial frame

/-- What a compiled expression does that may be missing. -/
def orNothing (emission : Option Emission) : Emission :=
  emission.getD nothing

/-- Writes a value, which is null if it is undefined. -/
def writeValue (evaluation : Evaluation) : Emission :=
  fun _ frame => Render.write ((evaluation frame).getD .null).text

/-- Writes the value of a path, or nothing if it is undefined. -/
def writePath (target : Path) : Emission :=
  fun _ frame =>
    match frame.lookup target with
    | some value => Render.write value.text
    | none => pure ()

/-- Calls an inline helper. -/
def inlineCall (name : String) (arguments : List Evaluation) : Emission :=
  fun _ frame => do
    let configuration ← Render.configuration
    match configuration.findInline? name with
    | some helper => (helper frame (Evaluation.all arguments frame)).run frame fun _ _ => pure ()
    | none => Render.fail (configuration.noInline name)

/-- Calls a block helper with its two bodies. -/
def blockCall (name : String) (arguments : List Evaluation) (body : Emission)
    (inverse : Option Emission) : Emission :=
  fun renderPartial frame => do
    let configuration ← Render.configuration
    match configuration.findBlock? name with
    | some helper =>
      (helper frame (Evaluation.all arguments frame) inverse.isSome).run frame fun part frame =>
        match part with
        | .body => body renderPartial frame
        | .inverse => orNothing inverse renderPartial frame
    | none => Render.fail (configuration.noBlock name)

/-- Renders the body for the value of a path, or the inverse body. -/
def pathBlock (target : Path) (body : Emission) (inverse : Option Emission) : Emission :=
  fun renderPartial frame =>
    match frame.lookup target with
    | some (.array (item :: items)) =>
      renderItems (body renderPartial) frame (items.length + 1) 0 (item :: items)
    | some value =>
      if value.isTruthy then body renderPartial (.child frame value none)
      else orNothing inverse renderPartial frame
    | none => orNothing inverse renderPartial frame

/-- Renders a partial, in the current frame or in one for its context. -/
def partialCall (name : String) (context : Option Evaluation) : Emission :=
  fun renderPartial frame => do
    let configuration ← Render.configuration
    match configuration.findPartial? name with
    | some template =>
      renderPartial template
        (match context with
        | none => frame
        | some evaluation => .child frame ((evaluation frame).getD .null) none)
    | none => Render.fail (.missingPartial name)

end Emission

/-! ## Compiling -/

/-- Compiles an expression that has a value. -/
def Expression.compileValue : Expression → Except NotValue Evaluation
  | .text content => .ok fun _ => some (.string content)
  | .path target => .ok fun frame => frame.lookup target
  | .truth operand => do
    let evaluation ← operand.compileValue
    return fun frame => some (.bool (Value.isDefinedTruthy (evaluation frame)))
  | found => .error ⟨found⟩

mutual

/-- Compiles an expression that stands on its own. -/
def Expression.compile : Expression → Except NotValue Emission
  | .text content => .ok fun _ _ => Render.write content
  | .path target => .ok (Emission.writePath target)
  | .truth operand => do
    return Emission.writeValue (← (Expression.truth operand).compileValue)
  | .inlineCall name arguments => do
    return Emission.inlineCall name (← arguments.mapM Expression.compileValue)
  | .blockCall name arguments body inverse => do
    let arguments ← arguments.mapM Expression.compileValue
    let body ← compileAll body
    let inverse ← compileInverse inverse
    return Emission.blockCall name arguments body inverse
  | .pathBlock target body inverse => do
    let body ← compileAll body
    let inverse ← compileInverse inverse
    return Emission.pathBlock target body inverse
  | .partialCall name context => do
    return Emission.partialCall name (← context.mapM Expression.compileValue)

/-- Compiles expressions in a row. -/
def compileAll : List Expression → Except NotValue Emission
  | [] => .ok Emission.nothing
  | expression :: expressions => do
    let first ← expression.compile
    let rest ← compileAll expressions
    return first.andThen rest

/-- Compiles an inverse body. -/
def compileInverse : Option (List Expression) → Except NotValue (Option Emission)
  | none => .ok none
  | some expressions => do
    let emission ← compileAll expressions
    return some emission

end

/-! ## From the text -/

/-- What compiling a text ends with when it fails: a fault of the text, one of its tokens, or an
expression without a value. -/
inductive CompileFault where
  | scanned (error : Error)
  | converted (fault : Conversion.Fault)
  | compiled (fault : NotValue)
  deriving Inhabited

/-- Compiles the text of a template: it is cut into tokens, which are converted into expressions,
which are compiled. -/
def compileText (registered : String → Bool) (text : String) : Except CompileFault Emission := do
  let tokens ← (tokenize text).mapError .scanned
  let expressions ← (Conversion.convert registered tokens).mapError .converted
  (compileAll expressions).mapError .compiled

end BraceTemplate
