import BraceTemplate.Error
import BraceTemplate.Frame

/-! # Helpers

What a helper does is data: a script of the things it writes, registers and renders, which
ends well or with an error. A block helper decides whether, how often and against which frame
the two bodies of its block are rendered.
-/

namespace BraceTemplate

/-- How a helper is called: in a tag of its own, or with a block. -/
inductive Convention where
  | inline
  | block
  deriving Repr, DecidableEq, Inhabited

/-- One of the two bodies of a block. -/
inductive BodyPart where
  | body
  | inverse
  deriving Repr, DecidableEq, Inhabited

/-- The frame that a body is rendered against, seen from the frame of its block. -/
inductive Scope where
  | current
  | child (value : Value)
  | turn (value : Value) (iteration : Iteration)
  deriving Repr, Inhabited

/-- The frame of a body, given the frame of its block. -/
def Scope.enter (frame : Frame) : Scope → Frame
  | .current => frame
  | .child value => .child frame value none
  | .turn value iteration => .child frame value (some iteration)

/-- What a helper does. -/
inductive Script : Convention → Type where
  /-- Ends well. -/
  | done {convention : Convention} : Script convention
  /-- Ends with an error. -/
  | fail {convention : Convention} (error : Error) : Script convention
  /-- Writes a text. -/
  | write {convention : Convention} (text : String) (next : Script convention) :
      Script convention
  /-- Registers an inline helper, which is told its frame and its arguments. -/
  | registerInline {convention : Convention} (name : String)
      (helper : Frame → List Value → Script .inline) (next : Script convention) :
      Script convention
  /-- Registers a block helper, which is also told whether its block has an inverse body. -/
  | registerBlock {convention : Convention} (name : String)
      (helper : Frame → List Value → Bool → Script .block) (next : Script convention) :
      Script convention
  /-- Reads a template and registers it as a partial, or ends with the error in it. -/
  | registerPartial {convention : Convention} (name source : String)
      (next : Script convention) : Script convention
  /-- Renders a body, or ends with its error. A body that is not there writes nothing. -/
  | render (part : BodyPart) (scope : Scope) (next : Script .block) : Script .block
  /-- Renders a body on its own and goes on with what it wrote and how it failed, if it did. -/
  | capture (part : BodyPart) (scope : Scope)
      (next : String → Option Error → Script .block) : Script .block

/-- A helper called in a tag of its own. -/
abbrev InlineHelper := Frame → List Value → Script .inline

/-- A helper called with a block. -/
abbrev BlockHelper := Frame → List Value → Bool → Script .block

namespace Script

/-- Renders the body of a block against one scope after another. -/
def renderEach (scopes : List Scope) : Script .block :=
  scopes.foldr (.render .body) .done

end Script

end BraceTemplate
