import BraceTemplate.Path

/-! # Templates

A template that has been read is a list of nodes. A node writes text or a value, calls a
helper, opens a block with its two bodies, or refers to a partial.
-/

namespace BraceTemplate

/-- An argument of a call: a quoted literal, a path, or whether another argument is truthy. -/
inductive Argument where
  | literal (text : String)
  | path (path : Path)
  | truth (operand : Argument)
  deriving Repr, DecidableEq, Inhabited

/-- A part of a template. -/
inductive Node where
  /-- Text that is written as it stands. -/
  | text (content : String)
  /-- A path whose value is written. -/
  | output (path : Path)
  /-- A call of an inline helper. -/
  | inlineCall (name : String) (arguments : List Argument)
  /-- A call of a block helper, with the body and the inverse body it may render. -/
  | blockCall (name : String) (arguments : List Argument) (body : List Node)
      (inverse : Option (List Node))
  /-- A block that depends on the value of a path instead of a helper. -/
  | pathBlock (path : Path) (body : List Node) (inverse : Option (List Node))
  /-- A partial, rendered in the current frame or against the value of a path. -/
  | partialCall (name : String) (context : Option Path)
  deriving Repr, BEq, Inhabited

/-- A template that has been read. -/
abbrev Template := List Node

end BraceTemplate
