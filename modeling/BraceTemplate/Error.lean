import BraceTemplate.Path
import BraceTemplate.Text.Position
import BraceTemplate.Text.Quoted

/-! # Errors

Everything that can go wrong while a template is read, compiled or rendered, by its cause.
The wording of a cause is given once, by `Error.message`.
-/

namespace BraceTemplate

/-- What is wrong with a tag that its text does not end. -/
inductive LexFault where
  | unterminatedExpression
  | unterminatedComment
  | unterminatedString
  deriving Repr, DecidableEq, Inhabited

/-- What is wrong with the nesting of blocks. -/
inductive BlockFault where
  | elseOutsideBlock
  | secondElse (block : String)
  | closedUnopened (name : String)
  | closedByOther (block name : String)
  | neverClosed (block : String)
  deriving Repr, DecidableEq, Inhabited

/-- What is wrong inside a single tag. -/
inductive TagFault where
  | emptyTag
  | unclosed
  | namelessPartial
  | partialOfLiteral (partialName literal : String)
  | partialArguments (partialName : String)
  | notCallable (path : Path)
  | elseArguments
  | namelessBlock
  | unexpectedLiteral (literal : String)
  | unexpectedPath (path : Path)
  deriving Repr, DecidableEq, Inhabited

/-- Why a helper failed. -/
inductive HelperFault where
  | onlyBlock
  | onlyInline
  | argumentCount (count : Nat)
  | reported (message : String)
  deriving Repr, DecidableEq, Inhabited

/-- Why a template could not be read from its source. -/
inductive ReadFault where
  | invalidText
  | reported (message : String)
  deriving Repr, DecidableEq, Inhabited

/-- The cause of a failure. -/
inductive Error where
  | lex (position : Position) (fault : LexFault)
  | blockMismatch (fault : BlockFault)
  | malformedTag (fault : TagFault)
  | missingHelper (name : String)
  | missingPartial (name : String)
  | helper (name : String) (fault : HelperFault)
  | unreadable (fault : ReadFault)
  | write
  deriving Repr, DecidableEq, Inhabited

/-! ## Messages -/

namespace LexFault

/-- The wording of a fault in the text of a tag. -/
def message : LexFault → String
  | .unterminatedExpression => "unterminated expression, missing `\x7d\x7d`"
  | .unterminatedComment => "unterminated comment, missing `--\x7d\x7d`"
  | .unterminatedString => "unterminated string literal"

end LexFault

namespace BlockFault

/-- The wording of a fault in the nesting of blocks. -/
def message : BlockFault → String
  | .elseOutsideBlock => "`else` outside of a block"
  | .secondElse block => "block `" ++ block ++ "` has more than one `else`"
  | .closedUnopened name => "`" ++ name ++ "` is closed but was never opened"
  | .closedByOther block name => "block `" ++ block ++ "` is closed by `" ++ name ++ "`"
  | .neverClosed block => "block `" ++ block ++ "` is never closed"

end BlockFault

namespace TagFault

/-- How a message shows a literal that stands where it is not expected. -/
def literalItem (literal : String) : String :=
  "Node(Static(" ++ Text.quoted literal ++ "))"

/-- How a message shows where a path starts. -/
def anchorItem : Anchor → String
  | .current => "Current"
  | .root => "Root"
  | .data name => "Data(" ++ Text.quoted name ++ ")"

/-- How a message shows a path that stands where it is not expected. -/
def pathItem (path : Path) : String :=
  "Node(Path(Path \x7b segments: " ++ Text.quotedList path.segments ++ ", parent_hops: " ++
    toString path.hops ++ ", anchor: " ++ anchorItem path.anchor ++ " \x7d))"

/-- How a message shows a block opener without a name. -/
def openerItem : String :=
  "Token(Word \x7b value: \"\", sigil: Some(BlockOpen) \x7d)"

/-- The wording for an item that stands where it is not expected. -/
def unexpected (item : String) : String :=
  "unexpected " ++ item ++ " in expression"

/-- The wording of a fault inside a tag. -/
def message : TagFault → String
  | .emptyTag => "empty expression `\x7b\x7b\x7d\x7d`"
  | .unclosed => "expression is not closed"
  | .namelessPartial => "partial reference without a name"
  | .partialOfLiteral name literal =>
    "partial `" ++ name ++ "` takes one path as context, found Some(" ++ literalItem literal ++ ")"
  | .partialArguments name => "partial `" ++ name ++ "` takes at most one context argument"
  | .notCallable path =>
    "`" ++ ".".intercalate path.segments ++ "` cannot be called with arguments"
  | .elseArguments => "`else` takes no arguments"
  | .namelessBlock => unexpected openerItem
  | .unexpectedLiteral literal => unexpected (literalItem literal)
  | .unexpectedPath path => unexpected (pathItem path)

end TagFault

namespace HelperFault

/-- The wording of the failure of the helper with the given name. -/
def message (name : String) : HelperFault → String
  | .onlyBlock =>
    "no inline helper named `" ++ name ++ "`, it is only registered as a block helper"
  | .onlyInline =>
    "no block helper named `" ++ name ++ "`, it is only registered as an inline helper"
  | .argumentCount count => "expects exactly one argument, got " ++ toString count
  | .reported message => message

end HelperFault

namespace ReadFault

/-- The wording of a failure to read a template. -/
def message : ReadFault → String
  | .invalidText => "stream did not contain valid UTF-8"
  | .reported message => message

end ReadFault

namespace Error

/-- The wording of an error. -/
def message : Error → String
  | .lex position fault =>
    "lex error at " ++ toString position.line ++ ":" ++ toString position.column ++ ": " ++
      fault.message
  | .blockMismatch fault => "block mismatch: " ++ fault.message
  | .malformedTag fault => "syntax error: " ++ fault.message
  | .missingHelper name => "helper `" ++ name ++ "` is not registered"
  | .missingPartial name => "partial `" ++ name ++ "` is not registered"
  | .helper name fault => "helper `" ++ name ++ "` failed: " ++ fault.message name
  | .unreadable fault => "failed to read template: " ++ fault.message
  | .write => "failed to write output"

end Error

end BraceTemplate
