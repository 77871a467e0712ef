import BraceTemplate.Error

/-! # Template sources

A source gives the bytes of a template chunk by chunk and then ends or fails. The bytes are
taken for text only once all of them are there, so a failing source is reported as such
whatever it gave before.
-/

namespace BraceTemplate

/-- The chunks that a source gives, and the text of its failure if it fails after them. -/
structure Source where
  chunks : List (List UInt8)
  failure : Option String
  deriving Repr, DecidableEq, Inhabited

/-- The text that a source gives, if it ends well and its bytes are UTF-8. -/
def Source.read (source : Source) : Except Error String :=
  match source.failure with
  | some message => .error (.unreadable (.reported message))
  | none =>
    match String.fromUTF8? ⟨source.chunks.flatten.toArray⟩ with
    | some text => .ok text
    | none => .error (.unreadable .invalidText)

end BraceTemplate
