/-! # Tokens

A template is text with tags in it. The tokens are the stretches of text, the braces around
each tag, and the pieces between those braces: words and quoted strings.
-/

namespace BraceTemplate

/-- What the first characters of a word say about it. -/
inductive Sigil where
  | blockOpen
  | blockClose
  | inverted
  | partialCall
  | comment
  | data
  | parent
  | this
  deriving Repr, DecidableEq, Inhabited

/-- A piece of a tag. -/
inductive Piece where
  | word (value : String) (sigil : Option Sigil)
  | quoted (value : String)
  deriving Repr, DecidableEq, Inhabited

/-- A token of a template. -/
inductive Token where
  | text (content : String)
  | tagOpen
  | tagClose
  | piece (content : Piece)
  deriving Repr, DecidableEq, Inhabited

end BraceTemplate
