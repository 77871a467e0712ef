import BraceTemplate.Error
import BraceTemplate.Text.Marker
import BraceTemplate.Text.WhiteSpace
import BraceTemplate.Token

/-! # Scanning a template into tokens

A scanner gives the tokens of a template one at a time. It can be asked again after an error
and then goes on from the place where it stands. Each token shortens the text that is left,
so the tokens of a template come to an end.
-/

namespace BraceTemplate

/-- A place in a template, and what is known about the tag around it. -/
structure Scanner where
  /-- The text that is left. -/
  rest : List Char
  /-- The position of the text that is left. -/
  position : Position
  /-- Whether the text that is left belongs to a tag. -/
  inTag : Bool
  /-- The position of the braces that opened the last tag. -/
  tagStart : Position
  /-- Whether the tag has given no piece yet. -/
  atHead : Bool
  deriving Repr, DecidableEq, Inhabited

namespace Scanner

/-- The scanner at the start of a template. -/
def start (template : String) : Scanner :=
  ⟨template.toList, .start, false, .start, false⟩

/-- The braces that open a tag. -/
def openBraces : List Char := ['\x7b', '\x7b']

/-- The braces that close a tag. -/
def closeBraces : List Char := ['\x7d', '\x7d']

/-- The end of a comment that may hold braces. -/
def longCommentEnd : List Char := ['-', '-', '\x7d', '\x7d']

/-- The scanner that has passed the first `count` characters of its text. -/
def pass (s : Scanner) (count : Nat) : Scanner :=
  { s with rest := s.rest.drop count, position := s.position.advance (s.rest.take count) }

/-- The scanner that has passed the white space its text begins with. -/
def passSpace (s : Scanner) : Scanner :=
  s.pass (s.rest.takeWhile Text.isWhiteSpace).length

/-- The error that the last tag has the given fault. -/
def fault (s : Scanner) (fault : LexFault) : Error :=
  .lex s.tagStart fault

/-! ## Words and strings -/

/-- The length of the word that a text begins with: it goes on to white space or closing braces. -/
def wordLength : List Char → Nat
  | [] => 0
  | c :: cs =>
    if Text.isWhiteSpace c || closeBraces.isPrefixOf (c :: cs) then 0 else wordLength cs + 1

/-- The kind of path that a word can be told to be from its start. -/
def pathSigil (word : List Char) : Option Sigil :=
  if ['@'].isPrefixOf word then some .data
  else if ['.', '.'].isPrefixOf word then some .parent
  else if word = ['.'] ∨ word = "this".toList ∨ ['.', '/'].isPrefixOf word ∨
      "this.".toList.isPrefixOf word ∨ "this/".toList.isPrefixOf word then some .this
  else none

/-- The sigil that the first character of a tag stands for. -/
def headSigil? : Char → Option Sigil
  | '#' => some .blockOpen
  | '/' => some .blockClose
  | '^' => some .inverted
  | '>' => some .partialCall
  | _ => none

/-- The character that a backslash and the next character stand for. -/
def unescape : Char → Char
  | 'n' => '\n'
  | 't' => '\t'
  | c => c

/-- The value of a string that goes on to the given quote, and its length with that quote. -/
def quotedString? (quote : Char) : List Char → Option (List Char × Nat)
  | [] => none
  | c :: cs =>
    if c = quote then
      some ([], 1)
    else if c = '\\' then
      match cs with
      | [] => none
      | escaped :: cs =>
        (quotedString? quote cs).map fun (value, length) => (unescape escaped :: value, length + 2)
    else
      (quotedString? quote cs).map fun (value, length) => (c :: value, length + 1)

/-- The text of a comment after its exclamation mark, and the length of all that comes before
the closing braces. -/
def commentBody? (cs : List Char) : Except LexFault (List Char × Nat) :=
  match cs with
  | '-' :: '-' :: body =>
    match Text.splitAtMarker longCommentEnd body with
    | some (before, _) => .ok (before, before.length + 4)
    | none => .error .unterminatedComment
  | body =>
    match Text.splitAtMarker closeBraces body with
    | some (before, _) => .ok (before, before.length)
    | none => .error .unterminatedExpression

/-! ## The next token -/

/-- The result of asking for a token: the token, nothing at the end of the template, or an
error; and the scanner to ask next. -/
abbrev Step := Except Error (Option Token) × Scanner

/-- Gives a piece of `length` characters. -/
def givePiece (s : Scanner) (piece : Piece) (length : Nat) : Step :=
  (.ok (some (.piece piece)), s.pass length)

/-- The next token outside of a tag: the text up to a tag, or the braces that open one. -/
def nextInText (s : Scanner) : Step :=
  match Text.splitAtMarker openBraces s.rest with
  | some ([], _) =>
    (.ok (some .tagOpen), { s.pass 2 with inTag := true, tagStart := s.position, atHead := true })
  | some (c :: before, _) =>
    (.ok (some (.text (String.ofList (c :: before)))), s.pass (before.length + 1))
  | none =>
    if s.rest.isEmpty then (.ok none, s)
    else (.ok (some (.text (String.ofList s.rest))), s.pass s.rest.length)

/-- The comment that stands right after the braces of a tag. -/
def nextComment (s : Scanner) (afterMark : List Char) : Step :=
  let s := { s with atHead := false }
  match commentBody? afterMark with
  | .ok (body, length) =>
    s.givePiece (.word (String.ofList (Text.trim body)) (some .comment)) (length + 1)
  | .error fault => (.error (s.fault fault), s)

/-- The string in quotes that the text begins with. -/
def nextString (s : Scanner) (quote : Char) (afterQuote : List Char) : Step :=
  let s := { s with atHead := false }
  match quotedString? quote afterQuote with
  | some (value, length) => s.givePiece (.quoted (String.ofList value)) (length + 1)
  | none => (.error (s.fault .unterminatedString), s)

/-- The word that the text begins with. -/
def nextWord (s : Scanner) : Step :=
  let s := { s with atHead := false }
  let word := s.rest.take (wordLength s.rest)
  s.givePiece (.word (String.ofList word) (pathSigil word)) word.length

/-- The word after a sigil at the head of a tag, which is empty if the tag ends there. -/
def nextSigil (s : Scanner) (sigil : Sigil) : Step :=
  let s := { (s.pass 1).passSpace with atHead := false }
  if s.rest.isEmpty then
    (.error (s.fault .unterminatedExpression), s)
  else
    let word := s.rest.take (wordLength s.rest)
    s.givePiece (.word (String.ofList word) (some sigil)) word.length

/-- The next token inside a tag, from the first character that is no white space. -/
def nextPiece (s : Scanner) : Step :=
  match s.rest with
  | [] => (.error (s.fault .unterminatedExpression), s)
  | c :: cs =>
    if closeBraces.isPrefixOf (c :: cs) then
      (.ok (some .tagClose), { s.pass 2 with inTag := false })
    else if c = '"' ∨ c = '\'' then
      s.nextString c cs
    else
      match s.atHead, headSigil? c with
      | true, some sigil => s.nextSigil sigil
      | _, _ => s.nextWord

/-- The next token inside a tag. -/
def nextInTag (s : Scanner) : Step :=
  match s.atHead, s.rest with
  | true, '!' :: cs => s.nextComment cs
  | _, _ => s.passSpace.nextPiece

/-- The next token. -/
def next (s : Scanner) : Step :=
  if s.inTag then s.nextInTag else s.nextInText

end Scanner

end BraceTemplate
