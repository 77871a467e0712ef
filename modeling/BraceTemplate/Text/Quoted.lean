import BraceTemplate.Text.Invisible
import BraceTemplate.Text.Marks

/-! # Quoted text in messages

A message shows a piece of the template between double quotes. Quotes and backslashes are
escaped, and characters that cannot be seen on the page are written by their code points.
-/

namespace BraceTemplate.Text

/-- Whether a character cannot be seen as itself on the page. -/
def isUnseen (c : Char) : Bool :=
  isInvisible c || isMark c

/-- How one character is written between the quotes. -/
def quotedChar (c : Char) : List Char :=
  match c with
  | '"' => ['\\', '"']
  | '\\' => ['\\', '\\']
  | '\n' => ['\\', 'n']
  | '\r' => ['\\', 'r']
  | '\t' => ['\\', 't']
  | '\x00' => ['\\', '0']
  | c =>
    if isUnseen c then
      ['\\', 'u', '\x7b'] ++ Nat.toDigits 16 c.toNat ++ ['\x7d']
    else
      [c]

/-- A text between double quotes, as messages show it. -/
def quoted (text : String) : String :=
  String.ofList ('"' :: text.toList.flatMap quotedChar ++ ['"'])

/-- A list of texts in square brackets, each between double quotes. -/
def quotedList (texts : List String) : String :=
  "[" ++ ", ".intercalate (texts.map quoted) ++ "]"

end BraceTemplate.Text
