import BraceTemplate.Value

/-! # Reading JSON

Reads a value from JSON text. Of two members with one name the later one counts, and a text
that nests too deeply, escapes half of a surrogate pair or goes on after its value is refused.
-/

namespace BraceTemplate.Json

/-- The arrays and objects that may stand inside one another. -/
def maxNesting : Nat := 127

/-- The text without the blanks it begins with. -/
def skipBlanks (cs : List Char) : List Char :=
  cs.dropWhile fun c => c = ' ' || c = '\t' || c = '\n' || c = '\r'

/-! ## Strings -/

/-- The value of a hexadecimal digit. -/
def hexValue? (c : Char) : Option Nat :=
  if c.isDigit then some (c.toNat - '0'.toNat)
  else if 'a' ≤ c ∧ c ≤ 'f' then some (c.toNat - 'a'.toNat + 10)
  else if 'A' ≤ c ∧ c ≤ 'F' then some (c.toNat - 'A'.toNat + 10)
  else none

/-- The number written with four hexadecimal digits. -/
def hexQuad? (a b c d : Char) : Option Nat := do
  return ((← hexValue? a) * 16 + (← hexValue? b)) * 256 + ((← hexValue? c) * 16 + (← hexValue? d))

/-- The character that a short escape stands for. -/
def shortEscape? : Char → Option Char
  | '"' => some '"'
  | '\\' => some '\\'
  | '/' => some '/'
  | 'b' => some '\x08'
  | 'f' => some '\x0c'
  | 'n' => some '\n'
  | 'r' => some '\r'
  | 't' => some '\t'
  | _ => none

/-- The code point of a surrogate pair. -/
def joinSurrogates? (high low : Nat) : Option Char :=
  if 0xD800 ≤ high ∧ high < 0xDC00 ∧ 0xDC00 ≤ low ∧ low < 0xE000 then
    some (Char.ofNat (0x10000 + (high - 0xD800) * 0x400 + (low - 0xDC00)))
  else
    none

/-- The character with a code point that is no surrogate. -/
def singleUnit? (unit : Nat) : Option Char :=
  if 0xD800 ≤ unit ∧ unit < 0xE000 then none else some (Char.ofNat unit)

/-- The characters of a string up to its closing quote, and the text after that quote. -/
def readString : List Char → Option (List Char × List Char)
  | [] => none
  | '"' :: rest => some ([], rest)
  | '\\' :: 'u' :: a :: b :: c :: d :: rest =>
    match hexQuad? a b c d with
    | none => none
    | some unit =>
      match singleUnit? unit with
      | some char => (readString rest).map fun (s, r) => (char :: s, r)
      | none =>
        match rest with
        | '\\' :: 'u' :: e :: f :: g :: h :: rest =>
          match (hexQuad? e f g h).bind (joinSurrogates? unit) with
          | some char => (readString rest).map fun (s, r) => (char :: s, r)
          | none => none
        | _ => none
  | '\\' :: c :: rest =>
    match shortEscape? c with
    | some char => (readString rest).map fun (s, r) => (char :: s, r)
    | none => none
  | c :: rest =>
    if c.toNat < 0x20 then none else (readString rest).map fun (s, r) => (c :: s, r)

/-! ## Numbers -/

/-- Splits off the digits that a text begins with. -/
def takeDigits (cs : List Char) : List Char × List Char :=
  (cs.takeWhile Char.isDigit, cs.dropWhile Char.isDigit)

/-- The power of ten after a number, if one is written. -/
def readPower (cs : List Char) : Option (Option Int × List Char) :=
  match cs with
  | e :: rest =>
    if e = 'e' ∨ e = 'E' then
      let (negative, rest) :=
        match rest with
        | '-' :: rest => (true, rest)
        | '+' :: rest => (false, rest)
        | rest => (false, rest)
      let (digits, rest) := takeDigits rest
      (Text.readDigits digits).map fun value =>
        (some (if negative then -(value : Int) else (value : Int)), rest)
    else
      some (none, cs)
  | [] => some (none, [])

/-- The digits after a point, if a point is written. -/
def readFraction (cs : List Char) : Option (Option (List Char) × List Char) :=
  match cs with
  | '.' :: rest =>
    let (digits, rest) := takeDigits rest
    if digits.isEmpty then none else some (some digits, rest)
  | cs => some (none, cs)

/-- A number: digits, of which only a single one may be a leading zero, then a fraction and a
power of ten. -/
def readNumber (cs : List Char) : Option (Number × List Char) := do
  let (negative, cs) :=
    match cs with
    | '-' :: rest => (true, rest)
    | cs => (false, cs)
  let (whole, rest) := takeDigits cs
  if whole.isEmpty || (whole.head? == some '0' && whole != ['0']) then
    none
  let (fraction, rest) ← readFraction rest
  let (power, rest) ← readPower rest
  match fraction, power with
  | none, none => return (← Number.ofDigits? negative whole, rest)
  | fraction, power =>
    return (← Number.ofParts? negative whole (fraction.getD []) (power.getD 0), rest)

/-! ## Values -/

/-- One or more parts with commas between them, and the text after the closing character. -/
def readParts {α : Type} (read : List Char → Option (α × List Char)) (close : Char) :
    Nat → List Char → Option (List α × List Char)
  | 0, _ => none
  | fuel + 1, cs => do
    let (part, rest) ← read cs
    match skipBlanks rest with
    | ',' :: rest =>
      let (parts, rest) ← readParts read close fuel rest
      return (part :: parts, rest)
    | c :: rest => if c = close then return ([part], rest) else none
    | [] => none

/-- The parts of an array or object after its opening character. -/
def readGroup {α : Type} (read : List Char → Option (α × List Char)) (close : Char)
    (cs : List Char) : Option (List α × List Char) :=
  match skipBlanks cs with
  | c :: rest => if c = close then some ([], rest) else readParts read close cs.length (c :: rest)
  | [] => none

/-- A member: its name, a colon and its value. -/
def readMember (read : List Char → Option (Value × List Char)) (cs : List Char) :
    Option ((String × Value) × List Char) :=
  match skipBlanks cs with
  | '"' :: rest => do
    let (name, rest) ← readString rest
    match skipBlanks rest with
    | ':' :: rest =>
      let (value, rest) ← read rest
      return ((String.ofList name, value), rest)
    | _ => none
  | _ => none

/-- A value and the text after it, with at most `nesting` arrays and objects inside one another. -/
def readValue (nesting : Nat) (cs : List Char) : Option (Value × List Char) :=
  match skipBlanks cs with
  | 'n' :: 'u' :: 'l' :: 'l' :: rest => some (.null, rest)
  | 't' :: 'r' :: 'u' :: 'e' :: rest => some (.bool true, rest)
  | 'f' :: 'a' :: 'l' :: 's' :: 'e' :: rest => some (.bool false, rest)
  | '"' :: rest => (readString rest).map fun (s, r) => (.string (String.ofList s), r)
  | '[' :: rest =>
    match nesting with
    | 0 => none
    | nesting + 1 =>
      (readGroup (readValue nesting) ']' rest).map fun (items, r) => (.array items, r)
  | '\x7b' :: rest =>
    match nesting with
    | 0 => none
    | nesting + 1 =>
      (readGroup (readMember (readValue nesting)) '\x7d' rest).map fun (members, r) =>
        (.object (Table.ofPairs members), r)
  | rest => (readNumber rest).map fun (n, r) => (.number n, r)
termination_by structural nesting

/-- The value that a JSON text denotes. -/
def read? (text : String) : Option Value := do
  let (value, rest) ← readValue maxNesting text.toList
  if (skipBlanks rest).isEmpty then some value else none

end BraceTemplate.Json
