import BraceTemplate.Template.Blocks
import BraceTemplate.Template.Conditions
import BraceTemplate.Token.Lines
import BraceTemplate.Token.Tokenize

/-! # Reading a template

From text to nodes: tokens, elements, items, blocks. Every pass goes over the whole template
before the next one starts, so of two faults the one that an earlier pass finds is reported.
-/

namespace BraceTemplate

/-- The elements of a template, in which literals and words that can only be paths are read. -/
def Element.ofTokens (tokens : List Token) : List Element :=
  (((Token.dropComments tokens).map Element.token).map Element.readLiteral).map Element.readPathWord

/-- The items of a template: first all partials are read, then all heads are told apart and
given their arguments, and then every tag becomes an item. -/
def readItems (registered : String → Bool) (tokens : List Token) :
    Except TagFault (List Item) := do
  let elements ← Element.readPartials (Element.ofTokens tokens)
  let elements := (Element.classifyHeads registered elements).map Element.readWord
  let elements ← Element.bindArguments elements
  Item.ofElements elements

/-- The template that a list of tokens denotes, given which names are registered as helpers. -/
def Template.ofTokens (registered : String → Bool) (tokens : List Token) :
    Except Error Template := do
  let items ← (readItems registered (Token.stripLines tokens)).mapError .malformedTag
  let nodes ← (pairBlocks items).mapError .blockMismatch
  return testAll nodes

/-- Reads a template from its text, given which names are registered as helpers. -/
def Template.read (registered : String → Bool) (text : String) : Except Error Template := do
  Template.ofTokens registered (← tokenize text)

/-- A text is read from its tokens. -/
theorem read_eq_ofTokens {text : String} {tokens : List Token} (h : tokenize text = .ok tokens)
    (registered : String → Bool) :
    Template.read registered text = Template.ofTokens registered tokens := by
  rw [Template.read, h]
  rfl

end BraceTemplate
