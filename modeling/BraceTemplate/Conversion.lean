import BraceTemplate.Expression
import BraceTemplate.Item
import BraceTemplate.Template.Conditions
import BraceTemplate.Token.Lines

/-! # Conversion

From tokens to expressions, in general form. All passes go over one kind of items, and each of them
resolves a little more of what the tags say. Nothing keeps a pass from making a tree that has no
meaning: a head takes every expression after it as an argument, whatever it is, and the items that a
pass does not know are left to the later ones.
-/

namespace BraceTemplate.Conversion

/-- What a block depends on. -/
inductive BlockHead where
  | helper (arguments : List Expression)
  | path (target : Path)
  deriving Inhabited

/-- A token that is still to be read, or what a pass has made of some tokens. -/
inductive Item where
  | token (token : Token)
  | node (expression : Expression)
  /-- The name of a helper at the head of a tag, with the sigil before it and its arguments. -/
  | call (name : String) (sigil : Option Sigil) (arguments : List Expression)
  /-- A word that names no helper and opens a block, with the path that it denotes. -/
  | pathOpener (word : String) (target : Path) (inverted : Bool)
  | opener (name : String) (head : BlockHead) (inverted : Bool)
  | divider
  | closer (name : String)
  deriving Inhabited

/-- What is wrong with a template, with the item that was found where another one is needed. -/
inductive Fault where
  | namelessPartial
  | partialContext (partialName : String) (found : Option Item)
  | partialArguments (partialName : String)
  | notCallable (target : Path)
  | emptyTag
  | unclosed
  | unexpectedInTag (found : Item)
  | elseArguments
  | blocks (fault : BlockFault)
  | unexpectedOutside (found : Item)
  deriving Inhabited

/-! ## Literals and paths -/

/-- Text outside of tags and strings in quotes are literals. -/
def readLiteral : Item → Item
  | .token (.text content) => .node (.text content)
  | .token (.piece (.quoted value)) => .node (.text value)
  | item => item

/-- Words that can only be paths are paths. -/
def readPathWord : Item → Item
  | .token (.piece (.word value sigil)) =>
    if Element.isPathWord value sigil then .node (.path (Path.ofWord value))
    else .token (.piece (.word value sigil))
  | item => item

/-- The items of a template, in which literals and words that can only be paths are read. -/
def ofTokens (tokens : List Token) : List Item :=
  (((Token.dropComments tokens).map Item.token).map readLiteral).map readPathWord

/-! ## References to partials -/

/-- The context that an item denotes for the named partial. -/
def readContext (name : String) : Item → Except Fault Expression
  | .node (.path target) => .ok (.path target)
  | .token (.piece (.word value none)) => .ok (.path (Path.ofWord value))
  | found => .error (.partialContext name (some found))

/-- Reads every reference to a partial, with the item after its name as the context unless its tag
ends there. -/
def readPartials : List Item → Except Fault (List Item)
  | [] => .ok []
  | .token (.piece (.word name (some .partialCall))) :: items =>
    if name = "" then
      .error .namelessPartial
    else
      match items with
      | [] => .error (.partialContext name none)
      | .token .tagClose :: items =>
        (readPartials items).map fun rest =>
          .node (.partialCall name none) :: .token .tagClose :: rest
      | context :: items =>
        match readContext name context with
        | .error fault => .error fault
        | .ok expression =>
          match items with
          | .token .tagClose :: items =>
            (readPartials items).map fun rest =>
              .node (.partialCall name (some expression)) :: .token .tagClose :: rest
          | _ => .error (.partialArguments name)
  | item :: items => (readPartials items).map (item :: ·)

/-! ## Heads -/

/-- The call that a head stands for if it names a helper. -/
def classifyHead (registered : String → Bool) : Item → Item
  | .token (.piece (.word value sigil)) =>
    if Element.mayCall sigil && isHelperWord registered value then .call value sigil []
    else .token (.piece (.word value sigil))
  | head => head

/-- Finds the names of helpers right after opening braces. -/
def classifyHeads (registered : String → Bool) : List Item → List Item
  | [] => []
  | .token .tagOpen :: head :: items =>
    .token .tagOpen :: classifyHead registered head :: classifyHeads registered items
  | item :: items => item :: classifyHeads registered items

/-- Words that are left over are paths, and those that open a block make it depend on their path. -/
def readWord : Item → Item
  | .token (.piece (.word value none)) => .node (.path (Path.ofWord value))
  | .token (.piece (.word value (some .blockOpen))) =>
    if value = "" then .token (.piece (.word value (some .blockOpen)))
    else .pathOpener value (Path.ofWord value) false
  | .token (.piece (.word value (some .inverted))) =>
    if value = "" then .token (.piece (.word value (some .inverted)))
    else .pathOpener value (Path.ofWord value) true
  | item => item

/-! ## Arguments -/

/-- All expressions that a list of items begins with, and the items after them. -/
def takeArguments : List Item → List Expression × List Item
  | .node expression :: items =>
    (expression :: (takeArguments items).1, (takeArguments items).2)
  | items => ([], items)

theorem length_takeArguments_le (items : List Item) :
    (takeArguments items).2.length ≤ items.length := by
  induction items with
  | nil => exact Nat.le_refl _
  | cons item items ih =>
    cases item with
    | node expression => exact Nat.le_succ_of_le ih
    | _ => exact Nat.le_refl _

/-- The name under which a path is called as a helper. -/
def calledName (target : Path) : Except Fault String :=
  match target.bareName? with
  | some name => .ok name
  | none => .error (.notCallable target)

/-- Whether a head takes the arguments that follow it. -/
def takesArguments : Item → Bool
  | .call _ _ _ | .node (.path _) | .pathOpener _ _ _ => true
  | _ => false

/-- A head with the arguments that follow it. A path that is followed by arguments is the name of
a helper. -/
def bind : Item → List Expression → Except Fault Item
  | .call name sigil taken, arguments => .ok (.call name sigil (taken ++ arguments))
  | .node (.path target), argument :: arguments =>
    (calledName target).map fun name => .call name none (argument :: arguments)
  | .pathOpener _ target inverted, argument :: arguments =>
    (calledName target).map fun name =>
      .call name (some (if inverted then .inverted else .blockOpen)) (argument :: arguments)
  | head, _ => .ok head

/-- Gives every head the arguments that follow it. -/
def bindArguments : List Item → Except Fault (List Item)
  | [] => .ok []
  | .token .tagOpen :: head :: items =>
    if takesArguments head then
      match bind head (takeArguments items).1 with
      | .error fault => .error fault
      | .ok bound =>
        (bindArguments (takeArguments items).2).map fun rest => .token .tagOpen :: bound :: rest
    else
      (bindArguments items).map fun rest => .token .tagOpen :: head :: rest
  | item :: items => (bindArguments items).map (item :: ·)
termination_by items => items.length
decreasing_by
  · have := length_takeArguments_le items
    simp only [List.length_cons]
    omega
  · simp only [List.length_cons]
    omega
  · simp only [List.length_cons]
    omega

/-! ## Tags -/

/-- What the head of a tag becomes if nothing else is between the braces. -/
def ofHead : Item → Except Fault Item
  | .node expression => .ok (.node expression)
  | .call name none arguments =>
    if name ≠ "else" then .ok (.node (.inlineCall name arguments))
    else if arguments.isEmpty then .ok .divider
    else .error .elseArguments
  | .call name (some sigil) arguments => .ok (.opener name (.helper arguments) (sigil == .inverted))
  | .pathOpener word target inverted => .ok (.opener word (.path target) inverted)
  | .token (.piece (.word value (some .inverted))) =>
    if value = "" then .ok .divider
    else .error (.unexpectedInTag (.token (.piece (.word value (some .inverted)))))
  | .token (.piece (.word value (some .blockClose))) => .ok (.closer value)
  | found => .error (.unexpectedInTag found)

/-- Makes every tag a node or a mark of a block, and leaves what is outside of tags as it is. -/
def collapseTags : List Item → Except Fault (List Item)
  | [] => .ok []
  | .token .tagOpen :: .token .tagClose :: _ => .error .emptyTag
  | .token .tagOpen :: head :: .token .tagClose :: items =>
    match ofHead head with
    | .error fault => .error fault
    | .ok item => (collapseTags items).map (item :: ·)
  | .token .tagOpen :: _ :: found :: _ => .error (.unexpectedInTag found)
  | .token .tagOpen :: _ => .error .unclosed
  | item :: items => (collapseTags items).map (item :: ·)

/-! ## Blocks -/

/-- A block that has been opened: its bodies so far, the second one once it is divided. -/
structure OpenBlock where
  name : String
  head : BlockHead
  inverted : Bool
  body : List Expression
  inverse : Option (List Expression)
  deriving Inhabited

namespace OpenBlock

/-- Adds an expression to the body that is being read. -/
def add (block : OpenBlock) (expression : Expression) : OpenBlock :=
  match block.inverse with
  | none => { block with body := block.body ++ [expression] }
  | some inverse => { block with inverse := some (inverse ++ [expression]) }

/-- The expression that a block becomes once it is closed. -/
def toExpression (block : OpenBlock) : Expression :=
  let (body, inverse) :=
    if block.inverted then (block.inverse.getD [], some block.body)
    else (block.body, block.inverse)
  match block.head with
  | .helper arguments => .blockCall block.name arguments body inverse
  | .path target => .pathBlock target body inverse

end OpenBlock

/-- The expressions outside of all blocks so far, and the blocks that are open, the innermost
first. -/
structure Pairing where
  expressions : List Expression
  blocks : List OpenBlock
  deriving Inhabited

namespace Pairing

/-- Adds an expression to the innermost block, or outside of all blocks. -/
def add (pairing : Pairing) (expression : Expression) : Pairing :=
  match pairing.blocks with
  | [] => { pairing with expressions := pairing.expressions ++ [expression] }
  | block :: blocks => { pairing with blocks := block.add expression :: blocks }

/-- Reads one item, which can only be an expression or a mark of a block. -/
def step (pairing : Pairing) : Item → Except Fault Pairing
  | .node expression => .ok (pairing.add expression)
  | .opener name head inverted =>
    .ok { pairing with blocks := ⟨name, head, inverted, [], none⟩ :: pairing.blocks }
  | .divider =>
    match pairing.blocks with
    | [] => .error (.blocks .elseOutsideBlock)
    | block :: blocks =>
      match block.inverse with
      | some _ => .error (.blocks (.secondElse block.name))
      | none => .ok { pairing with blocks := { block with inverse := some [] } :: blocks }
  | .closer name =>
    match pairing.blocks with
    | [] => .error (.blocks (.closedUnopened name))
    | block :: blocks =>
      if block.name = name then .ok (add { pairing with blocks } block.toExpression)
      else .error (.blocks (.closedByOther block.name name))
  | found => .error (.unexpectedOutside found)

/-- The expressions of a template that ends here. -/
def finish (pairing : Pairing) : Except Fault (List Expression) :=
  match pairing.blocks with
  | [] => .ok pairing.expressions
  | block :: _ => .error (.blocks (.neverClosed block.name))

end Pairing

/-- Pairs the marks of blocks in a list of items. -/
def pairBlocks (items : List Item) : Except Fault (List Expression) := do
  (← items.foldlM Pairing.step ⟨[], []⟩).finish

/-! ## Conditions -/

/-- The arguments of the block with the given name, the first of which is replaced by its truth in a
condition. -/
def testArguments (name : String) : List Expression → List Expression
  | [] => []
  | argument :: arguments =>
    if conditionNames.contains name then .truth argument :: arguments else argument :: arguments

mutual

/-- An expression with its condition and those in its bodies tested. -/
def testConditions : Expression → Expression
  | .blockCall name arguments body inverse =>
    .blockCall name (testArguments name arguments) (testAll body) (testInverse inverse)
  | .pathBlock target body inverse => .pathBlock target (testAll body) (testInverse inverse)
  | .text content => .text content
  | .path target => .path target
  | .truth operand => .truth operand
  | .inlineCall name arguments => .inlineCall name arguments
  | .partialCall name context => .partialCall name context

/-- Expressions in a row with all conditions tested. -/
def testAll : List Expression → List Expression
  | [] => []
  | expression :: expressions => testConditions expression :: testAll expressions

/-- An inverse body with all conditions tested. -/
def testInverse : Option (List Expression) → Option (List Expression)
  | none => none
  | some expressions => some (testAll expressions)

end

/-! ## All passes -/

/-- The items of a template: first all partials are read, then all heads are told apart and given
their arguments, and then every tag becomes an item. -/
def readItems (registered : String → Bool) (tokens : List Token) : Except Fault (List Item) := do
  let items ← readPartials (ofTokens tokens)
  let items := (classifyHeads registered items).map readWord
  let items ← bindArguments items
  collapseTags items

/-- The tree of expressions that a list of tokens denotes, given which names are registered as
helpers. -/
def convert (registered : String → Bool) (tokens : List Token) :
    Except Fault (List Expression) := do
  let items ← readItems registered (Token.stripLines tokens)
  let expressions ← pairBlocks items
  return testAll expressions

/-! ## The causes of faults -/

/-- The cause of a fault at an item that stands where it is not expected. Items that no template has
at such a place are taken for the sign of a tag that is not closed. -/
def Item.unexpected : Item → TagFault
  | .node (.text text) => .unexpectedLiteral text
  | .node (.path target) => .unexpectedPath target
  | .token (.piece (.word _ (some .blockOpen))) => .namelessBlock
  | _ => .unclosed

/-- The cause of a fault. -/
def Fault.toError : Fault → Error
  | .namelessPartial => .malformedTag .namelessPartial
  | .partialContext name (some (.node (.text text))) => .malformedTag (.partialOfLiteral name text)
  | .partialContext _ _ => .malformedTag .unclosed
  | .partialArguments name => .malformedTag (.partialArguments name)
  | .notCallable target => .malformedTag (.notCallable target)
  | .emptyTag => .malformedTag .emptyTag
  | .unclosed => .malformedTag .unclosed
  | .unexpectedInTag found => .malformedTag found.unexpected
  | .elseArguments => .malformedTag .elseArguments
  | .blocks fault => .blockMismatch fault
  | .unexpectedOutside _ => .malformedTag .unclosed

end BraceTemplate.Conversion
