import BraceTemplate.Item

/-! # Pairing the marks of blocks

The items of a template are read in order with a stack of the blocks that are open. A block
is closed by the name that opened it and has at most one divider; an inverted block exchanges
its two bodies.
-/

namespace BraceTemplate

/-- A block that has been opened: its bodies so far, the second one once it is divided. -/
structure OpenBlock where
  name : String
  head : BlockHead
  inverted : Bool
  body : List Node
  inverse : Option (List Node)
  deriving Repr, BEq, Inhabited

namespace OpenBlock

/-- Adds a node to the body that is being read. -/
def add (block : OpenBlock) (node : Node) : OpenBlock :=
  match block.inverse with
  | none => { block with body := block.body ++ [node] }
  | some inverse => { block with inverse := some (inverse ++ [node]) }

/-- The node that a block becomes once it is closed. -/
def toNode (block : OpenBlock) : Node :=
  let (body, inverse) :=
    if block.inverted then (block.inverse.getD [], some block.body)
    else (block.body, block.inverse)
  match block.head with
  | .helper arguments => .blockCall block.name arguments body inverse
  | .path path => .pathBlock path body inverse

end OpenBlock

/-- The nodes outside of all blocks so far, and the blocks that are open, the innermost first. -/
structure Pairing where
  nodes : List Node
  blocks : List OpenBlock
  deriving Repr, BEq, Inhabited

namespace Pairing

/-- Adds a node to the innermost block, or outside of all blocks. -/
def add (pairing : Pairing) (node : Node) : Pairing :=
  match pairing.blocks with
  | [] => { pairing with nodes := pairing.nodes ++ [node] }
  | block :: blocks => { pairing with blocks := block.add node :: blocks }

/-- Reads one item. -/
def step (pairing : Pairing) : Item → Except BlockFault Pairing
  | .node node => .ok (pairing.add node)
  | .opener name head inverted =>
    .ok { pairing with blocks := ⟨name, head, inverted, [], none⟩ :: pairing.blocks }
  | .divider =>
    match pairing.blocks with
    | [] => .error .elseOutsideBlock
    | block :: blocks =>
      match block.inverse with
      | some _ => .error (.secondElse block.name)
      | none => .ok { pairing with blocks := { block with inverse := some [] } :: blocks }
  | .closer name =>
    match pairing.blocks with
    | [] => .error (.closedUnopened name)
    | block :: blocks =>
      if block.name = name then .ok (add { pairing with blocks } block.toNode)
      else .error (.closedByOther block.name name)

/-- The nodes of a template that ends here. -/
def finish (pairing : Pairing) : Except BlockFault (List Node) :=
  match pairing.blocks with
  | [] => .ok pairing.nodes
  | block :: _ => .error (.neverClosed block.name)

end Pairing

/-- Pairs the marks of blocks in a list of items. -/
def pairBlocks (items : List Item) : Except BlockFault (List Node) := do
  (← items.foldlM Pairing.step ⟨[], []⟩).finish

end BraceTemplate
