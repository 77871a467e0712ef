import BraceTemplate.Element.Head

/-! # Items

A tag ends up as an item: a node of the template, or one of the marks around the bodies of a
block. By then its head has taken all that stands between the braces.
-/

namespace BraceTemplate

/-- What a block depends on. -/
inductive BlockHead where
  | helper (arguments : List Argument)
  | path (path : Path)
  deriving Repr, DecidableEq, Inhabited

/-- A node, or one of the marks around the bodies of a block. -/
inductive Item where
  | node (node : Node)
  | opener (name : String) (head : BlockHead) (inverted : Bool)
  | divider
  | closer (name : String)
  deriving Repr, BEq, Inhabited

namespace Element

/-- The fault of an element that stands where it is not expected. Elements that no template has
at such a place are taken for the sign of a tag that is not closed. -/
def unexpected : Element → TagFault
  | .node (.text text) => .unexpectedLiteral text
  | .node (.output path) => .unexpectedPath path
  | .token (.piece (.word _ (some .blockOpen))) => .namelessBlock
  | _ => .unclosed

/-- The item of a tag that holds nothing but the given head. -/
def toItem : Element → Except TagFault Item
  | .node part => .ok (.node part)
  | .call name none arguments =>
    if name ≠ "else" then .ok (.node (.inlineCall name arguments))
    else if arguments.isEmpty then .ok .divider
    else .error .elseArguments
  | .call name (some sigil) arguments => .ok (.opener name (.helper arguments) (sigil == .inverted))
  | .pathOpener word path inverted => .ok (.opener word (.path path) inverted)
  | .token (.piece (.word value (some .inverted))) =>
    if value = "" then .ok .divider else .error .unclosed
  | .token (.piece (.word value (some .blockClose))) => .ok (.closer value)
  | head => .error head.unexpected

end Element

/-- The items of a list of elements: every tag is one item, and so is every node outside. -/
def Item.ofElements : List Element → Except TagFault (List Item)
  | [] => .ok []
  | .token .tagOpen :: .token .tagClose :: _ => .error .emptyTag
  | .token .tagOpen :: head :: .token .tagClose :: elements =>
    match head.toItem with
    | .error fault => .error fault
    | .ok item => (Item.ofElements elements).map (item :: ·)
  | .token .tagOpen :: _ :: element :: _ => .error element.unexpected
  | .token .tagOpen :: _ => .error .unclosed
  | .node part :: elements => (Item.ofElements elements).map (.node part :: ·)
  | _ :: _ => .error .unclosed

end BraceTemplate
