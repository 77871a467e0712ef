import BraceTemplate.Error
import BraceTemplate.Template
import BraceTemplate.Token

/-! # Elements

What a template consists of on the way from tokens to nodes. Several passes go over the list of
elements, and each of them resolves a little more of what the tags say. No pass looks further
than one element ahead of a tag's end.
-/

namespace BraceTemplate

/-- A token that is still to be read, or what a pass has made of some tokens. -/
inductive Element where
  | token (token : Token)
  | node (node : Node)
  /-- The name of a helper at the head of a tag, with the sigil before it and its arguments. -/
  | call (name : String) (sigil : Option Sigil) (arguments : List Argument)
  /-- A word that names no helper and opens a block, with the path that it denotes. -/
  | pathOpener (word : String) (path : Path) (inverted : Bool)
  deriving Repr, Inhabited

namespace Element

/-! ## Literals and paths -/

/-- Text outside of tags and strings in quotes are literals. -/
def readLiteral : Element → Element
  | .token (.text content) => .node (.text content)
  | .token (.piece (.quoted value)) => .node (.text value)
  | element => element

/-- Whether a word can only be a path. -/
def isPathWord (value : String) : Option Sigil → Bool
  | some .data | some .parent | some .this => true
  | none => value.toList.any Path.isSeparator
  | _ => false

/-- Words that can only be paths are paths. -/
def readPathWord : Element → Element
  | .token (.piece (.word value sigil)) =>
    if isPathWord value sigil then .node (.output (Path.ofWord value))
    else .token (.piece (.word value sigil))
  | element => element

/-! ## References to partials -/

/-- The path that an element denotes as the context of the named partial. -/
def contextPath (name : String) : Element → Except TagFault Path
  | .node (.output path) => .ok path
  | .token (.piece (.word value none)) => .ok (Path.ofWord value)
  | .node (.text text) => .error (.partialOfLiteral name text)
  | _ => .error .unclosed

/-- Reads every reference to a partial, which takes one path as its context or nothing. -/
def readPartials : List Element → Except TagFault (List Element)
  | [] => .ok []
  | .token (.piece (.word name (some .partialCall))) :: elements =>
    if name = "" then
      .error .namelessPartial
    else
      match elements with
      | [] => .error .unclosed
      | .token .tagClose :: elements =>
        (readPartials elements).map fun rest =>
          .node (.partialCall name none) :: .token .tagClose :: rest
      | context :: elements =>
        match contextPath name context with
        | .error fault => .error fault
        | .ok path =>
          match elements with
          | .token .tagClose :: elements =>
            (readPartials elements).map fun rest =>
              .node (.partialCall name (some path)) :: .token .tagClose :: rest
          | _ => .error (.partialArguments name)
  | element :: elements => (readPartials elements).map (element :: ·)

end Element

end BraceTemplate
