import BraceTemplate.Element

/-! # Heads of tags

Whether a word at the head of a tag names a helper depends on what is registered. A word that
names none is a path, unless arguments follow: then it is called as a helper all the same,
which is found or missed when the template is rendered.
-/

namespace BraceTemplate

/-- The names that are helpers even if nothing is registered under them. -/
def reservedNames : List String := ["else", "each"]

/-- Whether a word at the head of a tag is the name of a helper. -/
def isHelperWord (registered : String → Bool) (word : String) : Bool :=
  word != "" && (registered word || reservedNames.contains word)

namespace Element

/-! ## Names of helpers -/

/-- Whether a word with this sigil may name a helper. -/
def mayCall : Option Sigil → Bool
  | none | some .blockOpen | some .inverted => true
  | _ => false

/-- The call that a head stands for if it names a helper. -/
def classifyHead (registered : String → Bool) : Element → Element
  | .token (.piece (.word value sigil)) =>
    if mayCall sigil && isHelperWord registered value then .call value sigil []
    else .token (.piece (.word value sigil))
  | head => head

/-- Finds the names of helpers right after opening braces. -/
def classifyHeads (registered : String → Bool) : List Element → List Element
  | [] => []
  | .token .tagOpen :: head :: elements =>
    .token .tagOpen :: classifyHead registered head :: classifyHeads registered elements
  | element :: elements => element :: classifyHeads registered elements

/-- Words that are left over are paths. -/
def readWord : Element → Element
  | .token (.piece (.word value none)) => .node (.output (Path.ofWord value))
  | .token (.piece (.word value (some .blockOpen))) =>
    if value = "" then .token (.piece (.word value (some .blockOpen)))
    else .pathOpener value (Path.ofWord value) false
  | .token (.piece (.word value (some .inverted))) =>
    if value = "" then .token (.piece (.word value (some .inverted)))
    else .pathOpener value (Path.ofWord value) true
  | element => element

/-! ## Arguments -/

/-- The argument that an element is, if it is one. -/
def argument? : Element → Option Argument
  | .node (.text text) => some (.literal text)
  | .node (.output path) => some (.path path)
  | _ => none

/-- The arguments that a list of elements begins with, and the elements after them. -/
def takeArguments : List Element → List Argument × List Element
  | [] => ([], [])
  | element :: elements =>
    match element.argument? with
    | none => ([], element :: elements)
    | some argument =>
      (argument :: (takeArguments elements).1, (takeArguments elements).2)

theorem length_takeArguments_le (elements : List Element) :
    (takeArguments elements).2.length ≤ elements.length := by
  induction elements with
  | nil => exact Nat.le_refl _
  | cons element elements ih =>
    rw [takeArguments]
    split
    · exact Nat.le_refl _
    · exact Nat.le_succ_of_le ih

/-- The name under which a path is called as a helper. -/
def calledName (path : Path) : Except TagFault String :=
  match path.bareName? with
  | some name => .ok name
  | none => .error (.notCallable path)

/-- Whether a head takes the arguments that follow it. -/
def takesArguments : Element → Bool
  | .call _ _ _ | .node (.output _) | .pathOpener _ _ _ => true
  | _ => false

/-- A head with the arguments that follow it. A path that is followed by arguments is the name of
a helper. -/
def bind : Element → List Argument → Except TagFault Element
  | .call name sigil taken, arguments => .ok (.call name sigil (taken ++ arguments))
  | .node (.output path), argument :: arguments =>
    (calledName path).map fun name => .call name none (argument :: arguments)
  | .pathOpener _ path inverted, argument :: arguments =>
    (calledName path).map fun name =>
      .call name (some (if inverted then .inverted else .blockOpen)) (argument :: arguments)
  | head, _ => .ok head

/-- Gives every head the arguments that follow it. -/
def bindArguments : List Element → Except TagFault (List Element)
  | [] => .ok []
  | .token .tagOpen :: head :: elements =>
    if head.takesArguments then
      match head.bind (takeArguments elements).1 with
      | .error fault => .error fault
      | .ok bound =>
        (bindArguments (takeArguments elements).2).map fun rest =>
          .token .tagOpen :: bound :: rest
    else
      (bindArguments elements).map fun rest => .token .tagOpen :: head :: rest
  | element :: elements => (bindArguments elements).map (element :: ·)
termination_by elements => elements.length
decreasing_by
  · have := length_takeArguments_le elements
    simp only [List.length_cons]
    omega
  · simp only [List.length_cons]
    omega
  · simp only [List.length_cons]
    omega

end Element

end BraceTemplate
