import BraceTemplate.Conversion
import BraceTemplate.Proofs.Reading.Paths

/-!
# Templates in general form

The passes over items that hold any expression are those over elements, items and nodes, but for
what the types of the latter leave no room for. Here are the passes for which that makes no
difference, whatever they are given: each of them ends with the same result in general form, or with
a fault of the same cause.
-/

namespace BraceTemplate

/-! ## Elements, items and blocks in general form -/

/-- An element in general form. -/
def Element.general : Element → Conversion.Item
  | .token found => .token found
  | .node part => .node part.toExpression
  | .call name sigil arguments => .call name sigil (arguments.map Argument.toExpression)
  | .pathOpener word target inverted => .pathOpener word target inverted

/-- What a block depends on, in general form. -/
def BlockHead.general : BlockHead → Conversion.BlockHead
  | .helper arguments => .helper (arguments.map Argument.toExpression)
  | .path target => .path target

/-- An item in general form. -/
def Item.general : Item → Conversion.Item
  | .node part => .node part.toExpression
  | .opener name head inverted => .opener name head.general inverted
  | .divider => .divider
  | .closer name => .closer name

/-- An open block in general form. -/
def OpenBlock.general (block : OpenBlock) : Conversion.OpenBlock where
  name := block.name
  head := block.head.general
  inverted := block.inverted
  body := toExpressions block.body
  inverse := inverseExpressions block.inverse

/-- A pairing in general form. -/
def Pairing.general (pairing : Pairing) : Conversion.Pairing where
  expressions := toExpressions pairing.nodes
  blocks := pairing.blocks.map OpenBlock.general

theorem Element.general_token (found : Token) : general (.token found) = .token found := rfl

theorem Element.general_eq_token {element : Element} {token : Token} :
    element.general = .token token ↔ element = .token token := by
  cases element <;> simp [general]

/-! ## Ending alike -/

/-- Two passes end alike: with one result in two forms, or with faults of the same cause. -/
inductive Agrees {ε α β : Type} (cause : ε → Error) (form : α → β) :
    Except ε α → Except Conversion.Fault β → Prop
  | ok (a : α) : Agrees cause form (.ok a) (.ok (form a))
  | error {fault : ε} {found : Conversion.Fault} (h : found.toError = cause fault) :
    Agrees cause form (.error fault) (.error found)

namespace Agrees

variable {ε α β γ δ : Type} {cause : ε → Error} {form : α → β} {typed : Except ε α}
  {found : Except Conversion.Fault β}

theorem of_eq {a : α} {b : β} (h : form a = b) : Agrees cause form (.ok a) (.ok b) := by
  subst h
  exact .ok a

theorem map {next : α → γ} {nextFound : β → δ} {nextForm : γ → δ}
    (h : Agrees cause form typed found) (hnext : ∀ a, nextFound (form a) = nextForm (next a)) :
    Agrees cause nextForm (typed.map next) (found.map nextFound) := by
  cases h with
  | ok a => exact .of_eq (hnext a).symm
  | error h => exact .error h

theorem bind {next : α → Except ε γ} {nextFound : β → Except Conversion.Fault δ}
    {nextForm : γ → δ} (h : Agrees cause form typed found)
    (hnext : ∀ a, typed = .ok a → Agrees cause nextForm (next a) (nextFound (form a))) :
    Agrees cause nextForm (typed >>= next) (found >>= nextFound) := by
  cases h with
  | ok a => exact hnext a rfl
  | error h => exact .error h

theorem eq_ok {a : α} (h : Agrees cause form (.ok a) found) : found = .ok (form a) := by
  cases h with
  | ok a => rfl

theorem exists_ok {b : β} (h : Agrees cause form typed (.ok b)) :
    ∃ a, typed = .ok a ∧ form a = b := by
  cases h with
  | ok a => exact ⟨a, rfl, rfl⟩

theorem exists_eq_error {fault : ε} (h : Agrees cause form (.error fault) found) :
    ∃ general : Conversion.Fault, found = .error general ∧ general.toError = cause fault := by
  cases h with
  | error h => exact ⟨_, rfl, h⟩

theorem mapError (h : Agrees cause form typed found) :
    Agrees id form (typed.mapError cause) found := by
  cases h with
  | ok a => exact .ok a
  | error h => exact .error h

theorem mapError_eq {typed : Except Error α} (h : Agrees id form typed found) :
    found.mapError Conversion.Fault.toError = typed.map form := by
  cases h with
  | ok a => rfl
  | error h => exact congrArg Except.error h

end Agrees

/-! ## Passes that look at single elements -/

namespace Element

theorem general_readLiteral (element : Element) :
    element.readLiteral.general = Conversion.readLiteral element.general := by
  cases element with
  | token token =>
    cases token with
    | piece piece => cases piece <;> rfl
    | _ => rfl
  | _ => rfl

theorem general_readPathWord (element : Element) :
    element.readPathWord.general = Conversion.readPathWord element.general := by
  cases element with
  | token token =>
    cases token with
    | piece piece =>
      cases piece with
      | quoted value => rfl
      | word value sigil => exact apply_ite general _ _ _
    | _ => rfl
  | _ => rfl

theorem general_classifyHead (registered : String → Bool) (head : Element) :
    (classifyHead registered head).general = Conversion.classifyHead registered head.general := by
  cases head with
  | token token =>
    cases token with
    | piece piece =>
      cases piece with
      | quoted value => rfl
      | word value sigil => exact apply_ite general _ _ _
    | _ => rfl
  | _ => rfl

/-- A word is read into the same element in both forms. -/
theorem general_readWord (element : Element) :
    element.readWord.general = Conversion.readWord element.general := by
  cases element with
  | token token =>
    cases token with
    | piece piece =>
      cases piece with
      | quoted value => rfl
      | word value sigil =>
        rcases sigil with - | sigil
        · rfl
        · cases sigil with
          -- Openers are told from a nameless tag, on both sides by the same test.
          | blockOpen => exact apply_ite general _ _ _
          | inverted => exact apply_ite general _ _ _
          | _ => rfl
    | _ => rfl
  | _ => rfl

theorem general_ofTokens (tokens : List Token) :
    (ofTokens tokens).map general = Conversion.ofTokens tokens := by
  simp only [ofTokens, Conversion.ofTokens, List.map_map]
  refine List.map_congr_left fun token _ => ?_
  exact (general_readPathWord _).trans (congrArg _ (general_readLiteral _))

theorem general_classifyHeads (registered : String → Bool) (elements : List Element) :
    (classifyHeads registered elements).map general =
      Conversion.classifyHeads registered (elements.map general) := by
  fun_induction classifyHeads registered elements with
  | case1 => rfl
  | case2 head elements ih =>
    rw [List.map_cons, List.map_cons, ih, general_classifyHead]
    rfl
  | case3 element elements h ih =>
    rw [List.map_cons, List.map_cons, ih, Conversion.classifyHeads]
    intro head later hopen hlater
    obtain ⟨first, rest, rfl, -, -⟩ := List.map_eq_cons_iff.1 hlater
    exact h first rest (general_eq_token.1 hopen) rfl

/-! ## Partials -/

/-- Both forms take the same elements for the context of a partial, and refuse the same. -/
theorem agrees_contextPath (name : String) (context : Element) :
    Agrees .malformedTag Expression.path (contextPath name context)
      (Conversion.readContext name context.general) := by
  cases context with
  | token token =>
    cases token with
    | piece piece =>
      cases piece with
      | quoted value => exact .error rfl
      | word value sigil =>
        cases sigil with
        | none => exact .ok _
        | some sigil => exact .error rfl
    | _ => exact .error rfl
  | node node =>
    cases node with
    | output path => exact .ok path
    | _ => exact .error rfl
  | _ => exact .error rfl

end Element

namespace Conversion

theorem readPartials_nameless (items : List Item) :
    readPartials (.token (.piece (.word "" (some .partialCall))) :: items) =
      .error .namelessPartial := by
  rw [readPartials.eq_def]
  rfl

theorem readPartials_end {name : String} (hname : name ≠ "") :
    readPartials [.token (.piece (.word name (some .partialCall)))] =
      .error (.partialContext name none) := by
  rw [readPartials.eq_def]
  exact if_neg hname

theorem readPartials_close {name : String} (hname : name ≠ "") (items : List Item) :
    readPartials (.token (.piece (.word name (some .partialCall))) :: .token .tagClose :: items) =
      (readPartials items).map fun rest =>
        .node (.partialCall name none) :: .token .tagClose :: rest := by
  rw [readPartials.eq_def]
  exact if_neg hname

/-- One step of the general pass over the partials: a name, then an element that is its context,
then the end of the tag. -/
theorem readPartials_context {name : String} (hname : name ≠ "") {context : Item}
    (hcontext : context ≠ .token .tagClose) (items : List Item) :
    readPartials (.token (.piece (.word name (some .partialCall))) :: context :: items) =
      match readContext name context with
      | .error fault => .error fault
      | .ok expression =>
        match items with
        | .token .tagClose :: items =>
          (readPartials items).map fun rest =>
            .node (.partialCall name (some expression)) :: .token .tagClose :: rest
        | _ => .error (.partialArguments name) := by
  rw [readPartials.eq_def]
  apply (if_neg hname).trans
  split
  · next h => cases h
  · next h => cases h; exact absurd rfl hcontext
  · next h => cases h; rfl

end Conversion

namespace Element

/-- Partials are read alike in either form. -/
theorem agrees_readPartials (elements : List Element) :
    Agrees .malformedTag (List.map general) (readPartials elements)
      (Conversion.readPartials (elements.map general)) := by
  fun_induction readPartials elements with
  | case1 => exact .ok []
  | case2 elements =>
    rw [List.map_cons, general, Conversion.readPartials_nameless]
    exact .error rfl
  | case3 name hname =>
    rw [List.map_cons, general, List.map_nil, Conversion.readPartials_end hname]
    exact .error rfl
  | case4 name hname elements ih =>
    rw [List.map_cons, List.map_cons, general, general, Conversion.readPartials_close hname]
    exact ih.map fun _ => rfl
  | case5 name hname context elements hcontext fault hfault =>
    -- What follows the name of the partial is no context.
    have hread := agrees_contextPath name context
    rw [hfault] at hread
    obtain ⟨found, hfound, hcause⟩ := hread.exists_eq_error
    rw [List.map_cons, List.map_cons, general,
      Conversion.readPartials_context hname (mt general_eq_token.1 hcontext), hfound]
    exact .error hcause
  | case6 name hname context hcontext path hpath elements ih =>
    have hread := agrees_contextPath name context
    rw [hpath] at hread
    rw [List.map_cons, List.map_cons, general,
      Conversion.readPartials_context hname (mt general_eq_token.1 hcontext), hread.eq_ok]
    exact ih.map fun _ => rfl
  | case7 name hname context elements hcontext path hpath helements =>
    -- The tag does not end after the context.
    have hread := agrees_contextPath name context
    rw [hpath] at hread
    rw [List.map_cons, List.map_cons, general,
      Conversion.readPartials_context hname (mt general_eq_token.1 hcontext), hread.eq_ok]
    dsimp only
    split
    · next later hlater =>
      obtain ⟨first, rest, rfl, hfirst, -⟩ := List.map_eq_cons_iff.1 hlater
      exact (helements rest (congrArg (· :: rest) (general_eq_token.1 hfirst))).elim
    · exact .error rfl
  | case8 element elements h ih =>
    rw [List.map_cons, Conversion.readPartials]
    · exact ih.map fun _ => rfl
    · intro name hword
      exact h name (general_eq_token.1 hword)

/-! ## Heads of tags -/

theorem agrees_calledName (path : Path) :
    Agrees .malformedTag id (calledName path) (Conversion.calledName path) := by
  rw [calledName, Conversion.calledName]
  cases path.bareName? with
  | some name => exact .ok name
  | none => exact .error rfl

theorem takesArguments_general (head : Element) :
    Conversion.takesArguments head.general = head.takesArguments := by
  cases head with
  | node part => cases part <;> rfl
  | _ => rfl

/-- Given the same arguments, a head becomes the same call in either form. -/
theorem agrees_bind (head : Element) (arguments : List Argument) :
    Agrees .malformedTag general (head.bind arguments)
      (Conversion.bind head.general (arguments.map Argument.toExpression)) := by
  cases head with
  | token found => cases arguments <;> exact .ok _
  | call name sigil taken =>
    refine .of_eq ?_
    rw [general, List.map_append]
  | node part =>
    cases arguments with
    | nil => cases part <;> exact .ok _
    | cons argument arguments =>
      cases part with
      | output path => exact (agrees_calledName path).map fun _ => rfl
      | _ => exact .ok _
  | pathOpener word path inverted =>
    cases arguments with
    | nil => exact .ok _
    | cons argument arguments => exact (agrees_calledName path).map fun _ => rfl

/-- An element out of place is named alike in the error of both forms. -/
theorem unexpected_general (element : Element) :
    element.general.unexpected = element.unexpected := by
  cases element with
  | node part => cases part <;> rfl
  | token found =>
    cases found with
    | piece piece =>
      cases piece with
      | quoted value => rfl
      | word value sigil =>
        rcases sigil with - | sigil
        · rfl
        · cases sigil <;> rfl
    | _ => rfl
  | _ => rfl

/-- The head of a tag becomes the same item in either form. -/
theorem agrees_toItem (head : Element) :
    Agrees .malformedTag Item.general head.toItem (Conversion.ofHead head.general) := by
  cases head with
  | node part => exact .ok (Item.node part)
  | pathOpener word path inverted => exact .ok (Item.opener word (.path path) inverted)
  | call name sigil arguments =>
    cases sigil with
    | some sigil => exact .ok (Item.opener name (.helper arguments) (sigil == .inverted))
    | none =>
      rw [toItem, general, Conversion.ofHead]
      -- The divider is a call by its name alone, and takes no arguments.
      by_cases hname : name = "else"
      · subst hname
        rw [if_neg (not_not_intro rfl), if_neg (not_not_intro rfl)]
        cases arguments with
        | nil => exact .ok Item.divider
        | cons argument arguments => exact .error rfl
      · rw [if_pos hname, if_pos hname]
        exact .ok (Item.node (.inlineCall name arguments))
  | token found =>
    cases found with
    | piece piece =>
      cases piece with
      | quoted value => exact .error rfl
      | word value sigil =>
        rcases sigil with - | sigil
        · exact .error rfl
        · cases sigil with
          | blockClose => exact .ok (Item.closer value)
          | inverted =>
            rw [toItem, general, Conversion.ofHead]
            by_cases hvalue : value = ""
            · rw [if_pos hvalue, if_pos hvalue]
              exact .ok Item.divider
            · rw [if_neg hvalue, if_neg hvalue]
              exact .error rfl
          | _ => exact .error rfl
    | _ => exact .error rfl

end Element

/-! ## Blocks -/

theorem toExpressions_append (nodes others : List Node) :
    toExpressions (nodes ++ others) = toExpressions nodes ++ toExpressions others := by
  simp only [toExpressions_eq_map, List.map_append]

theorem toExpressions_snoc (nodes : List Node) (node : Node) :
    toExpressions (nodes ++ [node]) = toExpressions nodes ++ [node.toExpression] :=
  toExpressions_append nodes [node]

theorem OpenBlock.general_add (block : OpenBlock) (node : Node) :
    (block.add node).general = block.general.add node.toExpression := by
  obtain ⟨name, head, inverted, body, inverse⟩ := block
  cases inverse <;>
    simp [OpenBlock.add, general, Conversion.OpenBlock.add, inverseExpressions, toExpressions_snoc]

/-- A closed block is the same in either form: an inverted one exchanges its bodies. -/
theorem OpenBlock.general_toNode (block : OpenBlock) :
    block.toNode.toExpression = block.general.toExpression := by
  obtain ⟨name, head, inverted, body, inverse⟩ := block
  have hgetD : toExpressions (inverse.getD []) = (inverseExpressions inverse).getD [] := by
    cases inverse <;> rfl
  cases head with
  | helper arguments =>
    cases inverted with
    | false => rfl
    | true => exact congrArg (Expression.blockCall name _ · _) hgetD
  | path target =>
    cases inverted with
    | false => rfl
    | true => exact congrArg (Expression.pathBlock target · _) hgetD

theorem Pairing.general_add (pairing : Pairing) (node : Node) :
    (pairing.add node).general = pairing.general.add node.toExpression := by
  obtain ⟨nodes, blocks⟩ := pairing
  cases blocks with
  | nil => simp [Pairing.add, Pairing.general, Conversion.Pairing.add, toExpressions_snoc]
  | cons block blocks =>
    simp [Pairing.add, Pairing.general, Conversion.Pairing.add, OpenBlock.general_add]

/-- An item is read alike in either form. -/
theorem agrees_step (pairing : Pairing) (item : Item) :
    Agrees .blockMismatch Pairing.general (pairing.step item)
      (pairing.general.step item.general) := by
  obtain ⟨nodes, blocks⟩ := pairing
  cases item with
  | node part =>
    rw [Pairing.step, Item.general, Conversion.Pairing.step, ← Pairing.general_add]
    exact .ok _
  | opener name head inverted => exact .ok _
  | divider =>
    cases blocks with
    | nil => exact .error rfl
    | cons block blocks =>
      obtain ⟨name, head, inverted, body, inverse⟩ := block
      cases inverse with
      | none => exact .ok _
      | some inverse => exact .error rfl
  | closer name =>
    cases blocks with
    | nil => exact .error rfl
    | cons block blocks =>
      have hclosed := Pairing.general_add ⟨nodes, blocks⟩ block.toNode
      rw [OpenBlock.general_toNode] at hclosed
      -- The two forms compare the same names before they close the block.
      show Agrees _ _ (if block.name = name then _ else _) (if block.name = name then _ else _)
      by_cases hname : block.name = name
      · rw [if_pos hname, if_pos hname]
        exact .of_eq hclosed
      · rw [if_neg hname, if_neg hname]
        exact .error rfl

theorem agrees_foldlM_step (pairing : Pairing) (items : List Item) :
    Agrees .blockMismatch Pairing.general (items.foldlM Pairing.step pairing)
      ((items.map Item.general).foldlM Conversion.Pairing.step pairing.general) := by
  induction items generalizing pairing with
  | nil => exact .ok pairing
  | cons item items ih =>
    rw [List.map_cons, List.foldlM_cons, List.foldlM_cons]
    exact (agrees_step pairing item).bind fun next _ => ih next

/-- Blocks are paired alike in either form. -/
theorem agrees_pairBlocks (items : List Item) :
    Agrees .blockMismatch toExpressions (pairBlocks items)
      (Conversion.pairBlocks (items.map Item.general)) := by
  refine (agrees_foldlM_step ⟨[], []⟩ items).bind fun pairing _ => ?_
  obtain ⟨nodes, blocks⟩ := pairing
  cases blocks with
  | nil => exact .ok nodes
  | cons block blocks => exact .error rfl

/-! ## Conditions -/

/-- The first argument of a condition is replaced by its truth in either form. -/
theorem testArguments_general (name : String) (arguments : List Argument) :
    (testArguments name arguments).map Argument.toExpression =
      Conversion.testArguments name (arguments.map Argument.toExpression) := by
  rw [testArguments]
  cases arguments with
  | nil => exact (apply_ite (List.map _) _ _ _).trans (ite_self _)
  | cons argument arguments => exact apply_ite (List.map _) _ _ _

mutual

theorem testConditions_general (node : Node) :
    node.testConditions.toExpression = Conversion.testConditions node.toExpression := by
  cases node with
  | blockCall name arguments body inverse =>
    rw [Node.testConditions, Node.toExpression, Node.toExpression, Conversion.testConditions,
      testArguments_general, testAll_general body, testInverse_general inverse]
  | pathBlock path body inverse =>
    rw [Node.testConditions, Node.toExpression, Node.toExpression, Conversion.testConditions,
      testAll_general body, testInverse_general inverse]
  | _ => rfl

theorem testAll_general (nodes : List Node) :
    toExpressions (testAll nodes) = Conversion.testAll (toExpressions nodes) := by
  cases nodes with
  | nil => rfl
  | cons node nodes =>
    rw [testAll, toExpressions, toExpressions, Conversion.testAll, testConditions_general node,
      testAll_general nodes]

theorem testInverse_general (inverse : Option (List Node)) :
    inverseExpressions (testInverse inverse) =
      Conversion.testInverse (inverseExpressions inverse) := by
  cases inverse with
  | none => rfl
  | some nodes => exact congrArg some (testAll_general nodes)

end

end BraceTemplate
