import BraceTemplate.Proofs.Paths
import BraceTemplate.Proofs.Reading.Trees
import BraceTemplate.Template.Reading

/-!
# The paths and arguments of a template

Every path of a template that has been read is the path of a word, by `denoted_of_ofTokens`. So none
of its paths to the data of the whole render or to a loop variable climbs. The arguments of its calls
are literals and paths until the conditions are tested, by `exists_denoted_of_ofTokens`.
-/

namespace BraceTemplate

/-! ## Paths of words -/

/-- A path that a word denotes. -/
def Path.Denoted (path : Path) : Prop :=
  ∃ word, path = Path.ofWord word

theorem Path.denoted_ofWord (word : String) : (Path.ofWord word).Denoted :=
  ⟨word, rfl⟩

/-- Only a path from the current frame climbs. -/
theorem Path.Denoted.hops_eq_zero {path : Path} (h : path.Denoted) :
    path.anchor ≠ .current → path.hops = 0 := by
  obtain ⟨word, rfl⟩ := h
  exact (Path.canonical_ofWord word).hops_eq_zero

/-! ## Elements and items -/

/-- An argument as it stands in a tag: a literal or the path of a word. -/
def Argument.Denoted : Argument → Prop
  | .literal _ => True
  | .path target => target.Denoted
  | .truth _ => False

/-- What a node depends on itself is as it stands in a tag, and the divider of blocks is not called. -/
def Node.Denoted : Node → Prop
  | .text _ => True
  | .output path => path.Denoted
  | .inlineCall name arguments => name ≠ "else" ∧ ∀ argument ∈ arguments, argument.Denoted
  | .blockCall _ arguments _ _ => ∀ argument ∈ arguments, argument.Denoted
  | .pathBlock path _ _ => path.Denoted
  | .partialCall _ context => ∀ path ∈ context, path.Denoted

/-- What a block depends on is as it stands in a tag. -/
def BlockHead.Denoted : BlockHead → Prop
  | .helper arguments => ∀ argument ∈ arguments, argument.Denoted
  | .path target => target.Denoted

/-- What the nodes and blocks of an item depend on is as it stands in a tag. -/
def Item.Denoted : Item → Prop
  | .node part => ∀ node ∈ part.nodes, node.Denoted
  | .opener _ head _ => head.Denoted
  | .divider => True
  | .closer _ => True

/-- What an element depends on is as it stands in a tag. -/
def Element.Denoted : Element → Prop
  | .token _ => True
  | .node part => ∀ node ∈ part.nodes, node.Denoted
  | .call _ _ arguments => ∀ argument ∈ arguments, argument.Denoted
  | .pathOpener _ path _ => path.Denoted

namespace Element

theorem denoted_text (content : String) : (Element.node (.text content)).Denoted :=
  List.forall_mem_singleton.2 trivial

theorem denoted_output {path : Path} (h : path.Denoted) : (Element.node (.output path)).Denoted :=
  List.forall_mem_singleton.2 h

theorem denoted_readLiteral {element : Element} (h : element.Denoted) :
    element.readLiteral.Denoted := by
  unfold readLiteral
  split
  · exact denoted_text _
  · exact denoted_text _
  · exact h

theorem denoted_readPathWord {element : Element} (h : element.Denoted) :
    element.readPathWord.Denoted := by
  unfold readPathWord
  split
  · split
    · exact denoted_output (Path.denoted_ofWord _)
    · trivial
  · exact h

theorem denoted_ofTokens (tokens : List Token) : ∀ element ∈ ofTokens tokens, element.Denoted := by
  intro element hmem
  rw [ofTokens, List.map_map, List.map_map] at hmem
  obtain ⟨token, -, rfl⟩ := List.mem_map.1 hmem
  have htoken : (Element.token token).Denoted := trivial
  exact denoted_readPathWord (denoted_readLiteral htoken)

theorem denoted_contextPath {name : String} {element : Element} {path : Path}
    (h : contextPath name element = .ok path) (hdenoted : element.Denoted) : path.Denoted := by
  unfold contextPath at h
  split at h
  · cases h
    exact hdenoted _ List.mem_cons_self
  · cases h
    exact Path.denoted_ofWord _
  · cases h
  · cases h

/-- The pass over the partials brings no path that its elements do not denote. -/
theorem denoted_readPartials {elements found : List Element}
    (h : readPartials elements = .ok found) (hdenoted : ∀ element ∈ elements, element.Denoted) :
    ∀ element ∈ found, element.Denoted := by
  -- A call with its context in place of the two elements that it was read from.
  have hcall : ∀ {name : String} {context : Option Path} {later : List Element},
      (∀ path ∈ context, path.Denoted) → (∀ element ∈ later, element.Denoted) →
      ∀ element ∈ .node (.partialCall name context) :: .token .tagClose :: later,
        element.Denoted := by
    intro name context later hcontext hlater
    refine List.forall_mem_cons.2 ⟨?_, List.forall_mem_cons.2 ⟨trivial, hlater⟩⟩
    exact List.forall_mem_singleton.2 hcontext
  fun_induction readPartials elements generalizing found with
  | case1 =>
    cases h
    exact hdenoted
  | case4 name hname elements ih =>
    obtain ⟨later, hlater, rfl⟩ := Results.map_eq_ok.1 h
    have hrest := (List.forall_mem_cons.1 (List.forall_mem_cons.1 hdenoted).2).2
    refine hcall ?_ (ih hlater hrest)
    rintro _ ⟨⟩
  | case6 name hname context hcontext path hpath elements ih =>
    obtain ⟨later, hlater, rfl⟩ := Results.map_eq_ok.1 h
    obtain ⟨-, hfirst, hrest⟩ := by simpa only [List.forall_mem_cons] using hdenoted
    refine hcall ?_ (ih hlater hrest.2)
    rintro _ ⟨⟩
    exact denoted_contextPath hpath hfirst
  | case8 element elements hname ih =>
    obtain ⟨later, hlater, rfl⟩ := Results.map_eq_ok.1 h
    obtain ⟨hfirst, hrest⟩ := List.forall_mem_cons.1 hdenoted
    exact List.forall_mem_cons.2 ⟨hfirst, ih hlater hrest⟩
  | _ => cases h

theorem denoted_classifyHead (registered : String → Bool) {element : Element}
    (h : element.Denoted) : (classifyHead registered element).Denoted := by
  unfold classifyHead
  split
  · split
    · exact List.forall_mem_nil _
    · trivial
  · exact h

theorem denoted_classifyHeads (registered : String → Bool) {elements : List Element}
    (h : ∀ element ∈ elements, element.Denoted) :
    ∀ element ∈ classifyHeads registered elements, element.Denoted := by
  fun_induction classifyHeads registered elements with
  | case1 => exact h
  | case2 head elements ih =>
    rw [List.forall_mem_cons, List.forall_mem_cons] at h ⊢
    exact ⟨trivial, denoted_classifyHead registered h.2.1, ih h.2.2⟩
  | case3 element elements hhead ih =>
    rw [List.forall_mem_cons] at h ⊢
    exact ⟨h.1, ih h.2⟩

theorem denoted_readWord {element : Element} (h : element.Denoted) : element.readWord.Denoted := by
  unfold readWord
  split
  · exact denoted_output (Path.denoted_ofWord _)
  · split
    · trivial
    · exact Path.denoted_ofWord _
  · split
    · trivial
    · exact Path.denoted_ofWord _
  · exact h

theorem denoted_argument? {element : Element} {argument : Argument}
    (h : element.argument? = some argument) (hdenoted : element.Denoted) : argument.Denoted := by
  unfold argument? at h
  split at h
  · cases h
    trivial
  · cases h
    exact hdenoted _ List.mem_cons_self
  · cases h

/-- What is taken as an argument and what is left of the elements denote what they denoted. -/
theorem denoted_takeArguments {elements : List Element}
    (h : ∀ element ∈ elements, element.Denoted) :
    (∀ argument ∈ (takeArguments elements).1, argument.Denoted) ∧
      ∀ element ∈ (takeArguments elements).2, element.Denoted := by
  induction elements with
  | nil => exact ⟨List.forall_mem_nil _, List.forall_mem_nil _⟩
  | cons element elements ih =>
    obtain ⟨hfirst, hrest⟩ := List.forall_mem_cons.1 h
    rw [takeArguments]
    split
    · exact ⟨List.forall_mem_nil _, h⟩
    · next argument hargument =>
      refine ⟨?_, (ih hrest).2⟩
      exact List.forall_mem_cons.2 ⟨denoted_argument? hargument hfirst, (ih hrest).1⟩

theorem denoted_bind {head bound : Element} {arguments : List Argument}
    (h : head.bind arguments = .ok bound) (hhead : head.Denoted)
    (harguments : ∀ argument ∈ arguments, argument.Denoted) : bound.Denoted := by
  rw [Element.bind.eq_def] at h
  split at h
  · cases h
    exact List.forall_mem_append.2 ⟨hhead, harguments⟩
  · obtain ⟨name, -, rfl⟩ := Results.map_eq_ok.1 h
    exact harguments
  · obtain ⟨name, -, rfl⟩ := Results.map_eq_ok.1 h
    exact harguments
  · cases h
    exact hhead

/-- Binding arguments to the heads brings no path that the elements do not denote. -/
theorem denoted_bindArguments {elements found : List Element}
    (h : bindArguments elements = .ok found) (hdenoted : ∀ element ∈ elements, element.Denoted) :
    ∀ element ∈ found, element.Denoted := by
  fun_induction bindArguments elements generalizing found with
  | case1 =>
    cases h
    exact hdenoted
  | case2 => cases h
  -- Here the head takes its arguments; in the other two cases it is left alone.
  | case3 head elements htakes bound hbound ih =>
    obtain ⟨later, hlater, rfl⟩ := Results.map_eq_ok.1 h
    rw [List.forall_mem_cons, List.forall_mem_cons] at hdenoted ⊢
    obtain ⟨harguments, hrest⟩ := denoted_takeArguments hdenoted.2.2
    exact ⟨trivial, denoted_bind hbound hdenoted.2.1 harguments, ih hlater hrest⟩
  | case4 head elements htakes ih =>
    obtain ⟨later, hlater, rfl⟩ := Results.map_eq_ok.1 h
    rw [List.forall_mem_cons, List.forall_mem_cons] at hdenoted ⊢
    exact ⟨trivial, hdenoted.2.1, ih hlater hdenoted.2.2⟩
  | case5 element elements hhead ih =>
    obtain ⟨later, hlater, rfl⟩ := Results.map_eq_ok.1 h
    rw [List.forall_mem_cons] at hdenoted ⊢
    exact ⟨hdenoted.1, ih hlater hdenoted.2⟩

/-- The item of a tag denotes what the head of the tag denotes. -/
theorem denoted_toItem {head : Element} {item : Item} (h : head.toItem = .ok item)
    (hhead : head.Denoted) : item.Denoted := by
  unfold toItem at h
  split at h
  · cases h
    exact hhead
  · split at h
    · next hname =>
      cases h
      exact List.forall_mem_singleton.2 ⟨hname, hhead⟩
    · split at h
      · cases h
        trivial
      · cases h
  · cases h
    exact hhead
  · cases h
    exact hhead
  · split at h
    · cases h
      trivial
    · cases h
  · cases h
    trivial
  · cases h

end Element

/-- The items of a template denote what its elements denote. -/
theorem denoted_ofElements {elements : List Element} {items : List Item}
    (h : Item.ofElements elements = .ok items) (hdenoted : ∀ element ∈ elements, element.Denoted) :
    ∀ item ∈ items, item.Denoted := by
  fun_induction Item.ofElements elements generalizing items with
  | case1 =>
    cases h
    exact List.forall_mem_nil _
  | case4 head elements hhead item hitem ih =>
    obtain ⟨later, hlater, rfl⟩ := Results.map_eq_ok.1 h
    rw [List.forall_mem_cons, List.forall_mem_cons, List.forall_mem_cons] at hdenoted
    rw [List.forall_mem_cons]
    exact ⟨Element.denoted_toItem hitem hdenoted.2.1, ih hlater hdenoted.2.2.2⟩
  | case7 part elements ih =>
    obtain ⟨later, hlater, rfl⟩ := Results.map_eq_ok.1 h
    rw [List.forall_mem_cons] at hdenoted ⊢
    exact ⟨hdenoted.1, ih hlater hdenoted.2⟩
  | _ => cases h

theorem denoted_readItems {registered : String → Bool} {tokens : List Token} {items : List Item}
    (h : readItems registered tokens = .ok items) : ∀ item ∈ items, item.Denoted := by
  obtain ⟨elements, hpartials, h⟩ := Results.bind_eq_ok.1 h
  obtain ⟨bound, hbound, hitems⟩ := Results.bind_eq_ok.1 h
  have hread := Element.denoted_readPartials hpartials (Element.denoted_ofTokens tokens)
  have hheads : ∀ element ∈ (Element.classifyHeads registered elements).map Element.readWord,
      element.Denoted := by
    intro element hmem
    obtain ⟨head, hhead, rfl⟩ := List.mem_map.1 hmem
    exact Element.denoted_readWord (Element.denoted_classifyHeads registered hread head hhead)
  exact denoted_ofElements hitems (Element.denoted_bindArguments hbound hheads)

/-! ## Blocks -/

theorem Item.Denoted.holds {item : Item} (h : item.Denoted) : item.Holds Node.Denoted := by
  cases item with
  | node part => exact h
  | opener name head inverted =>
    cases head with
    | helper arguments => exact fun _ _ => h
    | path path => exact fun _ _ => h
  | divider => trivial
  | closer name => trivial

theorem denoted_pairBlocks {items : List Item} {nodes : List Node}
    (h : pairBlocks items = .ok nodes) (hitems : ∀ item ∈ items, item.Denoted) :
    ∀ node ∈ allNodes nodes, node.Denoted :=
  forall_mem_allNodes h fun item hmem => (hitems item hmem).holds

/-- The paths of arguments that stand in a tag are those of words. -/
theorem denoted_path? {arguments : List Argument} (h : ∀ argument ∈ arguments, argument.Denoted) :
    ∀ path ∈ arguments.filterMap Argument.path?, path.Denoted := by
  intro path hpath
  obtain ⟨argument, hmem, hread⟩ := List.mem_filterMap.1 hpath
  have hargument := h argument hmem
  cases argument with
  | literal text => cases hread
  | path target =>
    cases hread
    exact hargument
  | truth operand => exact hargument.elim

/-- The paths that a node reads itself are those of words. -/
theorem Node.Denoted.paths {node : Node} (h : node.Denoted) : ∀ path ∈ node.paths, path.Denoted := by
  cases node with
  | text content => exact List.forall_mem_nil _
  | output path => exact List.forall_mem_singleton.2 h
  | inlineCall name arguments => exact denoted_path? h.2
  | blockCall name arguments body inverse => exact denoted_path? h
  | pathBlock path body inverse => exact List.forall_mem_singleton.2 h
  | partialCall name context => exact fun path hpath => h path (Option.mem_toList.1 hpath)

/-! ## Conditions -/

theorem filterMap_path?_testArguments (name : String) (arguments : List Argument) :
    (testArguments name arguments).filterMap Argument.path? =
      arguments.filterMap Argument.path? := by
  rw [testArguments]
  split
  · cases arguments <;> rfl
  · rfl

theorem paths_testConditions (node : Node) : node.testConditions.paths = node.paths := by
  cases node with
  | blockCall name arguments body inverse => exact filterMap_path?_testArguments name arguments
  | text content => rfl
  | output path => rfl
  | inlineCall name arguments => rfl
  | pathBlock path body inverse => rfl
  | partialCall name context => rfl

/-- The truth of a condition is read from its path. -/
theorem allPaths_testAll (nodes : List Node) : allPaths (testAll nodes) = allPaths nodes := by
  rw [allPaths, allNodes_testAll, List.flatMap_map]
  exact congrArg (fun paths => (allNodes nodes).flatMap paths) (funext paths_testConditions)

/-- A template is what its conditions leave of nodes that stand as they do in its tags. -/
theorem exists_denoted_of_ofTokens {registered : String → Bool} {tokens : List Token}
    {template : Template} (h : Template.ofTokens registered tokens = .ok template) :
    ∃ nodes, template = testAll nodes ∧ ∀ node ∈ allNodes nodes, node.Denoted := by
  obtain ⟨items, hitems, h⟩ := Results.bind_eq_ok.1 h
  obtain ⟨nodes, hnodes, h⟩ := Results.bind_eq_ok.1 h
  rw [Results.mapError_eq_ok] at hitems hnodes
  cases h
  exact ⟨nodes, rfl, denoted_pairBlocks hnodes (denoted_readItems hitems)⟩

/-- Every path of a template that has been read is the path of a word. -/
theorem denoted_of_ofTokens {registered : String → Bool} {tokens : List Token}
    {template : Template} (h : Template.ofTokens registered tokens = .ok template) :
    ∀ path ∈ allPaths template, path.Denoted := by
  obtain ⟨nodes, rfl, hnodes⟩ := exists_denoted_of_ofTokens h
  rw [allPaths_testAll]
  intro path hpath
  obtain ⟨node, hnode, hpath⟩ := List.mem_flatMap.1 hpath
  exact (hnodes node hnode).paths path hpath

end BraceTemplate
