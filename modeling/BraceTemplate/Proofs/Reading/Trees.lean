import BraceTemplate.Proofs.Joining.Blocks
import BraceTemplate.Proofs.Nodes

/-!
# What is true of all nodes of a template

A node of a template is one of its items, or it is a block that an opener and a closer put around
other nodes. So what is true of the nodes among the items, and of every block that an opener can
become, is true of the nodes at every depth, by `forall_mem_allNodes`.
-/

namespace BraceTemplate

/-- A property holds of the nodes of an item, and of the block that an opener becomes whatever its
bodies are. -/
def Item.Holds (P : Node → Prop) : Item → Prop
  | .node part => ∀ node ∈ part.nodes, P node
  | .opener name (.helper arguments) _ =>
    ∀ body inverse, P (.blockCall name arguments body inverse)
  | .opener _ (.path path) _ => ∀ body inverse, P (.pathBlock path body inverse)
  | .divider => True
  | .closer _ => True

theorem Item.Holds.imp {P Q : Node → Prop} {item : Item} (h : item.Holds P)
    (himp : ∀ node, P node → Q node) : item.Holds Q := by
  cases item with
  | node part => exact fun node hnode => himp node (h node hnode)
  | opener name head inverted =>
    cases head with
    | helper arguments => exact fun body inverse => himp _ (h body inverse)
    | path path => exact fun body inverse => himp _ (h body inverse)
  | divider => trivial
  | closer name => trivial

/-- A property holds of the nodes of an open block so far, and of the block that it becomes. -/
structure OpenBlock.Holds (P : Node → Prop) (block : OpenBlock) : Prop where
  opener : Item.Holds P (.opener block.name block.head block.inverted)
  body : ∀ node ∈ allNodes block.body, P node
  inverse : ∀ node ∈ inverseNodes block.inverse, P node

/-- A property holds of the nodes of a pairing so far, and of the blocks that are open. -/
structure Pairing.Holds (P : Node → Prop) (pairing : Pairing) : Prop where
  nodes : ∀ node ∈ allNodes pairing.nodes, P node
  blocks : ∀ block ∈ pairing.blocks, block.Holds P

variable {P : Node → Prop}

theorem forall_mem_allNodes_snoc {nodes : List Node} {part : Node}
    (h : ∀ node ∈ allNodes nodes, P node) (hpart : ∀ node ∈ part.nodes, P node) :
    ∀ node ∈ allNodes (nodes ++ [part]), P node := by
  rw [allNodes_append, List.forall_mem_append]
  refine ⟨h, ?_⟩
  rw [allNodes, allNodes, List.append_nil]
  exact hpart

theorem OpenBlock.Holds.add {block : OpenBlock} (h : block.Holds P) {part : Node}
    (hpart : ∀ node ∈ part.nodes, P node) : (block.add part).Holds P := by
  obtain ⟨name, head, inverted, body, inverse⟩ := block
  cases inverse with
  | none => exact ⟨h.opener, forall_mem_allNodes_snoc h.body hpart, h.inverse⟩
  | some inverse => exact ⟨h.opener, h.body, forall_mem_allNodes_snoc h.inverse hpart⟩

/-- An inverted block exchanges its bodies, and the property holds of their nodes either way. -/
theorem OpenBlock.Holds.toNode {block : OpenBlock} (h : block.Holds P) :
    ∀ node ∈ block.toNode.nodes, P node := by
  obtain ⟨name, head, inverted, body, inverse⟩ := block
  have hgetD : ∀ node ∈ allNodes (inverse.getD []), P node := by
    cases inverse with
    | none => exact List.forall_mem_nil _
    | some inverse => exact h.inverse
  have hplain : ∀ node ∈ allNodes body ++ inverseNodes inverse, P node :=
    List.forall_mem_append.2 ⟨h.body, h.inverse⟩
  have hexchanged : ∀ node ∈ allNodes (inverse.getD []) ++ inverseNodes (some body), P node :=
    List.forall_mem_append.2 ⟨hgetD, h.body⟩
  -- An inverted block has its two bodies exchanged; the property holds of either.
  cases head with
  | helper arguments =>
    have hopener : ∀ body inverse, P (.blockCall name arguments body inverse) := h.opener
    cases inverted with
    | false => exact List.forall_mem_cons.2 ⟨hopener _ _, hplain⟩
    | true => exact List.forall_mem_cons.2 ⟨hopener _ _, hexchanged⟩
  | path path =>
    have hopener : ∀ body inverse, P (.pathBlock path body inverse) := h.opener
    cases inverted with
    | false => exact List.forall_mem_cons.2 ⟨hopener _ _, hplain⟩
    | true => exact List.forall_mem_cons.2 ⟨hopener _ _, hexchanged⟩

theorem Pairing.Holds.add {pairing : Pairing} (h : pairing.Holds P) {part : Node}
    (hpart : ∀ node ∈ part.nodes, P node) : (pairing.add part).Holds P := by
  obtain ⟨nodes, blocks⟩ := pairing
  cases blocks with
  | nil => exact ⟨forall_mem_allNodes_snoc h.nodes hpart, h.blocks⟩
  | cons block blocks =>
    obtain ⟨hblock, hblocks⟩ := List.forall_mem_cons.1 h.blocks
    exact ⟨h.nodes, List.forall_mem_cons.2 ⟨hblock.add hpart, hblocks⟩⟩

/-- What holds of a pairing and of an item holds once the item is read. -/
theorem Pairing.Holds.step {pairing next : Pairing} (h : pairing.Holds P) {item : Item}
    (hitem : item.Holds P) (hstep : pairing.step item = .ok next) : next.Holds P := by
  obtain ⟨nodes, blocks⟩ := pairing
  cases item with
  | node part =>
    cases hstep
    exact h.add hitem
  | opener name head inverted =>
    cases hstep
    have hblock : (OpenBlock.mk name head inverted [] none).Holds P :=
      ⟨hitem, List.forall_mem_nil _, List.forall_mem_nil _⟩
    exact ⟨h.nodes, List.forall_mem_cons.2 ⟨hblock, h.blocks⟩⟩
  | divider =>
    cases blocks with
    | nil => cases hstep
    | cons block blocks =>
      obtain ⟨hblock, hblocks⟩ := List.forall_mem_cons.1 h.blocks
      obtain ⟨name, head, inverted, body, inverse⟩ := block
      cases inverse with
      | some inverse => cases hstep
      | none =>
        cases hstep
        have hdivided : (OpenBlock.mk name head inverted body (some [])).Holds P :=
          ⟨hblock.opener, hblock.body, List.forall_mem_nil _⟩
        exact ⟨h.nodes, List.forall_mem_cons.2 ⟨hdivided, hblocks⟩⟩
  | closer name =>
    cases blocks with
    | nil => cases hstep
    | cons block blocks =>
      obtain ⟨hblock, hblocks⟩ := List.forall_mem_cons.1 h.blocks
      rw [Pairing.step] at hstep
      dsimp only at hstep
      split at hstep
      · cases hstep
        -- The closed block is a node of what is open around it.
        have hrest : (Pairing.mk nodes blocks).Holds P := ⟨h.nodes, hblocks⟩
        exact hrest.add hblock.toNode
      · cases hstep

/-- What holds of a pairing and of some items holds once all of them are read. -/
theorem Pairing.Holds.foldlM {pairing next : Pairing} (h : pairing.Holds P) {items : List Item}
    (hitems : ∀ item ∈ items, item.Holds P) (hrun : items.foldlM Pairing.step pairing = .ok next) :
    next.Holds P := by
  induction items generalizing pairing with
  | nil =>
    cases hrun
    exact h
  | cons item items ih =>
    obtain ⟨hitem, hrest⟩ := List.forall_mem_cons.1 hitems
    rw [List.foldlM_cons] at hrun
    obtain ⟨between, hstep, hrun⟩ := Results.bind_eq_ok.1 hrun
    exact ih (h.step hitem hstep) hrest hrun

/-- What holds of the items of a template holds of its nodes at every depth. -/
theorem forall_mem_allNodes {items : List Item} {nodes : List Node}
    (h : pairBlocks items = .ok nodes) (hitems : ∀ item ∈ items, item.Holds P) :
    ∀ node ∈ allNodes nodes, P node := by
  have hempty : (Pairing.mk [] []).Holds P := ⟨List.forall_mem_nil _, List.forall_mem_nil _⟩
  exact (hempty.foldlM hitems (pairBlocks_eq_ok.1 h)).nodes

/-! ## Conditions -/

mutual

theorem nodes_testConditions (node : Node) :
    node.testConditions.nodes = node.nodes.map Node.testConditions := by
  cases node with
  | blockCall name arguments body inverse =>
    rw [Node.testConditions, Node.nodes, Node.nodes, List.map_cons, List.map_append,
      Node.testConditions, allNodes_testAll body, inverseNodes_testInverse inverse]
  | pathBlock path body inverse =>
    rw [Node.testConditions, Node.nodes, Node.nodes, List.map_cons, List.map_append,
      Node.testConditions, allNodes_testAll body, inverseNodes_testInverse inverse]
  | text content => rfl
  | output path => rfl
  | inlineCall name arguments => rfl
  | partialCall name context => rfl

/-- The nodes of a template with all conditions tested are its nodes, each with its conditions
tested. -/
theorem allNodes_testAll (nodes : List Node) :
    allNodes (testAll nodes) = (allNodes nodes).map Node.testConditions := by
  cases nodes with
  | nil => rfl
  | cons node nodes =>
    rw [testAll, allNodes, allNodes, List.map_append, nodes_testConditions node,
      allNodes_testAll nodes]

theorem inverseNodes_testInverse (inverse : Option (List Node)) :
    inverseNodes (testInverse inverse) = (inverseNodes inverse).map Node.testConditions := by
  cases inverse with
  | none => rfl
  | some nodes => exact allNodes_testAll nodes

end

end BraceTemplate
