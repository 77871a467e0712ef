import BraceTemplate.Proofs.Results
import BraceTemplate.Template.Blocks

/-!
# Blocks of items in a row

The marks of blocks are paired with a stack, and the nodes outside of all blocks only ever grow at
their end. So items whose blocks are all closed have no influence on the items after them:
`pairBlocks_append` pairs the two parts of a row of items on their own.
-/

namespace BraceTemplate

namespace Pairing

/-- The pairing with some nodes before those outside of all blocks. -/
def after (outer : List Node) (pairing : Pairing) : Pairing :=
  { pairing with nodes := outer ++ pairing.nodes }

theorem add_after (outer : List Node) (pairing : Pairing) (node : Node) :
    (pairing.after outer).add node = (pairing.add node).after outer := by
  obtain ⟨nodes, blocks⟩ := pairing
  cases blocks with
  | nil =>
    show (⟨outer ++ nodes ++ [node], []⟩ : Pairing) = ⟨outer ++ (nodes ++ [node]), []⟩
    rw [List.append_assoc]
  | cons block blocks => rfl

/-- The nodes outside of all blocks have no influence on a step. -/
theorem step_after (outer : List Node) (pairing : Pairing) (item : Item) :
    (pairing.after outer).step item = (pairing.step item).map (after outer) := by
  obtain ⟨nodes, blocks⟩ := pairing
  cases item with
  | node node => exact congrArg Except.ok (add_after outer ⟨nodes, blocks⟩ node)
  | opener name head inverted => rfl
  -- Both runs see the same innermost block, or are refused alike where none is open.
  | divider =>
    cases blocks with
    | nil => rfl
    | cons block blocks =>
      rw [step, step]
      dsimp only [after]
      cases block.inverse <;> rfl
  | closer name =>
    cases blocks with
    | nil => rfl
    | cons block blocks =>
      rw [step, step]
      dsimp only [after]
      by_cases hname : block.name = name
      · rw [if_pos hname, if_pos hname]
        exact congrArg Except.ok (add_after outer ⟨nodes, blocks⟩ block.toNode)
      · rw [if_neg hname, if_neg hname]
        rfl

/-- The nodes outside of all blocks have no influence on a run. -/
theorem foldlM_after (outer : List Node) (pairing : Pairing) (items : List Item) :
    items.foldlM step (pairing.after outer) = (items.foldlM step pairing).map (after outer) := by
  induction items generalizing pairing with
  | nil => rfl
  | cons item items ih =>
    rw [List.foldlM_cons, List.foldlM_cons, step_after]
    cases pairing.step item with
    | error fault => rfl
    | ok next => exact ih next

/-- A pairing is finished when no block is open. -/
theorem finish_eq_ok {pairing : Pairing} {nodes : List Node} :
    pairing.finish = .ok nodes ↔ pairing = ⟨nodes, []⟩ := by
  obtain ⟨found, blocks⟩ := pairing
  rw [finish]
  cases blocks <;> simp

theorem finish_after (outer : List Node) (pairing : Pairing) :
    (pairing.after outer).finish = pairing.finish.map (outer ++ ·) := by
  obtain ⟨nodes, blocks⟩ := pairing
  cases blocks <;> rfl

end Pairing

/-- All blocks are closed when the items are read. -/
theorem pairBlocks_eq_ok {items : List Item} {nodes : List Node} :
    pairBlocks items = .ok nodes ↔ items.foldlM Pairing.step ⟨[], []⟩ = .ok ⟨nodes, []⟩ := by
  rw [pairBlocks, Results.bind_eq_ok]
  constructor
  · rintro ⟨pairing, hpairing, hfinish⟩
    rw [hpairing, Pairing.finish_eq_ok.1 hfinish]
  · intro h
    exact ⟨_, h, rfl⟩

/-- Items whose blocks are all closed have no influence on the items after them. -/
theorem pairBlocks_append {first second : List Item} {nodes : List Node}
    (h : pairBlocks first = .ok nodes) :
    pairBlocks (first ++ second) = (pairBlocks second).map (nodes ++ ·) := by
  have hafter : (⟨nodes, []⟩ : Pairing) = Pairing.after nodes ⟨[], []⟩ := by
    rw [Pairing.after, List.append_nil]
  rw [pairBlocks, List.foldlM_append, pairBlocks_eq_ok.1 h]
  show second.foldlM Pairing.step ⟨nodes, []⟩ >>= Pairing.finish = _
  rw [hafter, Pairing.foldlM_after, pairBlocks]
  cases second.foldlM Pairing.step ⟨[], []⟩ with
  | error fault => rfl
  | ok pairing => exact Pairing.finish_after nodes pairing

/-! ## Nodes among the items -/

theorem foldlM_nodes (pairing : Pairing) (nodes : List Node) :
    (nodes.map Item.node).foldlM Pairing.step pairing =
      (.ok (nodes.foldl Pairing.add pairing) : Except BlockFault Pairing) := by
  induction nodes generalizing pairing with
  | nil => rfl
  | cons node nodes ih =>
    rw [List.map_cons, List.foldlM_cons, List.foldl_cons, ← ih]
    rfl

/-- Nodes are added outside of all blocks only if no block is open. -/
theorem foldl_add_eq {pairing : Pairing} {nodes found : List Node}
    (h : nodes.foldl Pairing.add pairing = ⟨found, []⟩) :
    ∃ before, pairing = ⟨before, []⟩ ∧ found = before ++ nodes := by
  -- A node is added to the innermost block if there is one, and no node closes a block.
  induction nodes generalizing pairing with
  | nil => exact ⟨found, h, (List.append_nil found).symm⟩
  | cons node nodes ih =>
    obtain ⟨between, hadd, rfl⟩ := ih h
    obtain ⟨before, blocks⟩ := pairing
    cases blocks with
    | nil =>
      cases hadd
      exact ⟨before, rfl, by rw [List.append_assoc, List.singleton_append]⟩
    | cons block blocks => cases hadd

theorem Pairing.foldl_add_nil (outer nodes : List Node) :
    nodes.foldl Pairing.add ⟨outer, []⟩ = ⟨outer ++ nodes, []⟩ := by
  induction nodes generalizing outer with
  | nil => rw [List.append_nil, List.foldl_nil]
  | cons node nodes ih =>
    rw [List.foldl_cons, List.append_cons, ← ih]
    rfl

/-- Nodes alone are the template that they are. -/
theorem pairBlocks_nodes (nodes : List Node) : pairBlocks (nodes.map .node) = .ok nodes := by
  rw [pairBlocks_eq_ok, foldlM_nodes, Pairing.foldl_add_nil, List.nil_append]

/-- Nodes at the end of a template stand outside of all blocks. -/
theorem pairBlocks_append_nodes {items : List Item} {nodes found : List Node}
    (h : pairBlocks (items ++ nodes.map .node) = .ok found) :
    ∃ before, pairBlocks items = .ok before ∧ found = before ++ nodes := by
  rw [pairBlocks_eq_ok, List.foldlM_append, Results.bind_eq_ok] at h
  obtain ⟨pairing, hitems, hnodes⟩ := h
  rw [foldlM_nodes] at hnodes
  obtain ⟨before, rfl, hfound⟩ := foldl_add_eq (Except.ok.inj hnodes)
  exact ⟨before, pairBlocks_eq_ok.2 hitems, hfound⟩

end BraceTemplate
