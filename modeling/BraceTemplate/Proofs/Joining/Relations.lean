import BraceTemplate.Proofs.Joining.Blocks
import Mathlib.Data.List.Forall2
import Mathlib.Data.Option.Defs

/-!
# Templates that differ in their leaves

The marks of blocks are paired without a look at the nodes between them. So if the nodes between the
same marks are related by a relation that is kept by rows of nodes and by blocks around them, then
both templates can be paired or neither can, with the same error, and what comes of them is related:
`pairBlocks_related`.
-/

namespace BraceTemplate

namespace Results

variable {ε α β γ δ : Type} {R : α → β → Prop} {S : γ → δ → Prop}

/-- Two results are related values, or the same error. -/
inductive Related (R : α → β → Prop) : Except ε α → Except ε β → Prop
  | error (e : ε) : Related R (.error e) (.error e)
  | ok {a : α} {b : β} (h : R a b) : Related R (.ok a) (.ok b)

theorem Related.bind {result : Except ε α} {other : Except ε β} {f : α → Except ε γ}
    {g : β → Except ε δ} (h : Related R result other)
    (hnext : ∀ a b, R a b → Related S (f a) (g b)) : Related S (result >>= f) (other >>= g) := by
  cases h with
  | error e => exact .error e
  | ok hvalues => exact hnext _ _ hvalues

theorem Related.toOption_map {ζ η : Type} {T : ζ → η → Prop} {result : Except ε α}
    {other : Except ε β} {f : α → ζ} {g : β → η} (h : Related R result other)
    (hvalues : ∀ a b, R a b → T (f a) (g b)) :
    Option.Rel T (result.toOption.map f) (other.toOption.map g) := by
  cases h with
  | error e => exact .none
  | ok hvalue => exact .some (hvalues _ _ hvalue)

/-- Results related as options succeed together, and their values are then related. -/
theorem of_rel_toOption {result : Except ε α} {other : Except γ β}
    (h : Option.Rel R result.toOption other.toOption) :
    ((∃ a, result = .ok a) ↔ ∃ b, other = .ok b) ∧
      ∀ a b, result = .ok a → other = .ok b → R a b := by
  cases result with
  | error e =>
    cases other with
    | error => exact ⟨by simp, nofun⟩
    | ok b => cases h
  | ok a =>
    cases other with
    | error => cases h
    | ok b =>
      cases h with
      | some hvalues =>
        refine ⟨⟨fun _ => ⟨b, rfl⟩, fun _ => ⟨a, rfl⟩⟩, ?_⟩
        rintro _ _ ⟨⟩ ⟨⟩
        exact hvalues

end Results

/-! ## Adding several nodes -/

/-- Adds nodes to the body that is being read. -/
def OpenBlock.addAll (block : OpenBlock) (nodes : List Node) : OpenBlock :=
  match block.inverse with
  | none => { block with body := block.body ++ nodes }
  | some inverse => { block with inverse := some (inverse ++ nodes) }

theorem OpenBlock.addAll_nil (block : OpenBlock) : block.addAll [] = block := by
  obtain ⟨name, head, inverted, body, inverse⟩ := block
  cases inverse <;> simp [addAll]

theorem OpenBlock.addAll_cons (block : OpenBlock) (node : Node) (nodes : List Node) :
    block.addAll (node :: nodes) = (block.add node).addAll nodes := by
  obtain ⟨name, head, inverted, body, inverse⟩ := block
  cases inverse <;> simp [addAll, add]

namespace Pairing

theorem foldl_add_cons (outer nodes : List Node) (block : OpenBlock) (blocks : List OpenBlock) :
    nodes.foldl add ⟨outer, block :: blocks⟩ = ⟨outer, block.addAll nodes :: blocks⟩ := by
  induction nodes generalizing block with
  | nil => rw [OpenBlock.addAll_nil, List.foldl_nil]
  | cons node nodes ih =>
    rw [List.foldl_cons, OpenBlock.addAll_cons, ← ih]
    rfl

end Pairing

/-! ## Relations -/

/-- The block that a head makes of two bodies. -/
def BlockHead.node (name : String) : BlockHead → List Node → Option (List Node) → Node
  | .helper arguments => .blockCall name arguments
  | .path target => .pathBlock target

/-- A relation between rows of nodes that is kept by putting rows together and blocks around
them. -/
structure NodesRelation where
  Rel : List Node → List Node → Prop
  nil : Rel [] []
  append : ∀ {first second later last : List Node}, Rel first second → Rel later last →
    Rel (first ++ later) (second ++ last)
  block : ∀ (name : String) (head : BlockHead) {body other : List Node}
    {inverse otherwise : Option (List Node)}, Rel body other → Option.Rel Rel inverse otherwise →
    Rel [head.node name body inverse] [head.node name other otherwise]

namespace NodesRelation

variable {relation : NodesRelation}

/-! ## Blocks that are open -/

/-- Two blocks that were opened in the same way, with related bodies so far. -/
inductive Blocks (relation : NodesRelation) : OpenBlock → OpenBlock → Prop
  | mk {name : String} {head : BlockHead} {inverted : Bool} {body other : List Node}
    {inverse otherwise : Option (List Node)} (hbody : relation.Rel body other)
    (hinverse : Option.Rel relation.Rel inverse otherwise) :
    Blocks relation ⟨name, head, inverted, body, inverse⟩ ⟨name, head, inverted, other, otherwise⟩

/-- Two pairings with related nodes outside of all blocks and in each of the blocks. -/
inductive Pairings (relation : NodesRelation) : Pairing → Pairing → Prop
  | mk {nodes others : List Node} {blocks otherBlocks : List OpenBlock}
    (hnodes : relation.Rel nodes others)
    (hblocks : List.Forall₂ relation.Blocks blocks otherBlocks) :
    Pairings relation ⟨nodes, blocks⟩ ⟨others, otherBlocks⟩

theorem Blocks.addAll {block other : OpenBlock} (h : relation.Blocks block other)
    {nodes others : List Node} (hnodes : relation.Rel nodes others) :
    relation.Blocks (block.addAll nodes) (other.addAll others) := by
  cases h with
  | mk hbody hinverse =>
    cases hinverse with
    | none => exact .mk (relation.append hbody hnodes) .none
    | some hinner => exact .mk hbody (.some (relation.append hinner hnodes))

theorem Pairings.addAll {pairing other : Pairing} (h : relation.Pairings pairing other)
    {nodes others : List Node} (hnodes : relation.Rel nodes others) :
    relation.Pairings (nodes.foldl Pairing.add pairing) (others.foldl Pairing.add other) := by
  cases h with
  | mk houter hblocks =>
    cases hblocks with
    | nil =>
      rw [Pairing.foldl_add_nil, Pairing.foldl_add_nil]
      exact .mk (relation.append houter hnodes) .nil
    | cons hblock hblocks =>
      rw [Pairing.foldl_add_cons, Pairing.foldl_add_cons]
      exact .mk houter (.cons (hblock.addAll hnodes) hblocks)

/-- Related open blocks are closed into related nodes. -/
theorem Blocks.toNode {block other : OpenBlock} (h : relation.Blocks block other) :
    relation.Rel [block.toNode] [other.toNode] := by
  cases h with
  | @mk name head inverted body other inverse otherwise hbody hinverse =>
    -- An inverted block has its bodies exchanged, and the second one is there in any case.
    have hlater : relation.Rel (inverse.getD []) (otherwise.getD []) := by
      cases hinverse with
      | none => exact relation.nil
      | some hinner => exact hinner
    cases inverted with
    | false =>
      have hblock := relation.block name head hbody hinverse
      cases head <;> exact hblock
    | true =>
      have hblock := relation.block name head hlater (.some hbody)
      cases head <;> exact hblock

/-! ## Pairing related items -/

/-- Two rows of items with the same marks, and with related nodes between them. -/
inductive Items (relation : NodesRelation) : List Item → List Item → Prop
  | nil : Items relation [] []
  | nodes {nodes others : List Node} {items later : List Item} (hnodes : relation.Rel nodes others)
    (h : Items relation items later) :
    Items relation (nodes.map .node ++ items) (others.map .node ++ later)
  | mark {item : Item} {items later : List Item} (hmark : ∀ node, item ≠ .node node)
    (h : Items relation items later) : Items relation (item :: items) (item :: later)

theorem Items.append {first second later last : List Item} (h : relation.Items first second)
    (hlater : relation.Items later last) : relation.Items (first ++ later) (second ++ last) := by
  induction h with
  | nil => exact hlater
  | nodes hnodes h ih =>
    rw [List.append_assoc, List.append_assoc]
    exact .nodes hnodes ih
  | mark hmark h ih => exact .mark hmark ih

/-- Items are related to themselves if their nodes are. -/
theorem Items.refl (items : List Item)
    (h : ∀ node, .node node ∈ items → relation.Rel [node] [node]) : relation.Items items items := by
  induction items with
  | nil => exact .nil
  | cons item items ih =>
    have hitems := ih fun node hmem => h node (List.mem_cons_of_mem _ hmem)
    by_cases hnode : ∃ node, item = .node node
    · obtain ⟨node, rfl⟩ := hnode
      exact @Items.nodes relation [node] [node] _ _ (h node List.mem_cons_self) hitems
    · exact .mark (fun node heq => hnode ⟨node, heq⟩) hitems

/-- A mark leads from related pairings to related pairings, or it is at fault in both. -/
theorem Pairings.step {pairing other : Pairing} (h : relation.Pairings pairing other) {item : Item}
    (hmark : ∀ node, item ≠ .node node) :
    Results.Related relation.Pairings (pairing.step item) (other.step item) := by
  cases item with
  | node node => exact (hmark node rfl).elim
  | opener name head inverted =>
    cases h with
    | mk hnodes hblocks => exact .ok (.mk hnodes (.cons (.mk relation.nil .none) hblocks))
  -- A divider and a closer look at the innermost open block, and the relation says that both
  -- sides have one or neither has.
  | divider =>
    cases h with
    | mk hnodes hblocks =>
      cases hblocks with
      | nil => exact .error _
      | cons hblock hblocks =>
        cases hblock with
        | mk hbody hinverse =>
          cases hinverse with
          | none => exact .ok (.mk hnodes (.cons (.mk hbody (.some relation.nil)) hblocks))
          | some => exact .error _
  | closer name =>
    cases h with
    | mk hnodes hblocks =>
      cases hblocks with
      | nil => exact .error _
      | cons hblock hblocks =>
        -- The names are equal because related blocks carry the same head and name.
        have hnode := hblock.toNode
        have hclosed := (Pairings.mk hnodes hblocks).addAll hnode
        cases hblock with
        | @mk opened =>
          rw [Pairing.step, Pairing.step]
          dsimp only
          by_cases hname : opened = name
          · rw [if_pos hname, if_pos hname]
            exact .ok hclosed
          · rw [if_neg hname, if_neg hname]
            exact .error _

theorem Items.foldlM_step {items others : List Item} (h : relation.Items items others)
    {pairing other : Pairing} (hpairing : relation.Pairings pairing other) :
    Results.Related relation.Pairings (items.foldlM Pairing.step pairing)
      (others.foldlM Pairing.step other) := by
  induction h generalizing pairing other with
  | nil => exact .ok hpairing
  | nodes hnodes h ih =>
    rw [List.foldlM_append, List.foldlM_append, foldlM_nodes, foldlM_nodes]
    exact ih (hpairing.addAll hnodes)
  | mark hmark h ih =>
    rw [List.foldlM_cons, List.foldlM_cons]
    exact (hpairing.step hmark).bind fun _ _ hnext => ih hnext

end NodesRelation

/-- Of related items related templates are made, or the same mark is at fault. -/
theorem pairBlocks_related {relation : NodesRelation} {items others : List Item}
    (h : relation.Items items others) :
    Results.Related relation.Rel (pairBlocks items) (pairBlocks others) := by
  refine (h.foldlM_step (.mk relation.nil .nil)).bind fun pairing other hpairing => ?_
  cases hpairing with
  | mk hnodes hblocks =>
    cases hblocks with
    | nil => exact .ok hnodes
    | cons hblock =>
      cases hblock with
      | mk => exact .error _

end BraceTemplate
