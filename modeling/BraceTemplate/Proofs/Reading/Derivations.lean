import BraceTemplate.Proofs.Joining.Blocks

/-!
# The grammar of blocks

A row of items is a sequence of nodes and of blocks, where a block is an opener, a sequence, a second
sequence after a divider if there is one, and a closer with the name of the opener. A `Phrase` is a
derivation in that grammar: `phraseItems` is the row of items that it derives and `phraseNodes` the
nodes that it denotes. The stack of open blocks reads exactly the rows that have a derivation, every
row has at most one, and the nodes that are read are those that the derivation denotes.
-/

namespace BraceTemplate

/-! ## Derivations -/

/-- A member of a sequence: a node, or a block with its opener and its one or two sequences. -/
inductive Phrase where
  | node (node : Node)
  | block (name : String) (head : BlockHead) (inverted : Bool) (first : List Phrase)
      (second : Option (List Phrase))
  deriving Inhabited

mutual

/-- The items of a phrase. -/
def Phrase.items : Phrase → List Item
  | .node node => [.node node]
  | .block name head inverted first second =>
    .opener name head inverted :: (phraseItems first ++ (dividedItems second ++ [.closer name]))

/-- The items of a sequence. -/
def phraseItems : List Phrase → List Item
  | [] => []
  | phrase :: phrases => phrase.items ++ phraseItems phrases

/-- The items of a second sequence, after the divider. -/
def dividedItems : Option (List Phrase) → List Item
  | none => []
  | some phrases => .divider :: phraseItems phrases

end

/-- The node of a block with the given head. -/
def BlockHead.toNode (name : String) : BlockHead → List Node → Option (List Node) → Node
  | .helper arguments, body, inverse => .blockCall name arguments body inverse
  | .path target, body, inverse => .pathBlock target body inverse

/-- A block of two sequences, which are its body and its inverse body. If it is inverted they are
exchanged, and a second sequence that is missing gives an empty body. -/
def BlockHead.blockOf (name : String) (head : BlockHead) :
    Bool → List Node → Option (List Node) → Node
  | false, first, second => head.toNode name first second
  | true, first, none => head.toNode name [] (some first)
  | true, first, some second => head.toNode name second (some first)

mutual

/-- The node that a phrase denotes. -/
def Phrase.toNode : Phrase → Node
  | .node node => node
  | .block name head inverted first second =>
    head.blockOf name inverted (phraseNodes first) (dividedNodes second)

/-- The nodes that a sequence denotes. -/
def phraseNodes : List Phrase → List Node
  | [] => []
  | phrase :: phrases => phrase.toNode :: phraseNodes phrases

/-- The nodes that a second sequence denotes. -/
def dividedNodes : Option (List Phrase) → Option (List Node)
  | none => none
  | some phrases => some (phraseNodes phrases)

end

theorem phraseItems_append (first second : List Phrase) :
    phraseItems (first ++ second) = phraseItems first ++ phraseItems second := by
  induction first with
  | nil => rfl
  | cons phrase phrases ih =>
    rw [List.cons_append, phraseItems, phraseItems, ih, List.append_assoc]

theorem phraseItems_singleton (phrase : Phrase) : phraseItems [phrase] = phrase.items := by
  rw [phraseItems, phraseItems, List.append_nil]

theorem phraseNodes_append (first second : List Phrase) :
    phraseNodes (first ++ second) = phraseNodes first ++ phraseNodes second := by
  induction first with
  | nil => rfl
  | cons phrase phrases ih => rw [List.cons_append, phraseNodes, phraseNodes, ih, List.cons_append]

/-- A closed block becomes the node of its two sequences. -/
theorem OpenBlock.toNode_eq_blockOf (name : String) (head : BlockHead) (inverted : Bool)
    (first : List Node) (second : Option (List Node)) :
    (OpenBlock.mk name head inverted first second).toNode =
      head.blockOf name inverted first second := by
  cases head <;> cases inverted <;> cases second <;> rfl

/-! ## Every derivation is read -/

namespace Pairing

theorem step_opener (pairing : Pairing) (name : String) (head : BlockHead) (inverted : Bool) :
    pairing.step (.opener name head inverted) =
      .ok ⟨pairing.nodes, ⟨name, head, inverted, [], none⟩ :: pairing.blocks⟩ := rfl

theorem step_divider (nodes : List Node) (block : OpenBlock) (blocks : List OpenBlock)
    (h : block.inverse = none) :
    (Pairing.mk nodes (block :: blocks)).step .divider =
      .ok ⟨nodes, { block with inverse := some [] } :: blocks⟩ := by
  rw [step]
  dsimp only
  rw [h]

theorem step_closer (nodes : List Node) (block : OpenBlock) (blocks : List OpenBlock) :
    (Pairing.mk nodes (block :: blocks)).step (.closer block.name) =
      .ok ((Pairing.mk nodes blocks).add block.toNode) :=
  if_pos rfl

/-- Nodes are added to the first sequence of a block until it is divided. -/
theorem foldl_add_first (nodes read more : List Node) (name : String) (head : BlockHead)
    (inverted : Bool) (blocks : List OpenBlock) :
    more.foldl add ⟨nodes, ⟨name, head, inverted, read, none⟩ :: blocks⟩ =
      ⟨nodes, ⟨name, head, inverted, read ++ more, none⟩ :: blocks⟩ := by
  induction more generalizing read with
  | nil => rw [List.append_nil, List.foldl_nil]
  | cons node more ih =>
    rw [List.foldl_cons, List.append_cons, ← ih]
    rfl

/-- Nodes are added to the second sequence of a block once it is divided. -/
theorem foldl_add_second (nodes first read more : List Node) (name : String) (head : BlockHead)
    (inverted : Bool) (blocks : List OpenBlock) :
    more.foldl add ⟨nodes, ⟨name, head, inverted, first, some read⟩ :: blocks⟩ =
      ⟨nodes, ⟨name, head, inverted, first, some (read ++ more)⟩ :: blocks⟩ := by
  induction more generalizing read with
  | nil => rw [List.append_nil, List.foldl_nil]
  | cons node more ih =>
    rw [List.foldl_cons, List.append_cons, ← ih]
    rfl

end Pairing

mutual

/-- A phrase adds its node, whatever blocks are open. -/
theorem Phrase.foldlM_step (phrase : Phrase) (pairing : Pairing) :
    phrase.items.foldlM Pairing.step pairing = .ok (pairing.add phrase.toNode) := by
  cases phrase with
  | node node => rfl
  | block name head inverted first second =>
    rw [Phrase.items, List.foldlM_cons, Pairing.step_opener]
    show (phraseItems first ++ (dividedItems second ++ [Item.closer name])).foldlM Pairing.step _ = _
    rw [List.foldlM_append, foldlM_phraseItems first, Pairing.foldl_add_first, List.nil_append]
    show (dividedItems second ++ [Item.closer name]).foldlM Pairing.step _ = _
    rw [List.foldlM_append, foldlM_dividedItems second]
    show (Pairing.mk _ (⟨name, head, inverted, _, _⟩ :: _)).step (Item.closer name) >>= pure = _
    rw [Pairing.step_closer, OpenBlock.toNode_eq_blockOf, ← Phrase.toNode]
    rfl

/-- A sequence adds its nodes, whatever blocks are open. -/
theorem foldlM_phraseItems (phrases : List Phrase) (pairing : Pairing) :
    (phraseItems phrases).foldlM Pairing.step pairing =
      (.ok ((phraseNodes phrases).foldl Pairing.add pairing) : Except BlockFault Pairing) := by
  cases phrases with
  | nil => rfl
  | cons phrase phrases =>
    rw [phraseItems, List.foldlM_append, phrase.foldlM_step, phraseNodes, List.foldl_cons]
    exact foldlM_phraseItems phrases _

/-- A divider and a second sequence are read inside a block that is not divided yet. -/
theorem foldlM_dividedItems (second : Option (List Phrase)) (nodes first : List Node)
    (name : String) (head : BlockHead) (inverted : Bool) (blocks : List OpenBlock) :
    (dividedItems second).foldlM Pairing.step
        ⟨nodes, ⟨name, head, inverted, first, none⟩ :: blocks⟩ =
      (.ok ⟨nodes, ⟨name, head, inverted, first, dividedNodes second⟩ :: blocks⟩ :
        Except BlockFault Pairing) := by
  cases second with
  | none => rfl
  | some phrases =>
    rw [dividedItems, List.foldlM_cons, Pairing.step_divider _ _ _ rfl]
    show (phraseItems phrases).foldlM Pairing.step _ = _
    rw [foldlM_phraseItems phrases, Pairing.foldl_add_second, List.nil_append, dividedNodes]

end

/-- The items of a sequence are the template that the sequence denotes. -/
theorem pairBlocks_phraseItems (phrases : List Phrase) :
    pairBlocks (phraseItems phrases) = .ok (phraseNodes phrases) := by
  rw [pairBlocks_eq_ok, foldlM_phraseItems, Pairing.foldl_add_nil, List.nil_append]

/-- A phrase may stand for another that denotes the same node, at any depth. -/
theorem pairBlocks_congr_phrase {phrase other : Phrase} (h : phrase.toNode = other.toNode)
    (before later : List Item) :
    pairBlocks (before ++ (phrase.items ++ later)) =
      pairBlocks (before ++ (other.items ++ later)) := by
  have hrun : ∀ pairing : Pairing, (phrase.items ++ later).foldlM Pairing.step pairing =
      (other.items ++ later).foldlM Pairing.step pairing := by
    intro pairing
    rw [List.foldlM_append, List.foldlM_append, phrase.foldlM_step, other.foldlM_step, h]
  rw [pairBlocks, pairBlocks, List.foldlM_append, List.foldlM_append, funext hrun]

/-- An inverted block is the block of its sequences in the other order. -/
theorem Phrase.toNode_inverted (name : String) (head : BlockHead) (first second : List Phrase) :
    (Phrase.block name head true first (some second)).toNode =
      (Phrase.block name head false second (some first)).toNode := by
  rw [Phrase.toNode, Phrase.toNode, dividedNodes, dividedNodes, BlockHead.blockOf,
    BlockHead.blockOf]

/-- An inverted block that is not divided has an empty body. -/
theorem Phrase.toNode_inverted_none (name : String) (head : BlockHead) (first : List Phrase) :
    (Phrase.block name head true first none).toNode =
      (Phrase.block name head false [] (some first)).toNode := by
  rw [Phrase.toNode, Phrase.toNode, dividedNodes, dividedNodes, phraseNodes, BlockHead.blockOf,
    BlockHead.blockOf]

/-! ## Everything that is read has a derivation

The derivations of the sequences that are still open are kept next to the stack of open blocks. The
items read so far are those of the sequences and of the openers and dividers between them.
-/

/-- A block that has been opened, with the phrases of its sequences so far. -/
structure OpenPhrase where
  name : String
  head : BlockHead
  inverted : Bool
  first : List Phrase
  second : Option (List Phrase)

namespace OpenPhrase

/-- The items of an open block so far. -/
def items (block : OpenPhrase) : List Item :=
  .opener block.name block.head block.inverted ::
    (phraseItems block.first ++ dividedItems block.second)

/-- The open block that the phrases denote. -/
def toOpenBlock (block : OpenPhrase) : OpenBlock :=
  ⟨block.name, block.head, block.inverted, phraseNodes block.first, dividedNodes block.second⟩

/-- The phrase of a block that is closed. -/
def toPhrase (block : OpenPhrase) : Phrase :=
  .block block.name block.head block.inverted block.first block.second

/-- Adds a phrase to the sequence that is being read. -/
def add (block : OpenPhrase) (phrase : Phrase) : OpenPhrase :=
  match block.second with
  | none => { block with first := block.first ++ [phrase] }
  | some second => { block with second := some (second ++ [phrase]) }

theorem items_add (block : OpenPhrase) (phrase : Phrase) :
    (block.add phrase).items = block.items ++ phrase.items := by
  obtain ⟨name, head, inverted, first, second⟩ := block
  cases second <;>
    simp [add, items, dividedItems, phraseItems_append, phraseItems_singleton]

theorem toOpenBlock_add (block : OpenPhrase) (phrase : Phrase) :
    (block.add phrase).toOpenBlock = block.toOpenBlock.add phrase.toNode := by
  obtain ⟨name, head, inverted, first, second⟩ := block
  cases second <;>
    simp [add, toOpenBlock, OpenBlock.add, dividedNodes, phraseNodes_append, phraseNodes]

theorem items_toPhrase (block : OpenPhrase) :
    block.toPhrase.items = block.items ++ [.closer block.name] := by
  rw [toPhrase, Phrase.items, items, List.cons_append, List.append_assoc]

theorem toNode_toPhrase (block : OpenPhrase) :
    block.toPhrase.toNode = block.toOpenBlock.toNode := by
  rw [toPhrase, Phrase.toNode, toOpenBlock, OpenBlock.toNode_eq_blockOf]

end OpenPhrase

/-- The phrases outside of all blocks so far, and the blocks that are open, the innermost first. -/
structure PhrasePairing where
  phrases : List Phrase
  blocks : List OpenPhrase

namespace PhrasePairing

/-- The items that have been read. -/
def items (reading : PhrasePairing) : List Item :=
  phraseItems reading.phrases ++ reading.blocks.reverse.flatMap OpenPhrase.items

/-- The pairing that the phrases denote. -/
def toPairing (reading : PhrasePairing) : Pairing :=
  ⟨phraseNodes reading.phrases, reading.blocks.map OpenPhrase.toOpenBlock⟩

/-- Adds a phrase to the innermost block, or outside of all blocks. -/
def add (reading : PhrasePairing) (phrase : Phrase) : PhrasePairing :=
  match reading.blocks with
  | [] => { reading with phrases := reading.phrases ++ [phrase] }
  | block :: blocks => { reading with blocks := block.add phrase :: blocks }

theorem items_cons (phrases : List Phrase) (block : OpenPhrase) (blocks : List OpenPhrase) :
    items ⟨phrases, block :: blocks⟩ = items ⟨phrases, blocks⟩ ++ block.items := by
  simp [items]

theorem items_add (reading : PhrasePairing) (phrase : Phrase) :
    (reading.add phrase).items = reading.items ++ phrase.items := by
  obtain ⟨phrases, blocks⟩ := reading
  cases blocks with
  | nil => simp [add, items, phraseItems_append, phraseItems_singleton]
  | cons block blocks =>
    show items ⟨phrases, block.add phrase :: blocks⟩ = _
    rw [items_cons, items_cons, OpenPhrase.items_add, List.append_assoc]

theorem toPairing_add (reading : PhrasePairing) (phrase : Phrase) :
    (reading.add phrase).toPairing = reading.toPairing.add phrase.toNode := by
  obtain ⟨phrases, blocks⟩ := reading
  cases blocks with
  | nil => simp [add, toPairing, Pairing.add, phraseNodes_append, phraseNodes]
  | cons block blocks => simp [add, toPairing, Pairing.add, OpenPhrase.toOpenBlock_add]

/-- An item that is read is added to the derivations of what has been read. -/
theorem exists_of_step {reading : PhrasePairing} {item : Item} {next : Pairing}
    (h : reading.toPairing.step item = .ok next) :
    ∃ reading' : PhrasePairing, reading'.toPairing = next ∧
      reading'.items = reading.items ++ [item] := by
  obtain ⟨phrases, blocks⟩ := reading
  cases item with
  | node node =>
    cases h
    exact ⟨add ⟨phrases, blocks⟩ (.node node), toPairing_add _ _, items_add _ _⟩
  | opener name head inverted =>
    cases h
    exact ⟨⟨phrases, ⟨name, head, inverted, [], none⟩ :: blocks⟩, rfl, items_cons _ _ _⟩
  -- A divider starts the second part of the innermost open block; the items gain the divider.
  | divider =>
    cases blocks with
    | nil => cases h
    | cons block blocks =>
      obtain ⟨name, head, inverted, first, second⟩ := block
      cases second with
      | some second => cases h
      | none =>
        cases h
        refine ⟨⟨phrases, ⟨name, head, inverted, first, some []⟩ :: blocks⟩, rfl, ?_⟩
        rw [items_cons, items_cons, List.append_assoc]
        simp [OpenPhrase.items, dividedItems, phraseItems]
  | closer name =>
    cases blocks with
    | nil => cases h
    | cons block blocks =>
      by_cases hname : block.name = name
      -- The closed block becomes a phrase of whatever is open around it.
      · subst hname
        obtain rfl := Except.ok.inj ((Pairing.step_closer _ block.toOpenBlock _).symm.trans h)
        refine ⟨add ⟨phrases, blocks⟩ block.toPhrase, ?_, ?_⟩
        · rw [toPairing_add, OpenPhrase.toNode_toPhrase]
          rfl
        · rw [items_add, OpenPhrase.items_toPhrase, items_cons, List.append_assoc]
      · exact absurd ((if_neg hname).symm.trans h) (by intro hfault; cases hfault)

/-- Items that are read are added to the derivations of what has been read. -/
theorem exists_of_foldlM {reading : PhrasePairing} {items : List Item} {last : Pairing}
    (h : items.foldlM Pairing.step reading.toPairing = .ok last) :
    ∃ reading' : PhrasePairing, reading'.toPairing = last ∧
      reading'.items = reading.items ++ items := by
  induction items generalizing reading with
  | nil => exact ⟨reading, Except.ok.inj h, (List.append_nil _).symm⟩
  | cons item items ih =>
    rw [List.foldlM_cons, Results.bind_eq_ok] at h
    obtain ⟨next, hstep, hrest⟩ := h
    obtain ⟨between, rfl, hitem⟩ := exists_of_step hstep
    obtain ⟨reading', hlast, hitems⟩ := ih hrest
    exact ⟨reading', hlast, by rw [hitems, hitem, ← List.append_cons]⟩

end PhrasePairing

/-- A row of items that is read has a derivation, which denotes the nodes that are read. -/
theorem exists_phrases_of_pairBlocks {items : List Item} {nodes : List Node}
    (h : pairBlocks items = .ok nodes) :
    ∃ phrases, phraseItems phrases = items ∧ phraseNodes phrases = nodes := by
  have hrun : items.foldlM Pairing.step (PhrasePairing.mk [] []).toPairing = .ok ⟨nodes, []⟩ :=
    pairBlocks_eq_ok.1 h
  obtain ⟨⟨phrases, blocks⟩, hlast, hitems⟩ := PhrasePairing.exists_of_foldlM hrun
  obtain ⟨hnodes, hblocks⟩ := Pairing.mk.inj hlast
  obtain rfl : blocks = [] := List.map_eq_nil_iff.1 hblocks
  exact ⟨phrases, (List.append_nil _).symm.trans hitems, hnodes⟩

/-! ## No row has two derivations

A sequence goes on with a node or an opener, and ends where the row ends or where a divider or a
closer of the block around it stands. So the items after a sequence tell where it ends.
-/

/-- The row ends here, or goes on with a divider or a closer. -/
def EndsSequence : List Item → Prop
  | [] | .divider :: _ | .closer _ :: _ => True
  | .node _ :: _ | .opener _ _ _ :: _ => False

theorem Phrase.not_endsSequence (phrase : Phrase) (items : List Item) :
    ¬ EndsSequence (phrase.items ++ items) := by
  cases phrase with
  | node node => exact id
  | block name head inverted first second => exact id

theorem endsSequence_divided (second : Option (List Phrase)) (name : String) (items : List Item) :
    EndsSequence (dividedItems second ++ .closer name :: items) := by
  cases second <;> trivial

mutual

/-- Two phrases at the beginning of one row are the same. -/
theorem Phrase.eq_of_items_append (phrase other : Phrase) (rest rest' : List Item)
    (h : phrase.items ++ rest = other.items ++ rest') : phrase = other ∧ rest = rest' := by
  cases phrase with
  | node node =>
    cases other with
    | node node' =>
      obtain ⟨hnode, hrest⟩ := List.cons.inj h
      exact ⟨congrArg Phrase.node (Item.node.inj hnode), hrest⟩
    | block name head inverted first second => cases (List.cons.inj h).1
  | block name head inverted first second =>
    cases other with
    | node node' => cases (List.cons.inj h).1
    | block name' head' inverted' first' second' =>
      simp only [Phrase.items, List.cons_append, List.append_assoc, List.nil_append] at h
      -- The opener fixes the head; each of the two parts ends where no phrase can begin.
      obtain ⟨hopener, hitems⟩ := List.cons.inj h
      cases hopener
      obtain ⟨hfirst, hitems⟩ := phrases_eq_of_items_append first first' _ _
        (endsSequence_divided _ _ _) (endsSequence_divided _ _ _) hitems
      obtain ⟨hsecond, hrest⟩ := second_eq_of_items_append second second' name _ _ hitems
      rw [hfirst, hsecond]
      exact ⟨rfl, hrest⟩

/-- Two sequences at the beginning of one row are the same if both end where a sequence ends. -/
theorem phrases_eq_of_items_append (phrases others : List Phrase) (rest rest' : List Item)
    (hrest : EndsSequence rest) (hrest' : EndsSequence rest')
    (h : phraseItems phrases ++ rest = phraseItems others ++ rest') :
    phrases = others ∧ rest = rest' := by
  cases phrases with
  | nil =>
    cases others with
    | nil => exact ⟨rfl, h⟩
    | cons other others =>
      rw [phraseItems, phraseItems, List.nil_append, List.append_assoc] at h
      -- One list has ended where the other goes on, but no phrase begins with a divider or closer.
      exact absurd (h ▸ hrest) (other.not_endsSequence _)
  | cons phrase phrases =>
    cases others with
    | nil =>
      rw [phraseItems, phraseItems, List.nil_append, List.append_assoc] at h
      exact absurd (h ▸ hrest') (phrase.not_endsSequence _)
    | cons other others =>
      rw [phraseItems, phraseItems, List.append_assoc, List.append_assoc] at h
      obtain ⟨rfl, hitems⟩ := phrase.eq_of_items_append other _ _ h
      obtain ⟨rfl, hrests⟩ := phrases_eq_of_items_append phrases others _ _ hrest hrest' hitems
      exact ⟨rfl, hrests⟩

/-- Two second sequences before closers in one row are the same. -/
theorem second_eq_of_items_append (second other : Option (List Phrase)) (name : String)
    (rest rest' : List Item)
    (h : dividedItems second ++ .closer name :: rest =
      dividedItems other ++ .closer name :: rest') :
    second = other ∧ rest = rest' := by
  cases second with
  | none =>
    cases other with
    | none => exact ⟨rfl, (List.cons.inj h).2⟩
    | some others => cases (List.cons.inj h).1
  | some phrases =>
    cases other with
    | none => cases (List.cons.inj h).1
    | some others =>
      obtain ⟨hphrases, hclosers⟩ := phrases_eq_of_items_append phrases others
        (.closer name :: rest) (.closer name :: rest') trivial trivial (List.cons.inj h).2
      exact ⟨congrArg some hphrases, (List.cons.inj hclosers).2⟩

end

/-- A row of items has at most one derivation. -/
theorem phraseItems_injective : Function.Injective phraseItems := by
  intro phrases others h
  have happend : phraseItems phrases ++ [] = phraseItems others ++ [] := by rw [h]
  exact (phrases_eq_of_items_append phrases others [] [] trivial trivial happend).1

/-- The items of a template are paired just if they have a derivation, which is the only one and
denotes the nodes, and all other rows of items are mismatched. An inverted block may be replaced
by the plain block of its sequences in the other order, at any depth. -/
theorem pairBlocks_iff_derivation (items : List Item) :
    (∀ nodes, pairBlocks items = .ok nodes ↔
      ∃ phrases, phraseItems phrases = items ∧ phraseNodes phrases = nodes) ∧
    (∀ phrases others, phraseItems phrases = items → phraseItems others = items →
      phrases = others) ∧
    ((∀ phrases, phraseItems phrases ≠ items) →
      ∃ fault, (pairBlocks items).mapError Error.blockMismatch = .error (.blockMismatch fault)) ∧
    ∀ before later name head first,
      (∀ second, pairBlocks (before ++ ((Phrase.block name head true first (some second)).items ++
          later)) =
        pairBlocks (before ++ ((Phrase.block name head false second (some first)).items ++
          later))) ∧
      pairBlocks (before ++ ((Phrase.block name head true first none).items ++ later)) =
        pairBlocks (before ++ ((Phrase.block name head false [] (some first)).items ++ later)) := by
  refine ⟨?_, ?_, ?_, ?_⟩
  · intro nodes
    constructor
    · exact exists_phrases_of_pairBlocks
    · rintro ⟨phrases, rfl, rfl⟩
      exact pairBlocks_phraseItems phrases
  · intro phrases others hphrases hothers
    exact phraseItems_injective (hphrases.trans hothers.symm)
  · intro hnone
    -- Were the items paired they would have a derivation.
    cases hitems : pairBlocks items with
    | error fault => exact ⟨fault, rfl⟩
    | ok nodes =>
      obtain ⟨phrases, hphrases, -⟩ := exists_phrases_of_pairBlocks hitems
      exact absurd hphrases (hnone phrases)
  · intro before later name head first
    constructor
    · intro second
      exact pairBlocks_congr_phrase (Phrase.toNode_inverted name head first second) before later
    · exact pairBlocks_congr_phrase (Phrase.toNode_inverted_none name head first) before later

end BraceTemplate
