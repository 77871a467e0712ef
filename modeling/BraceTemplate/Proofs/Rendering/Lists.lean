import BraceTemplate.Proofs.Reading.Nesting
import BraceTemplate.Proofs.Rendering.Loops
import BraceTemplate.Proofs.Rendering.Merged
import BraceTemplate.Proofs.Scanning.Words

/-!
# Lists of items

A loop over an array writes a separator before every item but the first one if its body asks whether
the turn is the first or the last one. `render_lists` says what two such templates come to, from
their texts on: one lists the items in words, and the other one writes what the array itself is
written as.
-/

namespace BraceTemplate

/-! ## Texts in a list -/

/-- Texts with a separator between two of them, and with another one before the last text. -/
def listed (between beforeLast : String) (texts : List String) : String :=
  match texts.dropLast, texts.getLast? with
  | _, none => ""
  | [], some last => last
  | earlier, some last => between.intercalate earlier ++ beforeLast ++ last

/-- What stands before the item of a turn: nothing in the first turn, and a separator in others. -/
def separator (between beforeLast : String) (iteration : Iteration) : String :=
  if iteration.first then "" else if iteration.last then beforeLast else between

section

variable {between beforeLast : String}

theorem listed_append_last (first : String) (earlier : List String) (last : String) :
    listed between beforeLast (first :: earlier ++ [last]) =
      between.intercalate (first :: earlier) ++ beforeLast ++ last := by
  rw [listed, List.dropLast_concat, List.getLast?_concat]

example : listed ", " " and " ["Kane", "Salt Lake", "Weber"] = "Kane, Salt Lake and Weber" := by
  decide

/-- Every text but the first one has a separator before it. -/
theorem intercalate_cons_eq_join (first : String) (texts : List String) :
    between.intercalate (first :: texts) = first ++ String.join (texts.map (between ++ ·)) := by
  induction texts generalizing first with
  | nil => rw [String.intercalate_singleton, List.map_nil, String.join_nil, String.append_empty]
  | cons text texts ih =>
    rw [String.intercalate_cons_cons, ih, List.map_cons, String.join_cons, String.append_assoc,
      String.append_assoc]

/-- With the same separator everywhere, texts are listed as they are joined with it. -/
theorem listed_same (texts : List String) :
    listed between between texts = between.intercalate texts := by
  rcases List.eq_nil_or_concat' texts with rfl | ⟨earlier, last, rfl⟩
  · rw [String.intercalate_nil]
    rfl
  · cases earlier with
    | nil =>
      rw [List.nil_append, String.intercalate_singleton]
      rfl
    | cons first earlier =>
      rw [listed_append_last, String.intercalate_append_of_ne_nil (List.cons_ne_nil _ _)
        (List.cons_ne_nil _ _), String.intercalate_singleton]

/-- What a turn of a loop of the given length writes for a text at an index. -/
def turnText (between beforeLast : String) (length : Nat) (turn : String × Nat) : String :=
  separator between beforeLast (.ofIndex turn.2 length) ++ turn.1

/-- The turns between the first one and the last one have the same separator. -/
theorem map_turnText_zipIdx {texts : List String} {index length : Nat} (hfirst : 0 < index)
    (hlast : index + texts.length < length) :
    (texts.zipIdx index).map (turnText between beforeLast length) = texts.map (between ++ ·) := by
  induction texts generalizing index with
  | nil => rfl
  | cons text texts ih =>
    rw [List.length_cons] at hlast
    have hnotFirst : (index == 0) = false := beq_false_of_ne (Nat.ne_of_gt hfirst)
    have hnotLast : (index + 1 == length) = false := beq_false_of_ne (by omega)
    have hhead : turnText between beforeLast length (text, index) = between ++ text := by
      rw [turnText, separator, Iteration.ofIndex, hnotFirst, hnotLast]
      rfl
    rw [List.zipIdx_cons, List.map_cons, List.map_cons, ih (Nat.succ_pos _) (by omega), hhead]

/-- The turns of a loop write the texts in a list. -/
theorem join_turnText_zipIdx (texts : List String) :
    String.join (texts.zipIdx.map (turnText between beforeLast texts.length)) =
      listed between beforeLast texts := by
  rcases List.eq_nil_or_concat' texts with rfl | ⟨earlier, last, rfl⟩
  · rfl
  · cases earlier with
    | nil =>
      show String.join ["" ++ last] = last
      rw [String.join_cons, String.join_nil, String.append_empty, String.empty_append]
    | cons first earlier =>
      -- The first turn, the turns between, and the last turn.
      have hlength : (first :: earlier ++ [last]).length = earlier.length + 2 := by simp
      have hhead : turnText between beforeLast (earlier.length + 2) (first, 0) = first :=
        String.empty_append
      have hlast : turnText between beforeLast (earlier.length + 2)
          (last, 0 + 1 + earlier.length) = beforeLast ++ last := by
        have hnotFirst : (0 + 1 + earlier.length == 0) = false := beq_false_of_ne (by omega)
        have hisLast : (0 + 1 + earlier.length + 1 == earlier.length + 2) = true :=
          beq_iff_eq.2 (by omega)
        rw [turnText, separator, Iteration.ofIndex, hnotFirst, hisLast]
        rfl
      rw [listed_append_last, intercalate_cons_eq_join, hlength, List.cons_append,
        List.zipIdx_cons, List.zipIdx_append, List.map_cons, List.map_append,
        map_turnText_zipIdx (by omega) (by omega), List.zipIdx_singleton, List.map_singleton,
        hhead, hlast, String.join_cons, String.join_append,
        String.join_cons, String.join_nil, String.append_empty]
      simp only [String.append_assoc]

end

/-! ## What nodes write -/

/-- A part of a render writes a text, ends well and leaves the registries as they are. -/
abbrev Writes (configuration : Configuration) (part : Render Unit) (text : String) : Prop :=
  Yields part configuration (.ok ()) text configuration

section

variable {configuration : Configuration} {renderPartial : Template → Frame → Render Unit}

theorem writes_text (text : String) (frame : Frame) :
    Writes configuration (renderNode renderPartial (.text text) frame) text := by
  rw [renderNode]
  exact .write text

theorem writes_output {path : Path} {frame : Frame} {value : Value}
    (h : frame.lookup path = some value) :
    Writes configuration (renderNode renderPartial (.output path) frame) value.text := by
  rw [renderNode, h]
  exact .write value.text

theorem writes_cons {node : Node} {nodes : List Node} {frame : Frame} {text later : String}
    (hnode : Writes configuration (renderNode renderPartial node frame) text)
    (hnodes : Writes configuration (renderNodes renderPartial nodes frame) later) :
    Writes configuration (renderNodes renderPartial (node :: nodes) frame) (text ++ later) := by
  rw [renderNodes]
  exact hnode.bind hnodes

theorem writes_singleton {node : Node} {frame : Frame} {text : String}
    (h : Writes configuration (renderNode renderPartial node frame) text) :
    Writes configuration (renderNodes renderPartial [node] frame) text := by
  rwa [renderNodes_singleton]

/-- What is rendered in one frame after the other is written one after the other. -/
theorem writes_forM {α : Type} {body : Frame → Render Unit} {frameOf : α → Frame}
    {text : α → String} {turns : List α}
    (h : ∀ turn ∈ turns, Writes configuration (body (frameOf turn)) (text turn)) :
    Writes configuration ((turns.map frameOf).forM body) (String.join (turns.map text)) := by
  induction turns with
  | nil => exact .of_ended fun _ => rfl
  | cons turn turns ih =>
    rw [List.forall_mem_cons] at h
    rw [List.map_cons, List.map_cons, String.join_cons]
    exact h.1.bind (ih h.2)

/-- A call of the block `if` writes what the body writes that the condition chooses. -/
theorem writes_if (hif : configuration.findBlock? "if" = some BuiltIn.ifBlock)
    {argument : Argument} {frame : Frame} {condition : Bool}
    (hcondition : argument.value? frame = some (.bool condition)) {body inverse : Template}
    {text other : String}
    (hbody : Writes configuration (renderNodes renderPartial body frame) text)
    (hinverse : Writes configuration (renderNodes renderPartial inverse frame) other) :
    Writes configuration
      (renderNode renderPartial (.blockCall "if" [argument] body (some inverse)) frame)
      (if condition then text else other) := by
  have hcall := fun sink =>
    renderNode_if argument body (some inverse) renderPartial frame sink hif
  rw [hcondition, Option.getD_some] at hcall
  cases condition with
  | true => exact hbody.congr hcall
  | false => exact hinverse.congr hcall

/-- A loop over an array writes a list of its items, if its body writes every item after the
separator of its turn. -/
theorem writes_each (heach : configuration.findBlock? "each" = some BuiltIn.eachBlock)
    {argument : Argument} {frame : Frame} {items : List Value}
    (hitems : argument.value? frame = some (.array items)) {body : Template}
    {between beforeLast : String}
    (hbody : ∀ item iteration, Writes configuration
      (renderNodes renderPartial body (.child frame item (some iteration)))
      (separator between beforeLast iteration ++ item.text)) :
    Writes configuration (renderNode renderPartial (.blockCall "each" [argument] body none) frame)
      (listed between beforeLast (items.map Value.text)) := by
  have hturns : Writes configuration
      ((turnFrames frame (.array items)).forM (renderNodes renderPartial body))
      (listed between beforeLast (items.map Value.text)) := by
    rw [← join_turnText_zipIdx, List.zipIdx_map, List.map_map, List.length_map, turnFrames,
      BuiltIn.loopScopes, enter_itemScopes]
    exact writes_forM fun turn _ => hbody turn.1 (.ofIndex turn.2 items.length)
  refine hturns.congr fun sink => ?_
  rw [renderNode_blockCall _ _ _ _ _ _ heach, hitems, Option.getD_some, run_eachBlock]
  split
  · next hempty =>
    -- Without turns there is nothing to write, as there is no inverse body.
    have hnone : turnFrames frame (.array items) = [] := by
      rw [← List.length_eq_zero_iff, length_turnFrames, hempty, List.length_nil]
    rw [hnone]
    rfl
  · rfl

end

/-! ## Two templates that list the items of an array -/

/-- Whether a loop variable of a turn is truthy. -/
def turnIs (name : String) : Argument :=
  .truth (.path (Path.ofWord name))

theorem value?_turnIs_first (frame : Frame) (item : Value) (iteration : Iteration) :
    (turnIs "@first").value? (.child frame item (some iteration)) =
      some (.bool iteration.first) := rfl

theorem value?_turnIs_last (frame : Frame) (item : Value) (iteration : Iteration) :
    (turnIs "@last").value? (.child frame item (some iteration)) =
      some (.bool iteration.last) := rfl

/-- The item of a turn. -/
def turnItem : Node :=
  .output (Path.ofWord "this")

/-- A body that writes an item after the separator of its turn. -/
def listBody (between beforeLast : String) : Template :=
  [.blockCall "if" [turnIs "@first"] [turnItem] (some
    [.blockCall "if" [turnIs "@last"] [.text beforeLast, turnItem] (some
      [.text between, turnItem])])]

/-- A body that writes an item, and a separator before it except in the first turn. -/
def joinBody (between : String) : Template :=
  [.blockCall "if" [turnIs "@first"] [] (some [.text between]), turnItem]

section

variable {configuration : Configuration} {renderPartial : Template → Frame → Render Unit}

/-- A turn writes its item after one of the two separators, or after none in the first turn. -/
theorem writes_listBody (hif : configuration.findBlock? "if" = some BuiltIn.ifBlock)
    (between beforeLast : String) (frame : Frame) (item : Value) (iteration : Iteration) :
    Writes configuration
      (renderNodes renderPartial (listBody between beforeLast) (.child frame item (some iteration)))
      (separator between beforeLast iteration ++ item.text) := by
  have hitem : Writes configuration
      (renderNode renderPartial turnItem (.child frame item (some iteration))) item.text :=
    writes_output rfl
  -- From the inside out: the item alone, then what stands before the last one or between others.
  have hlast := writes_if hif (value?_turnIs_last frame item iteration)
    (writes_cons (writes_text beforeLast _) (writes_singleton hitem))
    (writes_cons (writes_text between _) (writes_singleton hitem))
  have hfirst := writes_if hif (value?_turnIs_first frame item iteration) (writes_singleton hitem)
    (writes_singleton hlast)
  have hseparator : separator between beforeLast iteration ++ item.text =
      if iteration.first then item.text
      else if iteration.last then beforeLast ++ item.text else between ++ item.text := by
    rw [separator]
    split
    · exact String.empty_append
    · split <;> rfl
  rw [hseparator]
  exact writes_singleton hfirst

theorem writes_joinBody (hif : configuration.findBlock? "if" = some BuiltIn.ifBlock)
    (between : String) (frame : Frame) (item : Value) (iteration : Iteration) :
    Writes configuration
      (renderNodes renderPartial (joinBody between) (.child frame item (some iteration)))
      (separator between between iteration ++ item.text) := by
  have hnothing : Writes configuration
      (renderNodes renderPartial [] (.child frame item (some iteration))) "" :=
    .of_ended fun _ => rfl
  have hfirst := writes_if hif (value?_turnIs_first frame item iteration) hnothing
    (writes_singleton (writes_text between _))
  rw [separator, ite_self]
  exact writes_cons hfirst (writes_singleton (writes_output rfl))

end

/-! ## From the text to the items -/

/-- A tag that opens a block with a word as its argument. -/
def openerTag (name word : String) : Segment String (List Piece) :=
  .tag [.word name (some .blockOpen), .word word (Scanner.pathSigil word.toList)]

/-- A tag that closes a block. -/
def closerTag (name : String) : Segment String (List Piece) :=
  .tag [.word name (some .blockClose)]

/-- The tag between the two bodies of a block. -/
def dividerTag : Segment String (List Piece) :=
  .tag [.word "else" none]

/-- The tag of the item of a turn. -/
def itemTag : Segment String (List Piece) :=
  .tag [.word "this" (some .this)]

/-- A loop over the array of the name `xs` that lists its items in words. -/
def wordsLoop : String :=
  "\x7b\x7b\x23each xs\x7d\x7d" ++
    "\x7b\x7b\x23if @first\x7d\x7d\x7b\x7bthis\x7d\x7d\x7b\x7belse\x7d\x7d" ++
      "\x7b\x7b\x23if @last\x7d\x7d and \x7b\x7bthis\x7d\x7d" ++
      "\x7b\x7belse\x7d\x7d, \x7b\x7bthis\x7d\x7d\x7b\x7b/if\x7d\x7d" ++
    "\x7b\x7b/if\x7d\x7d" ++
  "\x7b\x7b/each\x7d\x7d"

/-- A loop over the array of the name `xs` that joins its items with commas. -/
def commasLoop : String :=
  "\x7b\x7b\x23each xs\x7d\x7d" ++
    "\x7b\x7b\x23if @first\x7d\x7d\x7b\x7belse\x7d\x7d,\x7b\x7b/if\x7d\x7d" ++
    "\x7b\x7bthis\x7d\x7d" ++
  "\x7b\x7b/each\x7d\x7d"

/-- The texts and tags of the loop that lists its items in words. -/
def wordsSegments : List (Segment String (List Piece)) :=
  [openerTag "each" "xs", openerTag "if" "@first", itemTag, dividerTag, openerTag "if" "@last",
    .outside " and ", itemTag, dividerTag, .outside ", ", itemTag, closerTag "if", closerTag "if",
    closerTag "each"]

/-- The texts and tags of the loop that joins its items with commas. -/
def commasSegments : List (Segment String (List Piece)) :=
  [openerTag "each" "xs", openerTag "if" "@first", dividerTag, .outside ",", closerTag "if",
    itemTag, closerTag "each"]

section

variable (registered : String → Bool)

theorem readSegment_openerTag (name : String) (hname : Path.isSingleName name = true)
    (hne : name ≠ "") (word : String) :
    readSegment registered (openerTag name word) =
      some [.opener name (.helper [.path (Path.ofWord word)]) false] := by
  rw [openerTag, readSegment, readTag, if_neg hne,
    readOpener_call registered false hname hne (List.cons_ne_nil _ _)]
  rfl

theorem readSegment_dividerTag : readSegment registered dividerTag = some [.divider] := by
  show (readPlain registered "else" none []).map _ = _
  rw [readPlain, isHelperWord_else]
  rfl

/-- The loop that lists in words is read into its tree, whatever helpers are registered. -/
theorem read_wordsLoop :
    Template.read registered wordsLoop =
      .ok [.blockCall "each" [.path (Path.ofWord "xs")] (listBody ", " " and ") none] := by
  have htokens : tokenize wordsLoop = .ok (wordsSegments.flatMap Segment.toTokens) :=
    tokenize_writeSegments (by decide) rfl
  have hitems : readSegments registered wordsSegments = some
      [.opener "each" (.helper [.path (Path.ofWord "xs")]) false,
        .opener "if" (.helper [.path (Path.ofWord "@first")]) false, .node turnItem, .divider,
        .opener "if" (.helper [.path (Path.ofWord "@last")]) false, .node (.text " and "),
        .node turnItem, .divider, .node (.text ", "), .node turnItem, .closer "if", .closer "if",
        .closer "each"] := by
    simp only [wordsSegments, readSegments_cons_eq, readSegment_dividerTag,
      readSegment_openerTag registered "each" rfl (by decide),
      readSegment_openerTag registered "if" rfl (by decide)]
    rfl
  exact read_of_tokenize htokens hitems rfl

/-- The loop that joins with commas is read into its tree, whatever helpers are registered. -/
theorem read_commasLoop :
    Template.read registered commasLoop =
      .ok [.blockCall "each" [.path (Path.ofWord "xs")] (joinBody ",") none] := by
  have htokens : tokenize commasLoop = .ok (commasSegments.flatMap Segment.toTokens) :=
    tokenize_writeSegments (by decide) rfl
  have hitems : readSegments registered commasSegments = some
      [.opener "each" (.helper [.path (Path.ofWord "xs")]) false,
        .opener "if" (.helper [.path (Path.ofWord "@first")]) false, .divider, .node (.text ","),
        .closer "if", .node turnItem, .closer "each"] := by
    simp only [commasSegments, readSegments_cons_eq, readSegment_dividerTag,
      readSegment_openerTag registered "each" rfl (by decide),
      readSegment_openerTag registered "if" rfl (by decide)]
    rfl
  exact read_of_tokenize htokens hitems rfl

end

/-- A template of one node outputs what the node writes. -/
theorem Workspace.output_of_writes {workspace : Workspace} {environment : Environment} {node : Node}
    {data : Value} {text : String}
    (h : ∀ renderPartial, Writes (workspace.configuration environment)
      (renderNode renderPartial node (.root data)) text) :
    workspace.output ⟨[node], environment⟩ data = some (.ok (), text) := by
  obtain ⟨depth, hdepth⟩ : ∃ depth, partialDepth = depth + 1 := ⟨1999999, rfl⟩
  rw [output, render, run_eq, hdepth, render_singleton, (h _).unlimited, String.empty_append]
  rfl

/-- Two templates that list the items of an array of any length, by asking for the first and the
last turn. The first one writes the texts of the items with commas between them and the word `and`
before the last one, and the second one writes what the array is written as by its name. -/
theorem render_lists {workspace : Workspace} {environment : Environment}
    (heach : (workspace.configuration environment).findBlock? "each" = some BuiltIn.eachBlock)
    (hif : (workspace.configuration environment).findBlock? "if" = some BuiltIn.ifBlock)
    (hname : (workspace.configuration environment).isRegistered "xs" = false) :
    ∃ inWords withCommas byName,
      workspace.compile environment wordsLoop = .ok inWords ∧
      workspace.compile environment commasLoop = .ok withCommas ∧
      workspace.compile environment "\x7b\x7bxs\x7d\x7d" = .ok byName ∧
      ∀ (data : Value) (items : List Value), data.member? "xs" = some (.array items) →
        workspace.output inWords data =
            some (.ok (), listed ", " " and " (items.map Value.text)) ∧
          workspace.output withCommas data = some (.ok (), (Value.array items).text) ∧
          workspace.output byName data = some (.ok (), (Value.array items).text) := by
  have hwords : workspace.compile environment wordsLoop = .ok _ :=
    Workspace.compile_eq_ok.2 ⟨_, read_wordsLoop _, rfl⟩
  have hcommas : workspace.compile environment commasLoop = .ok _ :=
    Workspace.compile_eq_ok.2 ⟨_, read_commasLoop _, rfl⟩
  have hhelper : isHelperWord (workspace.configuration environment).isRegistered "xs" = false := by
    rw [isHelperWord, hname]
    rfl
  have htag : tokenize "\x7b\x7bxs\x7d\x7d" = .ok (Segment.toTokens (.tag [.word "xs" none])) :=
    @tokenize_writeSegments _ [.tag [.word "xs" none]] (by decide) rfl
  have hplain : workspace.compile environment "\x7b\x7bxs\x7d\x7d" = .ok _ :=
    Workspace.compile_eq_ok.2 ⟨_, read_name htag rfl hhelper, rfl⟩
  refine ⟨_, _, _, hwords, hcommas, hplain, fun data items hitems => ?_⟩
  -- All three templates look the list up in the root frame.
  have hlookup : (Frame.root data).lookup (Path.ofWord "xs") = some (.array items) :=
    (Frame.lookup_root_name data "xs").trans hitems
  have hcollection : (Argument.path (Path.ofWord "xs")).value? (.root data) =
      some (.array items) := hlookup
  refine ⟨?_, ?_, ?_⟩
  · exact Workspace.output_of_writes fun _ =>
      writes_each heach hcollection (writes_listBody hif ", " " and " (.root data))
  · have h := Workspace.output_of_writes fun _ =>
      writes_each heach hcollection (writes_joinBody hif "," (.root data))
    rw [h, listed_same, Value.text_array]
  · exact Workspace.output_of_writes fun _ => writes_output hlookup

/-- Three items, of which the second one is an array that ends with null. -/
theorem render_lists_three :
    let workspace := (Workspace.empty.create .builtIn).1
    let configuration := workspace.configuration ⟨0⟩
    let items : List Value := [.string "a", .array [.string "b", .null], .string "c"]
    let data : Value := .object [("xs", .array items)]
    configuration.findBlock? "each" = some BuiltIn.eachBlock ∧
      configuration.findBlock? "if" = some BuiltIn.ifBlock ∧
      configuration.isRegistered "xs" = false ∧ data.member? "xs" = some (.array items) ∧
      ∃ inWords withCommas byName, workspace.compile ⟨0⟩ wordsLoop = .ok inWords ∧
        workspace.compile ⟨0⟩ commasLoop = .ok withCommas ∧
        workspace.compile ⟨0⟩ "\x7b\x7bxs\x7d\x7d" = .ok byName ∧
        workspace.output inWords data = some (.ok (), "a, b, and c") ∧
        workspace.output withCommas data = some (.ok (), "a,b,,c") ∧
        workspace.output byName data = some (.ok (), "a,b,,c") := by
  intro workspace configuration items data
  obtain ⟨inWords, withCommas, byName, hwords, hcommas, hname, houtputs⟩ :=
    @render_lists workspace ⟨0⟩ rfl rfl rfl
  have houtput := houtputs data items rfl
  exact ⟨rfl, rfl, rfl, rfl, inWords, withCommas, byName, hwords, hcommas, hname, houtput⟩

end BraceTemplate
