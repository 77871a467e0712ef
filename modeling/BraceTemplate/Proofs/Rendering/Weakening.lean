import BraceTemplate.Proofs.Joining.Reading
import BraceTemplate.Proofs.Reading.Paths
import BraceTemplate.Proofs.Rendering.BuiltIns
import BraceTemplate.Proofs.Rendering.Output

/-!
# A frame that is put between

A path climbs a number of frames, so a template has to be told when another frame is put around it.
`shiftAll` lets every path that climbs out of a template climb once more. By `alike_render`, what is
shifted so renders around one more frame as the template did without it, because the built-in blocks
push just the frames that the shift counts.
-/

namespace BraceTemplate

open BuiltIn (bodyDepth BlockScript)

/-! ## Climbing once more -/

/-- Climbs once more with a path that climbs at least the given number of times. -/
def Path.shift (cut : Nat) (path : Path) : Path :=
  if path.anchor = .current ∧ cut ≤ path.hops then { path with hops := path.hops + 1 } else path

/-- Climbs once more in an argument. -/
def Argument.shift (cut : Nat) : Argument → Argument
  | .literal text => .literal text
  | .path target => .path (target.shift cut)
  | .truth operand => .truth (operand.shift cut)

mutual

/-- Climbs once more with the paths of a node that climb out of it. -/
def Node.shift (cut : Nat) : Node → Node
  | .text content => .text content
  | .output path => .output (path.shift cut)
  | .inlineCall name arguments => .inlineCall name (arguments.map (Argument.shift cut))
  | .blockCall name arguments body inverse =>
    .blockCall name (arguments.map (Argument.shift cut))
      (shiftAll (cut + bodyDepth name .body) body) (shiftInverse cut inverse)
  | .pathBlock path body inverse =>
    .pathBlock (path.shift cut) (shiftAll (cut + 1) body) (shiftInverse cut inverse)
  | .partialCall name context => .partialCall name (context.map (Path.shift cut))

/-- Climbs once more with the paths that climb out of a list of nodes. -/
def shiftAll (cut : Nat) : List Node → List Node
  | [] => []
  | node :: nodes => node.shift cut :: shiftAll cut nodes

/-- Climbs once more with the paths that climb out of an inverse body. -/
def shiftInverse (cut : Nat) : Option (List Node) → Option (List Node)
  | none => none
  | some nodes => some (shiftAll cut nodes)

end

/-! ## Frames with one more between them -/

/-- A chain of frames, and the same chain with a frame of the given value put in, below so many
others. -/
inductive Frame.Inserted (value : Value) : Nat → Frame → Frame → Prop
  | here (frame : Frame) : Inserted value 0 frame (.child frame value none)
  | child {depth : Nat} {frame wider : Frame} (h : Inserted value depth frame wider) (inner : Value)
    (iteration : Option Iteration) :
    Inserted value (depth + 1) (.child frame inner iteration) (.child wider inner iteration)

namespace Frame.Inserted

variable {value : Value} {depth : Nat} {frame wider : Frame}

theorem outermost (h : Inserted value depth frame wider) : wider.outermost = frame.outermost := by
  induction h with
  | here frame => rfl
  | child h inner iteration ih => exact ih

theorem loopVariable? (h : Inserted value depth frame wider) (name : String) :
    wider.loopVariable? name = frame.loopVariable? name := by
  induction h with
  | here frame => rfl
  | child h inner iteration ih =>
    cases iteration with
    | none => exact ih
    | some iteration => rfl

/-- Climbing less than to the new frame leads to the same value. -/
theorem ancestor_of_lt (h : Inserted value depth frame wider) {hops : Nat} (hlt : hops < depth) :
    (wider.ancestor hops).value = (frame.ancestor hops).value := by
  induction h generalizing hops with
  | here frame => exact absurd hlt (Nat.not_lt_zero hops)
  | child h inner iteration ih =>
    cases hops with
    | zero => rfl
    | succ hops => exact ih (Nat.lt_of_succ_lt_succ hlt)

/-- Climbing past the new frame takes one step more. -/
theorem ancestor_of_le (h : Inserted value depth frame wider) {hops : Nat} (hle : depth ≤ hops) :
    wider.ancestor (hops + 1) = frame.ancestor hops := by
  induction h generalizing hops with
  | here frame => rfl
  | child h inner iteration ih =>
    cases hops with
    | zero => exact absurd hle (Nat.not_succ_le_zero _)
    | succ hops => exact ih (Nat.le_of_succ_le_succ hle)

/-- A path that climbs once more past the new frame leads to the same value. -/
theorem lookup (h : Inserted value depth frame wider) {path : Path}
    (hhops : path.anchor ≠ .current → path.hops = 0) :
    wider.lookup (path.shift depth) = frame.lookup path := by
  obtain ⟨segments, hops, anchor⟩ := path
  cases anchor with
  | current =>
    rw [Path.shift]
    split
    · next hshift =>
      show (some (wider.ancestor (hops + 1)).value).bind _ =
        (some (frame.ancestor hops).value).bind _
      rw [h.ancestor_of_le hshift.2]
    · next hshift =>
      have hlt : hops < depth := Nat.lt_of_not_le fun hle => hshift ⟨rfl, hle⟩
      show (some (wider.ancestor hops).value).bind _ = (some (frame.ancestor hops).value).bind _
      rw [h.ancestor_of_lt hlt]
  -- The outermost frame is the same one, so a path from the root is not shifted.
  | root =>
    rw [Path.shift, if_neg (fun hshift => by cases hshift.1)]
    show (some wider.outermost.value).bind _ = (some frame.outermost.value).bind _
    rw [h.outermost]
  | data name =>
    obtain rfl : hops = 0 := hhops (by simp)
    rw [Path.shift, if_neg (fun hshift => by cases hshift.1)]
    show ((wider.ancestor 0).loopVariable? name).bind _ =
      ((frame.ancestor 0).loopVariable? name).bind _
    rw [ancestor_zero, ancestor_zero, h.loopVariable?]

end Frame.Inserted

/-! ## Scripts -/

theorem Frame.Inserted.enter {value : Value} {depth : Nat} {frame wider : Frame}
    (h : Frame.Inserted value depth frame wider) (scope : Scope) :
    Frame.Inserted value (depth + scope.depth) (scope.enter frame) (scope.enter wider) := by
  cases scope with
  | current => exact h
  | child inner => exact h.child inner none
  | turn inner iteration => exact h.child inner (some iteration)

/-- A script renders its bodies so many frames below that of its block, however it goes on. -/
def Script.RendersAt (depth : BodyPart → Nat) : {convention : Convention} → Script convention → Prop
  | _, .done => True
  | _, .fail _ => True
  | _, .write _ next => next.RendersAt depth
  | _, .registerInline _ _ next => next.RendersAt depth
  | _, .registerBlock _ _ next => next.RendersAt depth
  | _, .registerPartial _ _ next => next.RendersAt depth
  | _, .render part scope next => scope.depth = depth part ∧ next.RendersAt depth
  | _, .capture part scope next =>
    scope.depth = depth part ∧ ∀ text error, (next text error).RendersAt depth

theorem rendersAt_renderEach {depth : BodyPart → Nat} {scopes : List Scope}
    (h : ∀ scope ∈ scopes, scope.depth = depth .body) :
    (Script.renderEach scopes).RendersAt depth := by
  induction scopes with
  | nil => trivial
  | cons scope scopes ih =>
    exact ⟨h scope List.mem_cons_self, ih fun other hmem => h other (List.mem_cons_of_mem _ hmem)⟩

/-- A built-in block renders its bodies as many frames below its own as its name says. -/
theorem rendersAt_blockScript {name : String} {values : List Value} {script : Script .block}
    (h : BlockScript (bodyDepth name .body) values script) : script.RendersAt (bodyDepth name) := by
  cases h with
  | count => trivial
  | inverse => exact ⟨rfl, trivial⟩
  | body value hscopes => exact rendersAt_renderEach hscopes

/-! ## Templates -/

/-- A node calls no partial, and of the helpers only built-in ones, which are registered under their
own names. -/
def Node.CallsBuiltIn (configuration : Configuration) : Node → Prop
  | .text _ => True
  | .output _ => True
  | .inlineCall name _ => ∃ helper, BuiltIn.inlineHelpers.find? name = some helper ∧
      configuration.findInline? name = some helper
  | .blockCall name _ _ _ => ∃ helper, BuiltIn.blockHelpers.find? name = some helper ∧
      configuration.findBlock? name = some helper
  | .pathBlock _ _ _ => True
  | .partialCall _ _ => False

/-- A node calls built-in helpers only, and its paths climb from the current frame only. -/
structure Node.Weakens (configuration : Configuration) (node : Node) : Prop where
  calls : node.CallsBuiltIn configuration
  hops : ∀ path ∈ node.paths, path.anchor ≠ .current → path.hops = 0

section

variable {configuration : Configuration} {value : Value} {cut : Nat} {frame wider : Frame}

theorem argument_value?_shift (h : Frame.Inserted value cut frame wider) {argument : Argument}
    (hhops : ∀ path ∈ argument.path?, path.anchor ≠ .current → path.hops = 0) :
    (argument.shift cut).value? wider = argument.value? frame := by
  induction argument with
  | literal text => rfl
  | path target => exact h.lookup (hhops target rfl)
  | truth operand ih =>
    rw [Argument.shift, Argument.value?, Argument.value?, ih hhops]

theorem argumentValues_shift (h : Frame.Inserted value cut frame wider) {arguments : List Argument}
    (hhops : ∀ path ∈ arguments.filterMap Argument.path?,
      path.anchor ≠ .current → path.hops = 0) :
    argumentValues wider (arguments.map (Argument.shift cut)) = argumentValues frame arguments := by
  rw [argumentValues, argumentValues, List.map_map]
  apply List.map_congr_left
  intro argument hmem
  have hpaths : ∀ path ∈ argument.path?, path.anchor ≠ .current → path.hops = 0 :=
    fun path hpath => hhops path (List.mem_filterMap.2 ⟨argument, hmem, hpath⟩)
  exact congrArg (Option.getD · .null) (argument_value?_shift h hpaths)

/-- Scripts are alike if they render alike bodies. -/
theorem alike_script {convention : Convention} {script : Script convention}
    {depth : BodyPart → Nat} (hkeeps : script.KeepsRegistries) (hdepth : script.RendersAt depth)
    (frame wider : Frame) {renderPart renderWider : BodyPart → Frame → Render Unit}
    (hpart : ∀ part scope, Scope.depth scope = depth part →
      Alike configuration (renderWider part (scope.enter wider))
        (renderPart part (scope.enter frame))) :
    Alike configuration (script.run wider renderWider) (script.run frame renderPart) := by
  induction script with
  | done => exact (Appends.pure ()).alike
  | fail error => exact (Appends.fail error).alike
  | write text next ih => exact .bind (Appends.write text).alike fun _ => ih hkeeps hdepth
  | registerInline => exact hkeeps.elim
  | registerBlock => exact hkeeps.elim
  | registerPartial => exact hkeeps.elim
  | render part scope next ih =>
    exact .bind (hpart part scope hdepth.1) fun _ => ih hkeeps hdepth.2
  | capture part scope next ih =>
    exact .bind (.capture (hpart part scope hdepth.1)) fun captured =>
      ih captured.1 captured.2 (hkeeps _ _) (hdepth.2 _ _)

theorem alike_renderItems {render renderWider : Frame → Render Unit}
    (hrender : ∀ item iteration, Alike configuration (renderWider (.child wider item iteration))
      (render (.child frame item iteration))) (length index : Nat) (items : List Value) :
    Alike configuration (renderItems renderWider wider length index items)
      (renderItems render frame length index items) := by
  induction items generalizing index with
  | nil => exact (Appends.pure ()).alike
  | cons item items ih => exact .bind (hrender item _) fun _ => ih (index + 1)

end

variable {configuration : Configuration} {renderPartial : Template → Frame → Render Unit}

mutual

/-- With its paths shifted past an inserted frame, a node renders as it does without that frame. -/
theorem alike_shiftNode {value : Value} :
    ∀ (node : Node), (∀ inner ∈ node.nodes, inner.Weakens configuration) →
      ∀ {cut : Nat} {frame wider : Frame}, Frame.Inserted value cut frame wider →
      Alike configuration (renderNode renderPartial (node.shift cut) wider)
        (renderNode renderPartial node frame)
  | .text content, _, _, _, _, _ => (Appends.write content).alike
  | .output path, hnodes, cut, frame, wider, h => by
    have hhops := (hnodes _ List.mem_cons_self).hops path List.mem_cons_self
    rw [Node.shift, renderNode, renderNode, h.lookup hhops]
    split
    · exact (Appends.write _).alike
    · exact (Appends.pure ()).alike
  | .inlineCall name arguments, hnodes, cut, frame, wider, h => by
    have hweakens := hnodes _ List.mem_cons_self
    have hcalls : Node.CallsBuiltIn configuration (.inlineCall name arguments) := hweakens.calls
    obtain ⟨helper, hbuiltIn, hfind⟩ := hcalls
    -- Shifted, the arguments have the values that they have without the frame.
    have hvalues : argumentValues wider (arguments.map (Argument.shift cut)) =
        argumentValues frame arguments := argumentValues_shift h hweakens.hops
    rw [Node.shift, renderNode, renderNode, hvalues]
    apply Alike.configuration_bind
    rw [hfind, BuiltIn.eq_logInline hbuiltIn]
    exact (Appends.pure ()).alike
  | .blockCall name arguments body inverse, hnodes, cut, frame, wider, h => by
    have hweakens := hnodes _ List.mem_cons_self
    rw [Node.nodes, List.forall_mem_cons, List.forall_mem_append] at hnodes
    obtain ⟨-, hbody, hinverse⟩ := hnodes
    obtain ⟨helper, hbuiltIn, hfind⟩ :
        Node.CallsBuiltIn configuration (.blockCall name arguments body inverse) := hweakens.calls
    have hvalues : argumentValues wider (arguments.map (Argument.shift cut)) =
        argumentValues frame arguments := argumentValues_shift h hweakens.hops
    have hsome : (shiftInverse cut inverse).isSome = inverse.isSome := by cases inverse <;> rfl
    rw [Node.shift, renderNode, renderNode, hvalues, hsome]
    apply Alike.configuration_bind
    obtain ⟨hframe, hscript⟩ := BuiltIn.blockScript_of_find? hbuiltIn frame wider
      (argumentValues frame arguments) inverse.isSome
    have hkeeps := keepsRegistries_builtIn.block name helper hbuiltIn frame
      (argumentValues frame arguments) inverse.isSome
    rw [hfind]
    dsimp only
    rw [hframe]
    -- A body is shifted by the number of frames that the helper puts around it.
    refine alike_script hkeeps (rendersAt_blockScript hscript) frame wider
      fun part scope hscope => ?_
    have henter := h.enter scope
    rw [hscope] at henter
    cases part with
    | body => exact alike_shiftAll body hbody henter
    | inverse => exact alike_shiftInverse inverse hinverse henter
  | .pathBlock path body inverse, hnodes, cut, frame, wider, h => by
    have hweakens := hnodes _ List.mem_cons_self
    rw [Node.nodes, List.forall_mem_cons, List.forall_mem_append] at hnodes
    obtain ⟨-, hbody, hinverse⟩ := hnodes
    have hhops := hweakens.hops path List.mem_cons_self
    have hinner : ∀ item iteration, Alike configuration
        (renderNodes renderPartial (shiftAll (cut + 1) body) (.child wider item iteration))
        (renderNodes renderPartial body (.child frame item iteration)) :=
      fun item iteration => alike_shiftAll body hbody (h.child item iteration)
    have hother := alike_shiftInverse inverse hinverse h
    rw [Node.shift, renderNode, renderNode, h.lookup hhops]
    split
    · exact alike_renderItems hinner _ _ _
    · split
      · exact hinner _ none
      · exact hother
    · exact hother
  | .partialCall name context, hnodes, _, _, _, _ => (hnodes _ List.mem_cons_self).calls.elim

theorem alike_shiftAll {value : Value} :
    ∀ (nodes : List Node), (∀ inner ∈ allNodes nodes, inner.Weakens configuration) →
      ∀ {cut : Nat} {frame wider : Frame}, Frame.Inserted value cut frame wider →
      Alike configuration (renderNodes renderPartial (shiftAll cut nodes) wider)
        (renderNodes renderPartial nodes frame)
  | [], _, _, _, _, _ => (Appends.pure ()).alike
  | node :: nodes, hnodes, cut, frame, wider, h => by
    rw [allNodes, List.forall_mem_append] at hnodes
    exact .bind (alike_shiftNode node hnodes.1 h) fun _ =>
      alike_shiftAll nodes hnodes.2 h

theorem alike_shiftInverse {value : Value} :
    ∀ (inverse : Option (List Node)),
      (∀ inner ∈ inverseNodes inverse, inner.Weakens configuration) →
      ∀ {cut : Nat} {frame wider : Frame}, Frame.Inserted value cut frame wider →
      Alike configuration (renderInverse renderPartial (shiftInverse cut inverse) wider)
        (renderInverse renderPartial inverse frame)
  | none, _, _, _, _, _ => (Appends.pure ()).alike
  | some nodes, hnodes, _, _, _, h => alike_shiftAll nodes hnodes h

end

/-- A template of texts, paths, sections and calls of built-in helpers renders in one more frame as
it did without it, if the paths that climb out of it climb once more. -/
theorem render_shiftAll {registered : String → Bool} {tokens : List Token} {template : Template}
    (h : Template.ofTokens registered tokens = .ok template) {configuration : Configuration}
    (hcalls : ∀ node ∈ allNodes template, node.CallsBuiltIn configuration) (depth : Nat)
    (frame : Frame) (value : Value) (sink : Sink) :
    Template.render depth (shiftAll 0 template) (.child frame value none) ⟨sink, configuration⟩ =
      Template.render depth template frame ⟨sink, configuration⟩ := by
  have hweakens : ∀ node ∈ allNodes template, node.Weakens configuration := by
    intro node hmem
    refine ⟨hcalls node hmem, fun path hpath => ?_⟩
    exact (denoted_of_ofTokens h path (List.mem_flatMap.2 ⟨node, hmem, hpath⟩)).hops_eq_zero
  cases depth with
  | zero => rfl
  | succ depth => exact (alike_shiftAll template hweakens (.here frame)).same sink

/-- A loop with a path that climbs out of the template: it climbs out of the loop and of the new
frame. -/
theorem render_shiftAll_each :
    let text := "\x7b\x7b \x23each  a \x7d\x7d\x7b\x7b ../x \x7d\x7d\x7b\x7b /each \x7d\x7d"
    let tags : List (List Piece) := [[.word "each" (some .blockOpen), .word "a" none],
      [.word "../x" (some .parent)], [.word "each" (some .blockClose)]]
    let tokens : List Token := tags.flatMap fun pieces => Segment.toTokens (.tag pieces)
    let loop (argument inner : String) : Template :=
      [.blockCall "each" [.path (Path.ofWord argument)] [.output (Path.ofWord inner)] none]
    let state : RenderState := ⟨.unlimited "", .builtIn⟩
    let frame : Frame := .root (.object [("a", .array [.null]), ("x", .string "y")])
    tokenize text = .ok tokens ∧
      Template.ofTokens Configuration.builtIn.isRegistered tokens = .ok (loop "a" "../x") ∧
      shiftAll 0 (loop "a" "../x") = loop "../a" "../../x" ∧
      Template.render 1 (loop "../a" "../../x") (.child frame .null none) state =
        some (.ok (), ⟨.unlimited "y", .builtIn⟩) ∧
      Template.render 1 (loop "../a" "../../x") (.child frame .null none) state =
        Template.render 1 (loop "a" "../x") frame state := by
  intro text tags tokens loop state frame
  have htokens : tokenize text = .ok tokens := tokenize_print_tags tags (by decide)
  have hitems : readSegments Configuration.builtIn.isRegistered (tags.map .tag) =
      some [.opener "each" (.helper [.path (Path.ofWord "a")]) false,
        .node (.output (Path.ofWord "../x")), .closer "each"] := rfl
  have hread : Template.read Configuration.builtIn.isRegistered text = .ok (loop "a" "../x") :=
    read_of_tags htokens hitems rfl
  have h : Template.ofTokens Configuration.builtIn.isRegistered tokens = .ok (loop "a" "../x") := by
    rw [Template.read, htokens] at hread
    exact hread
  refine ⟨htokens, h, rfl, rfl, ?_⟩
  refine render_shiftAll h ?_ 1 frame .null (.unlimited "")
  rw [allNodes, Node.nodes, List.forall_mem_append, List.forall_mem_cons]
  exact ⟨⟨⟨_, rfl, rfl⟩, List.forall_mem_singleton.2 trivial⟩, List.forall_mem_nil _⟩

end BraceTemplate
