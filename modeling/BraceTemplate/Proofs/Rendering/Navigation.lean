import BraceTemplate.Proofs.Paths
import BraceTemplate.Proofs.Rendering.Blocks

/-!
# Paths of paths

A path whose text is put together from two texts leads where the second text leads from where the
first one leads. So a path can be followed in steps, each in the frame of a block `with`, and a step
to the parent is one out of such a frame.
-/

namespace BraceTemplate

/-! ## Looking up -/

/-- Nothing that counts as false has members. -/
theorem Value.descend?_of_not_isTruthy {value : Value} (h : value.isTruthy = false)
    {names : List String} (hne : names ≠ []) : value.descend? names = none := by
  obtain ⟨name, rest, rfl⟩ := List.exists_cons_of_ne_nil hne
  have hmember : value.member? name = none := by
    cases value with
    | array items =>
      have hnil : items = [] := by simpa [isTruthy] using h
      subst hnil
      simp [member?]
    | object members =>
      have hnil : members = [] := by simpa [isTruthy] using h
      subst hnil
      rfl
    | _ => rfl
  rw [descend?_cons, hmember, Option.bind_none]

namespace Frame

/-- A path with more segments leads on from where the path leads. -/
theorem lookup_append (frame : Frame) (path : Path) (names : List String) :
    frame.lookup { path with segments := path.segments ++ names } =
      (frame.lookup path).bind (·.descend? names) := by
  rw [lookup, lookup, Option.bind_assoc]
  exact congrArg _ (funext fun value => value.descend?_append path.segments names)

/-- A path from the current frame that does not climb depends on the value of the frame alone. -/
theorem lookup_current (frame : Frame) {path : Path} (hanchor : path.anchor = .current)
    (hhops : path.hops = 0) : frame.lookup path = frame.value.descend? path.segments := by
  rw [lookup, anchorValue?, hanchor]
  dsimp only
  rw [hhops, ancestor_zero, Option.bind_some]

/-- A path that climbs one more frame is looked up in the parent, or where it was from the outermost
frame. -/
theorem lookup_parent (frame : Frame) {path : Path} (hanchor : path.anchor = .current) :
    frame.lookup { path with hops := path.hops + 1 } =
      (frame.parent?.getD frame).lookup path := by
  have hancestor : frame.ancestor (path.hops + 1) =
      (frame.parent?.getD frame).ancestor path.hops := by
    cases frame with
    | root value => simp [parent?]
    | child parent value iteration => rfl
  rw [lookup, lookup, anchorValue?, anchorValue?, hanchor]
  dsimp only
  rw [hancestor]

end Frame

section

variable {first word : String} (hat : word.toList.head? ≠ some '@')

include hat

/-- The value of a path in two steps. -/
theorem lookup_ofWord_append (hhops : (Path.ofWord word).hops = 0) (frame : Frame) :
    frame.lookup (Path.ofWord (first ++ "/" ++ word)) =
      (frame.lookup (Path.ofWord first)).bind fun value =>
        (Frame.root value).lookup (Path.ofWord word) := by
  rw [Path.ofWord_append first hat hhops, Frame.lookup_append]
  refine congrArg _ (funext fun value => ?_)
  rw [Frame.lookup_current _ (Path.anchor_ofWord hat) hhops]
  rfl

/-- A path is written as its second step is written in a block `with` its first one. -/
theorem renderNode_with_output {configuration : Configuration}
    (hwith : configuration.findBlock? "with" = some BuiltIn.withBlock)
    (hhops : (Path.ofWord word).hops = 0) (hsegments : (Path.ofWord word).segments ≠ [])
    (renderPartial : Template → Frame → Render Unit) (frame : Frame) (sink : Sink) :
    renderNode renderPartial (.blockCall "with" [.path (Path.ofWord first)]
        [.output (Path.ofWord word)] none) frame ⟨sink, configuration⟩ =
      renderNode renderPartial (.output (Path.ofWord (first ++ "/" ++ word))) frame
        ⟨sink, configuration⟩ := by
  have hlookup : frame.lookup (Path.ofWord (first ++ "/" ++ word)) =
      (frame.lookup (Path.ofWord first)).bind (·.descend? (Path.ofWord word).segments) := by
    rw [Path.ofWord_append first hat hhops, Frame.lookup_append]
  rw [renderNode_with _ _ _ _ _ _ hwith, Argument.value?, renderNode, hlookup]
  cases frame.lookup (Path.ofWord first) with
  | none =>
    rw [Option.getD_none, if_neg (by decide), renderInverse]
    rfl
  | some value =>
    rw [Option.getD_some, Option.bind_some]
    cases htruthy : value.isTruthy with
    | true =>
      rw [if_pos rfl, renderNodes_singleton, renderNode,
        Frame.lookup_current _ (Path.anchor_ofWord hat) hhops]
      rfl
    | false =>
      -- The block writes nothing, and the path of both is undefined.
      rw [if_neg Bool.false_ne_true, renderInverse, Value.descend?_of_not_isTruthy htruthy hsegments]

/-- Nothing is written of a path whose first step leads to nothing that counts as true. -/
theorem lookup_ofWord_append_eq_none (hhops : (Path.ofWord word).hops = 0)
    (hsegments : (Path.ofWord word).segments ≠ []) {frame : Frame}
    (hfalse : Value.isDefinedTruthy (frame.lookup (Path.ofWord first)) = false) :
    frame.lookup (Path.ofWord (first ++ "/" ++ word)) = none := by
  rw [Path.ofWord_append first hat hhops, Frame.lookup_append]
  cases hvalue : frame.lookup (Path.ofWord first) with
  | none => rfl
  | some value =>
    rw [hvalue] at hfalse
    exact Value.descend?_of_not_isTruthy hfalse hsegments

end

/-- Put after a separator, a text that denotes a path without steps to a parent has its segments put
after those of the text before. So the path of both leads where the second one leads from where the
first one does, and if the second one has segments then it is written in a block `with` the first one
as the path of both is written, which is nothing if the first one leads to nothing that counts as
true. A step to a parent that is put before a text leads where the text leads from the parent frame,
or from the same frame if that is the outermost one. -/
theorem paths_compose {word : String} (hat : word.toList.head? ≠ some '@') :
    (∀ first : String, (Path.ofWord word).hops = 0 →
      let joined := Path.ofWord (first ++ "/" ++ word)
      joined = { Path.ofWord first with
          segments := (Path.ofWord first).segments ++ (Path.ofWord word).segments } ∧
        (∀ frame : Frame, frame.lookup joined = (frame.lookup (Path.ofWord first)).bind fun value =>
          (Frame.root value).lookup (Path.ofWord word)) ∧
        ∀ (configuration : Configuration) (depth : Nat) (frame : Frame) (sink : Sink),
          (Path.ofWord word).segments ≠ [] →
          configuration.findBlock? "with" = some BuiltIn.withBlock →
          let output := Template.render (depth + 1) [.output joined] frame ⟨sink, configuration⟩
          Template.render (depth + 1)
            [.blockCall "with" [.path (Path.ofWord first)] [.output (Path.ofWord word)] none] frame
              ⟨sink, configuration⟩ = output ∧
            (Value.isDefinedTruthy (frame.lookup (Path.ofWord first)) = false →
              output = some (.ok (), ⟨sink, configuration⟩))) ∧
      ∀ frame : Frame, frame.lookup (Path.ofWord ("../" ++ word)) =
        (frame.parent?.getD frame).lookup (Path.ofWord word) := by
  constructor
  · intro first hhops joined
    refine ⟨Path.ofWord_append first hat hhops, lookup_ofWord_append hat hhops, ?_⟩
    intro configuration depth frame sink hsegments hwith output
    refine ⟨?_, fun hfalse => ?_⟩
    -- A truthy value is entered by `with`; otherwise both forms write nothing.
    · show _ = Template.render (depth + 1) _ _ _
      rw [render_singleton, render_singleton]
      exact renderNode_with_output hat hwith hhops hsegments (Template.render depth) frame sink
    · show Template.render (depth + 1) _ _ _ = _
      rw [render_singleton, renderNode, lookup_ofWord_append_eq_none hat hhops hsegments hfalse]
      rfl
  · intro frame
    rw [Path.ofWord_parent hat, Frame.lookup_parent frame (Path.anchor_ofWord hat)]

/-- An item of an array in the parent frame, which is reached in two steps. -/
theorem paths_compose_parent :
    let outer : Value := .object [("a", .object [("b", .array [.string "x"])])]
    let frame : Frame := .child (.root outer) (.string "y") none
    let state : RenderState := ⟨.unlimited "", .builtIn⟩
    let output : Template := [.output (Path.ofWord "b.0")]
    Path.ofWord ("../a" ++ "/" ++ "b.0") = ⟨["a", "b", "0"], 1, .current⟩ ∧
      Template.render 1 [.blockCall "with" [.path (Path.ofWord "../a")] output none] frame state =
        some (.ok (), ⟨.unlimited "x", .builtIn⟩) ∧
      frame.lookup (Path.ofWord ("../" ++ "b.0")) =
        (Frame.root outer).lookup (Path.ofWord "b.0") := by
  intro outer frame state output
  have hat : "b.0".toList.head? ≠ some '@' := by decide
  obtain ⟨hjoined, hparent⟩ := paths_compose hat
  obtain ⟨hread, -, hwith⟩ := hjoined "../a" rfl
  have hsegments : (Path.ofWord "b.0").segments ≠ [] := by decide
  exact ⟨hread, (hwith .builtIn 0 frame (.unlimited "") hsegments rfl).1, hparent frame⟩

end BraceTemplate
