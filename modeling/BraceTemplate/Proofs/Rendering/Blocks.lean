import BraceTemplate.Proofs.Reading.Compiling

/-!
# What blocks render

The built-in blocks `with` and `each` render one of the two bodies of a block: the inverse body in
the frame of the block, or the body in frames of its own, one after the other. A path block is no
helper, but by `render_pathBlock` it renders what one of these two blocks renders.
-/

namespace BraceTemplate

/-! ## Scripts of the built-in blocks -/

section

variable (frame : Frame) (renderPart : BodyPart → Frame → Render Unit)

/-- The inverse body is rendered in the frame of the block, and nothing else is. -/
theorem run_renderInverse :
    BuiltIn.renderInverse.run frame renderPart = renderPart .inverse frame := by
  rw [BuiltIn.renderInverse, Script.run_render, Script.run_done, Scope.enter_current]
  exact bind_pure_unit

/-- The block `if` renders its body in the frame of the block, for a truthy value. -/
theorem run_ifBlock (value : Value) (hasInverse : Bool) :
    (BuiltIn.ifBlock frame [value] hasInverse).run frame renderPart =
      if value.isTruthy then renderPart .body frame else renderPart .inverse frame := by
  show (if value.isTruthy then _ else _ : Script .block).run frame renderPart = _
  split
  · rw [Script.run_render, Script.run_done, Scope.enter_current]
    exact bind_pure_unit
  · exact run_renderInverse frame renderPart

/-- The block `with` renders its body in a frame of a truthy value. -/
theorem run_withBlock (value : Value) (hasInverse : Bool) :
    (BuiltIn.withBlock frame [value] hasInverse).run frame renderPart =
      if value.isTruthy then renderPart .body (.child frame value none)
      else renderPart .inverse frame := by
  show (if value.isTruthy then _ else _ : Script .block).run frame renderPart = _
  split
  · rw [Script.run_render, Script.run_done, Scope.enter_child]
    exact bind_pure_unit
  · exact run_renderInverse frame renderPart

/-- A loop renders its body in the frames of its turns, or the inverse body if it has no turns. -/
theorem run_loop (scopes : List Scope) :
    (if scopes.isEmpty then BuiltIn.renderInverse else Script.renderEach scopes).run frame
        renderPart =
      if scopes.isEmpty then renderPart .inverse frame
      else (scopes.map (·.enter frame)).forM (renderPart .body) := by
  split
  · exact run_renderInverse frame renderPart
  · exact Script.run_renderEach frame renderPart scopes

end

/-! ## Calls of the built-in blocks -/

section

variable {configuration : Configuration} (argument : Argument) (body : Template)
  (inverse : Option Template) (renderPartial : Template → Frame → Render Unit) (frame : Frame)
  (sink : Sink)

/-- A call of a block of one argument runs the script of the block for its value, which is null if
it is undefined. -/
theorem renderNode_blockCall {name : String} {helper : BlockHelper}
    (h : configuration.findBlock? name = some helper) :
    renderNode renderPartial (.blockCall name [argument] body inverse) frame
        ⟨sink, configuration⟩ =
      (helper frame [(argument.value? frame).getD .null] inverse.isSome).run frame
        (fun part frame =>
          match part with
          | .body => renderNodes renderPartial body frame
          | .inverse => renderInverse renderPartial inverse frame) ⟨sink, configuration⟩ := by
  rw [renderNode, Render.configuration_bind_apply]
  dsimp only
  rw [h]
  rfl

/-- A call of the block `if` renders its body in its own frame, if its argument is truthy. -/
theorem renderNode_if (hif : configuration.findBlock? "if" = some BuiltIn.ifBlock) :
    renderNode renderPartial (.blockCall "if" [argument] body inverse) frame
        ⟨sink, configuration⟩ =
      (if ((argument.value? frame).getD .null).isTruthy then renderNodes renderPartial body frame
      else renderInverse renderPartial inverse frame) ⟨sink, configuration⟩ := by
  rw [renderNode_blockCall _ _ _ _ _ _ hif, run_ifBlock]

/-- A call of the block `with` renders its body in a frame of its argument, if that is truthy. -/
theorem renderNode_with (hwith : configuration.findBlock? "with" = some BuiltIn.withBlock) :
    renderNode renderPartial (.blockCall "with" [argument] body inverse) frame
        ⟨sink, configuration⟩ =
      (if ((argument.value? frame).getD .null).isTruthy then
        renderNodes renderPartial body (.child frame ((argument.value? frame).getD .null) none)
      else renderInverse renderPartial inverse frame) ⟨sink, configuration⟩ := by
  rw [renderNode_blockCall _ _ _ _ _ _ hwith, run_withBlock]

end

/-! ## Path blocks -/

/-- The built-in block that a path block stands for, given what its path leads to. -/
def standsFor : Option Value → String
  | some (.array _) => "each"
  | _ => "with"

/-- The items that are rendered in turn are rendered in the frames of a loop over them. -/
theorem renderItems_eq_forM (render : Frame → Render Unit) (frame : Frame) (length index : Nat)
    (items : List Value) :
    renderItems render frame length index items =
      ((items.zipIdx index).map fun (item, index) =>
        Frame.child frame item (some (.ofIndex index length))).forM render := by
  induction items generalizing index with
  | nil => rfl
  | cons item items ih =>
    rw [renderItems, ih, List.zipIdx_cons]
    rfl

theorem enter_itemScopes (frame : Frame) (items : List Value) :
    (BuiltIn.itemScopes items).map (·.enter frame) =
      items.zipIdx.map fun (item, index) =>
        Frame.child frame item (some (.ofIndex index items.length)) := by
  rw [BuiltIn.itemScopes, List.map_map]
  rfl

variable {configuration : Configuration}

namespace Emission

variable (evaluation : Evaluation) (body : Emission) (inverse : Option Emission)
  (renderPartial : Template → Frame → Render Unit) (frame : Frame) (sink : Sink)

theorem blockCall_with (hwith : configuration.findBlock? "with" = some BuiltIn.withBlock) :
    blockCall "with" [evaluation] body inverse renderPartial frame ⟨sink, configuration⟩ =
      (if ((evaluation frame).getD .null).isTruthy then
        body renderPartial (.child frame ((evaluation frame).getD .null) none)
      else orNothing inverse renderPartial frame) ⟨sink, configuration⟩ := by
  rw [blockCall, Render.configuration_bind_apply]
  dsimp only
  rw [hwith, Evaluation.all, List.map_singleton]
  dsimp only
  rw [run_withBlock]

theorem blockCall_each (heach : configuration.findBlock? "each" = some BuiltIn.eachBlock)
    {items : List Value} (hitems : evaluation frame = some (.array items)) :
    blockCall "each" [evaluation] body inverse renderPartial frame ⟨sink, configuration⟩ =
      (if items.isEmpty then orNothing inverse renderPartial frame
      else renderItems (body renderPartial) frame items.length 0 items) ⟨sink, configuration⟩ := by
  rw [blockCall, Render.configuration_bind_apply]
  dsimp only
  rw [heach, Evaluation.all, List.map_singleton, hitems, Option.getD_some]
  show (if (BuiltIn.itemScopes items).isEmpty then _ else _ : Script .block).run frame _ _ = _
  rw [run_loop, enter_itemScopes, renderItems_eq_forM]
  cases items <;> rfl

/-- What a path block does is what a call of the block it stands for does. -/
theorem pathBlock_eq_blockCall
    (heach : configuration.findBlock? "each" = some BuiltIn.eachBlock)
    (hwith : configuration.findBlock? "with" = some BuiltIn.withBlock) (path : Path) :
    pathBlock path body inverse renderPartial frame ⟨sink, configuration⟩ =
      blockCall (standsFor (frame.lookup path)) [fun frame => frame.lookup path] body inverse
        renderPartial frame ⟨sink, configuration⟩ := by
  rw [pathBlock]
  cases hvalue : frame.lookup path with
  | none =>
    show _ = blockCall "with" _ _ _ _ _ _
    rw [blockCall_with _ _ _ _ _ _ hwith, hvalue]
    rfl
  | some value =>
    cases value with
    | array items =>
      show _ = blockCall "each" _ _ _ _ _ _
      rw [blockCall_each _ _ _ _ _ _ heach hvalue]
      -- An array without items counts as false, and a loop over it has no turns.
      cases items <;> rfl
    | _ =>
      show _ = blockCall "with" _ _ _ _ _ _
      rw [blockCall_with _ _ _ _ _ _ hwith, hvalue]
      rfl

end Emission

/-- A path block and a call of the block it stands for compile alike: both fail for the same
expression, or what they compile to does the same. -/
theorem compile_pathBlock (heach : configuration.findBlock? "each" = some BuiltIn.eachBlock)
    (hwith : configuration.findBlock? "with" = some BuiltIn.withBlock) (path : Path)
    (frame : Frame) (body : List Expression) (inverse : Option (List Expression)) :
    let call := Expression.blockCall (standsFor (frame.lookup path)) [.path path] body inverse
    (∃ fault, (Expression.pathBlock path body inverse).compile = .error fault ∧
        call.compile = .error fault) ∨
      ∃ block called, (Expression.pathBlock path body inverse).compile = .ok block ∧
        call.compile = .ok called ∧
        ∀ (renderPartial : Template → Frame → Render Unit) (sink : Sink),
          block renderPartial frame ⟨sink, configuration⟩ =
            called renderPartial frame ⟨sink, configuration⟩ := by
  intro call
  have harguments : [Expression.path path].mapM Expression.compileValue =
      .ok [fun frame => frame.lookup path] := rfl
  rw [Expression.compile, Expression.compile, harguments]
  -- Both forms compile the same bodies in the same order, so that they fail alike.
  cases compileAll body with
  | error fault => exact .inl ⟨fault, rfl, rfl⟩
  | ok emission =>
    cases compileInverse inverse with
    | error fault => exact .inl ⟨fault, rfl, rfl⟩
    | ok emissions =>
      refine .inr ⟨_, _, rfl, rfl, fun renderPartial sink => ?_⟩
      exact Emission.pathBlock_eq_blockCall emission emissions renderPartial frame sink heach hwith
        path

/-- A path block renders what the built-in block renders that it stands for, with its path as the
argument and the same bodies: the block `each` if the path leads to an array, and `with` if it leads
to anything else or nowhere. The same holds of templates in their general form, if they compile. -/
theorem render_pathBlock (heach : configuration.findBlock? "each" = some BuiltIn.eachBlock)
    (hwith : configuration.findBlock? "with" = some BuiltIn.withBlock) (path : Path)
    (frame : Frame) :
    let name := standsFor (frame.lookup path)
    (∀ (depth : Nat) (body : Template) (inverse : Option Template) (sink : Sink),
      Template.render depth [.pathBlock path body inverse] frame ⟨sink, configuration⟩ =
        Template.render depth [.blockCall name [.path path] body inverse] frame
          ⟨sink, configuration⟩) ∧
      ∀ (body : List Expression) (inverse : Option (List Expression)),
        let block := Expression.pathBlock path body inverse
        let call := Expression.blockCall name [.path path] body inverse
        (∃ fault, block.compile = .error fault ∧ call.compile = .error fault) ∨
          ∃ renderBlock renderCall, block.compile = .ok renderBlock ∧
            call.compile = .ok renderCall ∧
            ∀ (renderPartial : Template → Frame → Render Unit) (sink : Sink),
              renderBlock renderPartial frame ⟨sink, configuration⟩ =
                renderCall renderPartial frame ⟨sink, configuration⟩ := by
  intro name
  refine ⟨fun depth body inverse sink => ?_, compile_pathBlock heach hwith path frame⟩
  cases depth with
  | zero => rfl
  | succ depth =>
    rw [render_singleton, render_singleton]
    -- Converted nodes render as their expressions do once compiled, for which this is known.
    have hblock := Node.compile_toExpression (.pathBlock path body inverse)
    have hcall := Node.compile_toExpression (.blockCall name [.path path] body inverse)
    rcases compile_pathBlock heach hwith path frame (toExpressions body)
      (inverseExpressions inverse) with ⟨fault, hfault, -⟩ | ⟨block, call, hblock', hcall', hsame⟩
    · cases hfault.symm.trans hblock
    · cases hblock'.symm.trans hblock
      cases hcall'.symm.trans hcall
      exact hsame (Template.render depth) sink

/-- A path block for an array counts its items, and one for a text that is not empty renders its body
once, as the blocks do that they stand for. -/
theorem render_pathBlock_array :
    let body : Template := [.output (Path.ofWord "@index"), .output (Path.ofWord "this")]
    let frame : Frame :=
      .root (.object [("a", .array [.string "u", .string "v"]), ("b", .string "w")])
    let state : RenderState := ⟨.unlimited "", .builtIn⟩
    let render (node : Node) := Template.render 1 [node] frame state
    render (.pathBlock (Path.ofWord "a") body none) =
        render (.blockCall "each" [.path (Path.ofWord "a")] body none) ∧
      render (.pathBlock (Path.ofWord "a") body none) =
        some (.ok (), ⟨.unlimited "0u1v", .builtIn⟩) ∧
      render (.pathBlock (Path.ofWord "b") body none) =
        render (.blockCall "with" [.path (Path.ofWord "b")] body none) := by
  intro body frame state render
  have heach : Configuration.builtIn.findBlock? "each" = some BuiltIn.eachBlock := rfl
  have hwith : Configuration.builtIn.findBlock? "with" = some BuiltIn.withBlock := rfl
  exact ⟨(render_pathBlock heach hwith (Path.ofWord "a") frame).1 1 body none (.unlimited ""), rfl,
    (render_pathBlock heach hwith (Path.ofWord "b") frame).1 1 body none (.unlimited "")⟩

end BraceTemplate
