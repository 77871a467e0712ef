import BraceTemplate.Render.Script

/-! # Rendering

Nodes are rendered in order against a frame, writing to a sink, until one of them fails.
Helpers and partials are looked up when they are reached, in the configuration of the render,
which helpers may change. Partials that call one another are followed to a given depth only.
-/

namespace BraceTemplate

/-! ## Nodes -/

/-- Renders something against each of the items of an array in turn. -/
def renderItems (render : Frame → Render Unit) (frame : Frame) (length : Nat) :
    Nat → List Value → Render Unit
  | _, [] => pure ()
  | index, item :: items => do
    render (.child frame item (some (.ofIndex index length)))
    renderItems render frame length (index + 1) items

/-- The frame of a partial with an optional context, which is null if it is undefined. -/
def partialFrame (frame : Frame) : Option Path → Frame
  | none => frame
  | some context => .child frame ((frame.lookup context).getD .null) none

mutual

/-- Renders a node, given how to render a partial. -/
def renderNode (renderPartial : Template → Frame → Render Unit) : Node → Frame → Render Unit
  | .text content, _ => Render.write content
  | .output path, frame =>
    match frame.lookup path with
    | some value => Render.write value.text
    | none => pure ()
  | .inlineCall name arguments, frame => do
    let configuration ← Render.configuration
    match configuration.findInline? name with
    | some helper =>
      (helper frame (argumentValues frame arguments)).run frame fun _ _ => pure ()
    | none => Render.fail (configuration.noInline name)
  | .blockCall name arguments body inverse, frame => do
    let configuration ← Render.configuration
    match configuration.findBlock? name with
    | some helper =>
      (helper frame (argumentValues frame arguments) inverse.isSome).run frame fun part frame =>
        match part with
        | .body => renderNodes renderPartial body frame
        | .inverse => renderInverse renderPartial inverse frame
    | none => Render.fail (configuration.noBlock name)
  | .pathBlock path body inverse, frame =>
    match frame.lookup path with
    | some (.array (item :: items)) =>
      renderItems (fun frame => renderNodes renderPartial body frame) frame (items.length + 1) 0
        (item :: items)
    | some value =>
      if value.isTruthy then renderNodes renderPartial body (.child frame value none)
      else renderInverse renderPartial inverse frame
    | none => renderInverse renderPartial inverse frame
  | .partialCall name context, frame => do
    let configuration ← Render.configuration
    match configuration.findPartial? name with
    | some template => renderPartial template (partialFrame frame context)
    | none => Render.fail (.missingPartial name)

/-- Renders nodes in order. -/
def renderNodes (renderPartial : Template → Frame → Render Unit) :
    List Node → Frame → Render Unit
  | [], _ => pure ()
  | node :: nodes, frame => do
    renderNode renderPartial node frame
    renderNodes renderPartial nodes frame

/-- Renders an inverse body, which writes nothing if it is not there. -/
def renderInverse (renderPartial : Template → Frame → Render Unit) :
    Option (List Node) → Frame → Render Unit
  | none, _ => pure ()
  | some nodes, frame => renderNodes renderPartial nodes frame

end

/-! ## Templates -/

/-- Renders a template, following partials to the given depth. -/
def Template.render : (depth : Nat) → Template → Frame → Render Unit
  | 0, _, _ => Render.tooDeep
  | depth + 1, template, frame => renderNodes (Template.render depth) template frame

@[simp] theorem Template.render_zero (template : Template) (frame : Frame) :
    template.render 0 frame = Render.tooDeep := rfl

@[simp] theorem Template.render_succ (depth : Nat) (template : Template) (frame : Frame) :
    template.render (depth + 1) frame = renderNodes (Template.render depth) template frame := rfl

/-- Nodes in a row are rendered one part after the other. -/
theorem renderNodes_append (renderPartial : Template → Frame → Render Unit)
    (first second : List Node) (frame : Frame) :
    renderNodes renderPartial (first ++ second) frame =
      renderNodes renderPartial first frame >>= fun _ =>
        renderNodes renderPartial second frame := by
  induction first with
  | nil => simp [renderNodes]
  | cons node nodes ih => simp [renderNodes, ih]

theorem renderNodes_singleton (renderPartial : Template → Frame → Render Unit) (node : Node)
    (frame : Frame) : renderNodes renderPartial [node] frame = renderNode renderPartial node frame :=
  bind_pure_unit

theorem render_singleton (depth : Nat) (node : Node) (frame : Frame) :
    Template.render (depth + 1) [node] frame = renderNode (Template.render depth) node frame :=
  renderNodes_singleton (Template.render depth) node frame

/-- The depth to which partials are followed. It is meant to be beyond the depth of any recursion
that comes to an end, be it by its data or by a full sink. -/
def partialDepth : Nat := 2000000

end BraceTemplate
