import BraceTemplate.Render.Basic
import BraceTemplate.Template.Reading

/-! # Scripts in a render

A script of a helper is run step by step. What it registers counts from the next step on, and
a template that it registers is read with the helpers that are registered by then.
-/

namespace BraceTemplate

/-- The value of an argument, if it is defined. -/
def Argument.value? (frame : Frame) : Argument → Option Value
  | .literal text => some (.string text)
  | .path target => frame.lookup target
  | .truth operand => some (.bool (Value.isDefinedTruthy (operand.value? frame)))

/-- The values of arguments, with null for what is undefined. -/
def argumentValues (frame : Frame) (arguments : List Argument) : List Value :=
  arguments.map fun argument => (argument.value? frame).getD .null

/-- Does what a script says, given the frame of the call and how to render the two bodies. -/
def Script.run (frame : Frame) (renderPart : BodyPart → Frame → Render Unit) :
    {convention : Convention} → Script convention → Render Unit
  | _, .done => pure ()
  | _, .fail error => Render.fail error
  | _, .write text next => do
    Render.write text
    next.run frame renderPart
  | _, .registerInline name helper next => do
    Render.register (.inline name helper)
    next.run frame renderPart
  | _, .registerBlock name helper next => do
    Render.register (.block name helper)
    next.run frame renderPart
  | _, .registerPartial name source next => do
    let configuration ← Render.configuration
    let template ← Render.ofExcept (Template.read configuration.isRegistered source)
    Render.register (.template name template)
    next.run frame renderPart
  | _, .render part scope next => do
    renderPart part (scope.enter frame)
    next.run frame renderPart
  | _, .capture part scope next => do
    let (text, error) ← Render.capture (renderPart part (scope.enter frame))
    (next text error).run frame renderPart

/-! ## Lemmas -/

@[simp] theorem Scope.enter_current (frame : Frame) : Scope.current.enter frame = frame := rfl

@[simp] theorem Scope.enter_child (frame : Frame) (value : Value) :
    (Scope.child value).enter frame = .child frame value none := rfl

@[simp] theorem Scope.enter_turn (frame : Frame) (value : Value) (iteration : Iteration) :
    (Scope.turn value iteration).enter frame = .child frame value (some iteration) := rfl

variable (frame : Frame) (renderPart : BodyPart → Frame → Render Unit)

@[simp] theorem Script.run_done {convention : Convention} :
    (Script.done : Script convention).run frame renderPart = pure () := by
  rw [Script.run]

@[simp] theorem Script.run_fail {convention : Convention} (error : Error) :
    (Script.fail error : Script convention).run frame renderPart = Render.fail error := by
  rw [Script.run]

@[simp] theorem Script.run_write {convention : Convention} (text : String)
    (next : Script convention) :
    (Script.write text next).run frame renderPart =
      Render.write text >>= fun _ => next.run frame renderPart := by
  rw [Script.run]

@[simp] theorem Script.run_render (part : BodyPart) (scope : Scope) (next : Script .block) :
    (Script.render part scope next).run frame renderPart =
      renderPart part (scope.enter frame) >>= fun _ => next.run frame renderPart := by
  rw [Script.run]

/-- A body that is rendered against several scopes is rendered in their frames in order. -/
theorem Script.run_renderEach (scopes : List Scope) :
    (Script.renderEach scopes).run frame renderPart =
      (scopes.map (·.enter frame)).forM (renderPart .body) := by
  induction scopes with
  | nil =>
    rw [Script.renderEach, List.foldr_nil, Script.run_done]
    rfl
  | cons scope scopes ih =>
    rw [Script.renderEach] at ih ⊢
    rw [List.foldr_cons, Script.run_render, ih]
    rfl

end BraceTemplate
