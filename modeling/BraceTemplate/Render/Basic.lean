import BraceTemplate.Configuration
import BraceTemplate.Render.Sink

/-! # Renders

A part of a render takes the sink and the registries to their new state and ends well or with
an error. What was written or registered before an error stays. A part has no end at all if
partials nest deeper than they are followed.
-/

namespace BraceTemplate

/-- What a render can change: the sink and the registries. -/
structure RenderState where
  sink : Sink
  configuration : Configuration
  deriving Inhabited

/-- A part of a render. -/
def Render (α : Type) : Type :=
  RenderState → Option (Except Error α × RenderState)

namespace Render

variable {α β : Type}

instance : Monad Render where
  pure a := fun state => some (.ok a, state)
  bind part next := fun state =>
    match part state with
    | none => none
    | some (.ok a, after) => next a after
    | some (.error error, after) => some (.error error, after)

/-- Ends with an error. -/
def fail (error : Error) : Render α :=
  fun state => some (.error error, state)

/-- The render that partials nest too deeply for. -/
def tooDeep : Render α :=
  fun _ => none

/-- Ends as a computation did that has no part in the render. -/
def ofExcept (result : Except Error α) : Render α :=
  fun state => some (result, state)

/-- Writes a text to the sink. -/
def write (text : String) : Render Unit :=
  fun ⟨sink, configuration⟩ =>
    match sink.write text with
    | (sink, true) => some (.ok (), ⟨sink, configuration⟩)
    | (sink, false) => some (.error .write, ⟨sink, configuration⟩)

/-- The registries as they are now. -/
def configuration : Render Configuration :=
  fun state => some (.ok state.configuration, state)

/-- Registers an entry. -/
def register (entry : Registration) : Render Unit :=
  fun state =>
    some (.ok (), { state with configuration := state.configuration.register entry })

/-- The error that a part ended with, if it did. -/
def errorOf : Except Error Unit → Option Error
  | .ok () => none
  | .error error => some error

/-- Renders into an empty sink, and gives what was written and the error, if there was one. -/
def capture (inner : Render Unit) : Render (String × Option Error) :=
  fun state =>
    match inner { state with sink := .unlimited "" } with
    | none => none
    | some (result, after) =>
      some (.ok (after.sink.written, errorOf result), { after with sink := state.sink })

/-! ## Lemmas -/

@[simp] theorem pure_apply (a : α) (state : RenderState) :
    (pure a : Render α) state = some (.ok a, state) := rfl

theorem bind_apply (part : Render α) (next : α → Render β) (state : RenderState) :
    (part >>= next) state =
      match part state with
      | none => none
      | some (.ok a, after) => next a after
      | some (.error error, after) => some (.error error, after) := rfl

@[simp] theorem fail_apply (error : Error) (state : RenderState) :
    (fail error : Render α) state = some (.error error, state) := rfl

/-- A text is written to the sink alone, and fails if the sink has no room for all of it. -/
theorem write_apply (text : String) (sink : Sink) (configuration : Configuration) :
    write text ⟨sink, configuration⟩ =
      some (if (sink.write text).2 then .ok () else .error .write,
        ⟨(sink.write text).1, configuration⟩) := by
  cases hwrite : sink.write text with
  | mk after kept => cases kept <;> simp [write, hwrite]

@[simp] theorem configuration_apply (state : RenderState) :
    configuration state = some (.ok state.configuration, state) := rfl

@[simp] theorem configuration_bind_apply (next : Configuration → Render β)
    (state : RenderState) :
    (configuration >>= next) state = next state.configuration state := rfl

@[simp] theorem fail_bind (error : Error) (next : α → Render β) :
    (fail error >>= next) = fail error := rfl

@[simp] theorem tooDeep_bind (next : α → Render β) : (tooDeep >>= next) = tooDeep := rfl

theorem bind_pure_self (part : Render α) : (part >>= pure) = part := by
  funext state
  rw [bind_apply]
  split <;> simp_all

theorem bind_assoc_apply {γ : Type} (part : Render α) (next : α → Render β)
    (last : β → Render γ) : (part >>= next) >>= last = part >>= fun a => next a >>= last := by
  funext state
  simp only [bind_apply]
  cases part state with
  | none => rfl
  | some ended =>
    obtain ⟨result, after⟩ := ended
    cases result <;> rfl

instance : LawfulMonad Render :=
  LawfulMonad.mk' Render bind_pure_self (fun _ _ => rfl) bind_assoc_apply

end Render

end BraceTemplate
