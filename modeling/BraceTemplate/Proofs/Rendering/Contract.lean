import BraceTemplate.Proofs.Rendering.Congruence

/-!
# What a render holds to

A contract says which registries and sinks the parts of a render meet and leave, which errors they
may end with, and whether they may go on without end. Every part that is put together from parts
that hold to a contract holds to it as well, and so do the nodes of a template, by
`meets_renderNodes`.
-/

namespace BraceTemplate

/-- What the parts of a render hold to. Any text can be written to the sinks, and a text that is
captured is written to one of them. -/
structure Contract where
  registries : Configuration → Prop
  sinks : Sink → Prop
  fails : Error → Prop
  endless : Prop
  sinks_unlimited : sinks (.unlimited "")
  sinks_write : ∀ sink text, sinks sink → sinks (sink.write text).1
  fails_write : ∀ sink text, sinks sink → (sink.write text).2 = false → fails .write

namespace Contract

variable {α β : Type}

/-- A state that the contract allows. -/
def Allows (contract : Contract) (state : RenderState) : Prop :=
  contract.sinks state.sink ∧ contract.registries state.configuration

/-- An end that the contract allows. -/
def Ends (contract : Contract) : Option (Except Error α × RenderState) → Prop
  | none => contract.endless
  | some (.ok _, after) => contract.Allows after
  | some (.error error, after) => contract.Allows after ∧ contract.fails error

/-- A part of a render that holds to the contract. -/
def Meets (contract : Contract) (part : Render α) : Prop :=
  ∀ state, contract.Allows state → contract.Ends (part state)

/-! ## Parts of a render -/

variable {contract : Contract}

theorem meets_pure (a : α) : contract.Meets (pure a : Render α) :=
  fun _ hstate => hstate

theorem meets_fail {error : Error} (h : contract.fails error) :
    contract.Meets (Render.fail error : Render α) :=
  fun _ hstate => ⟨hstate, h⟩

theorem meets_tooDeep (h : contract.endless) : contract.Meets (Render.tooDeep : Render α) :=
  fun _ _ => h

theorem meets_write (text : String) : contract.Meets (Render.write text) := by
  intro ⟨sink, configuration⟩ hstate
  have hafter : contract.Allows ⟨(sink.write text).1, configuration⟩ :=
    ⟨contract.sinks_write sink text hstate.1, hstate.2⟩
  rw [Render.write_apply]
  split
  · exact hafter
  · next hkept =>
    exact ⟨hafter, contract.fails_write sink text hstate.1 (Bool.eq_false_iff.2 hkept)⟩

/-- Two parts in sequence keep a contract when each of them keeps it. -/
theorem meets_bind {part : Render α} {next : α → Render β} (hpart : contract.Meets part)
    (hnext : ∀ a, contract.Meets (next a)) : contract.Meets (part >>= next) := by
  intro state hstate
  have hend := hpart state hstate
  rw [Render.bind_apply]
  split
  · next hnone =>
    rw [hnone] at hend
    exact hend
  · next a after hok =>
    rw [hok] at hend
    exact hnext a after hend
  · next error after herror =>
    rw [herror] at hend
    exact hend

/-- The registries that a part asks for are allowed. -/
theorem meets_configuration_bind {next : Configuration → Render β}
    (hnext : ∀ configuration, contract.registries configuration →
      contract.Meets (next configuration)) :
    contract.Meets (Render.configuration >>= next) :=
  fun state hstate => hnext state.configuration hstate.2 state hstate

theorem meets_register {entry : Registration}
    (h : ∀ configuration, contract.registries configuration →
      contract.registries (configuration.register entry)) :
    contract.Meets (Render.register entry) :=
  fun state hstate => ⟨hstate.1, h state.configuration hstate.2⟩

/-- A partial is read and registered with the same registries, those of the state. -/
theorem meets_registerPartial {name source : String}
    (h : ∀ configuration, contract.registries configuration →
      (∀ template, Template.read configuration.isRegistered source = .ok template →
        contract.registries (configuration.register (.template name template))) ∧
      ∀ error, Template.read configuration.isRegistered source = .error error →
        contract.fails error) :
    contract.Meets (Render.registerPartial name source) := by
  intro state hstate
  obtain ⟨hregister, herror⟩ := h state.configuration hstate.2
  rw [Render.registerPartial_apply]
  cases hread : Template.read state.configuration.isRegistered source with
  | error error => exact ⟨hstate, herror error hread⟩
  | ok template => exact ⟨hstate.1, hregister template hread⟩

/-- What is captured is written to a sink of its own, and the error of the inner part is one that it
may end with. -/
theorem meets_capture_bind {inner : Render Unit} {next : String × Option Error → Render β}
    (hinner : contract.Meets inner)
    (hnext : ∀ text error, (∀ fault ∈ error, contract.fails fault) →
      contract.Meets (next (text, error))) :
    contract.Meets (Render.capture inner >>= next) := by
  intro state hstate
  have hend := hinner { state with sink := .unlimited "" } ⟨contract.sinks_unlimited, hstate.2⟩
  rw [Render.bind_apply, Render.capture]
  cases hrun : inner { state with sink := .unlimited "" } with
  | none =>
    rw [hrun] at hend
    exact hend
  | some ended =>
    obtain ⟨result, after⟩ := ended
    rw [hrun] at hend
    cases result with
    | ok a =>
      refine hnext _ none ?_ { after with sink := state.sink } ⟨hstate.1, hend.2⟩
      rintro _ ⟨⟩
    -- The error is handed on as a value: the capture itself has ended well.
    | error error =>
      refine hnext _ (some error) ?_ { after with sink := state.sink } ⟨hstate.1, hend.1.2⟩
      rintro _ ⟨⟩
      exact hend.2

/-! ## Templates -/

/-- What holds to a contract is kept by putting parts together. -/
def congruence (contract : Contract) : Congruence where
  registries := contract.registries
  fails := contract.fails
  Rel _ part := contract.Meets part
  rel_pure := meets_pure
  rel_fail := meets_fail
  rel_write := meets_write
  rel_bind := meets_bind
  rel_configuration_bind := meets_configuration_bind
  rel_register := meets_register
  rel_registerPartial := meets_registerPartial
  rel_capture_bind := meets_capture_bind

/-- The calls of a node hold to the contract, given how to render a partial: the helpers and
partials that are found do, and the errors of those that are missing are ones it may end with. -/
def Serves (contract : Contract) (renderPartial : Template → Frame → Render Unit) : Node → Prop
  | .text _ => True
  | .output _ => True
  | .inlineCall name arguments => ∀ configuration, contract.registries configuration →
    (∀ helper, configuration.findInline? name = some helper →
      ∀ frame values, values.length = arguments.length →
        (helper frame values).Obeys contract.registries contract.fails) ∧
    (configuration.findInline? name = none → contract.fails (configuration.noInline name))
  | .blockCall name arguments _ _ => ∀ configuration, contract.registries configuration →
    (∀ helper, configuration.findBlock? name = some helper →
      ∀ frame values hasInverse, values.length = arguments.length →
        (helper frame values hasInverse).Obeys contract.registries contract.fails) ∧
    (configuration.findBlock? name = none → contract.fails (configuration.noBlock name))
  | .pathBlock _ _ _ => True
  | .partialCall name _ => ∀ configuration, contract.registries configuration →
    (∀ template, configuration.findPartial? name = some template →
      ∀ frame, contract.Meets (renderPartial template frame)) ∧
    (configuration.findPartial? name = none → contract.fails (.missingPartial name))

/-- What a contract asks of a node is what its congruence asks. -/
theorem serves_congruence {renderPartial : Template → Frame → Render Unit} {node : Node}
    (h : contract.Serves renderPartial node) :
    contract.congruence.Serves renderPartial renderPartial (fun _ => none) node := by
  cases node with
  | text content => trivial
  | output path => trivial
  | inlineCall name arguments => exact h
  | blockCall name arguments body inverse => exact h
  | pathBlock path body inverse => trivial
  | partialCall name context =>
    rw [Congruence.Serves, replaced_none]
    exact @Congruence.rel_partialCall contract.congruence _ _ _ h context

/-- A template whose calls hold to the contract holds to it. -/
theorem meets_renderNodes {renderPartial : Template → Frame → Render Unit} (nodes : List Node)
    (hnodes : ∀ inner ∈ allNodes nodes, contract.Serves renderPartial inner) (frame : Frame) :
    contract.Meets (renderNodes renderPartial nodes frame) := by
  have hrel := Congruence.rel_renderNodes nodes
    (fun inner hmem => serves_congruence (hnodes inner hmem)) frame
  rwa [replaceAll_none] at hrel

end Contract

end BraceTemplate
