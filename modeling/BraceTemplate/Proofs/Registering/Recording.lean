import BraceTemplate.Proofs.Registering.Lookups
import BraceTemplate.Proofs.Rendering.Congruence

/-!
# Renders that are recorded

A render looks at the registries and registers entries as it goes on. `Template.record` renders a
template in the same way and keeps a record of these happenings in their order, each look with the
registries that were seen. By `records_render` the record leaves nothing out: it is the render with
a record, and playing the registrations of the record back gives the registries that were seen at
each look and those that the render ended with.
-/

namespace BraceTemplate

/-! ## Happenings -/

/-- Something that happens to registries: they are created, with the built-in helpers or without,
they are looked at, or an entry is registered. -/
inductive Happening where
  | created (builtIns : Bool)
  | consulted (seen : Configuration)
  | registered (entry : Registration)

namespace Happening

end Happening

/-- Happenings that lead from one state of the registries to another. Every look sees the state that
the registrations before it have led to. -/
inductive Replays : Configuration → List Happening → Configuration → Prop
  | nil (configuration : Configuration) : Replays configuration [] configuration
  | consulted {seen after : Configuration} {happened : List Happening}
    (h : Replays seen happened after) : Replays seen (.consulted seen :: happened) after
  | registered {configuration after : Configuration} {entry : Registration}
    {happened : List Happening} (h : Replays (configuration.register entry) happened after) :
    Replays configuration (.registered entry :: happened) after

namespace Replays

variable {configuration between after : Configuration} {happened later : List Happening}

theorem append (h : Replays configuration happened between) (hlater : Replays between later after) :
    Replays configuration (happened ++ later) after := by
  induction h with
  | nil => exact hlater
  | consulted _ ih => exact .consulted (ih hlater)
  | registered _ ih => exact .registered (ih hlater)

end Replays

/-! ## Parts of a render with a record -/

/-- A part of a render that keeps a record of what happens to the registries. -/
def Recorded (α : Type) : Type :=
  RenderState → Option (Except Error α × RenderState × List Happening)

namespace Recorded

variable {α β : Type}

instance : Monad Recorded where
  pure a := fun state => some (.ok a, state, [])
  bind part next := fun state =>
    match part state with
    | none => none
    | some (.ok a, after, happened) =>
      (next a after).map fun (result, last, later) => (result, last, happened ++ later)
    | some (.error error, after, happened) => some (.error error, after, happened)

theorem bind_apply (part : Recorded α) (next : α → Recorded β) (state : RenderState) :
    (part >>= next) state =
      match part state with
      | none => none
      | some (.ok a, after, happened) =>
        (next a after).map fun (result, last, later) => (result, last, happened ++ later)
      | some (.error error, after, happened) => some (.error error, after, happened) := rfl

/-- What goes on after a part has its record after that of the part. -/
theorem bind_eq_some {part : Recorded α} {next : α → Recorded β} {state after : RenderState}
    {result : Except Error β} {happened : List Happening} :
    (part >>= next) state = some (result, after, happened) ↔
      (∃ error, result = .error error ∧ part state = some (.error error, after, happened)) ∨
        ∃ a between former latter, happened = former ++ latter ∧
          part state = some (.ok a, between, former) ∧
          next a between = some (result, after, latter) := by
  rw [bind_apply]
  -- The first part has no ending, fails, or hands its value to the second one.
  rcases part state with - | ⟨error | a, between, former⟩
  · simp
  · simp only [Option.some.injEq, Prod.mk.injEq]
    constructor
    · rintro ⟨rfl, rfl, rfl⟩
      exact .inl ⟨error, rfl, rfl, rfl, rfl⟩
    · rintro (⟨_, rfl, heq, rfl, rfl⟩ | ⟨_, _, _, _, -, ⟨heq, -, -⟩, -⟩)
      · cases heq
        exact ⟨rfl, rfl, rfl⟩
      · cases heq
  · rw [Option.map_eq_some_iff]
    constructor
    · rintro ⟨⟨found, last, latter⟩, hnext, heq⟩
      cases heq
      exact .inr ⟨a, between, former, latter, rfl, rfl, hnext⟩
    · rintro (⟨_, -, heq⟩ | ⟨_, _, _, latter, rfl, heq, hnext⟩)
      · cases heq
      · cases heq
        exact ⟨_, hnext, rfl⟩

/-- A part of a render in which nothing happens to the registries. -/
def quiet (part : Render α) : Recorded α :=
  fun state => (part state).map fun (result, after) => (result, after, [])

/-- The registries as they are now. -/
def configuration : Recorded Configuration :=
  fun state => some (.ok state.configuration, state, [.consulted state.configuration])

/-- Registers an entry. -/
def register (entry : Registration) : Recorded Unit :=
  fun state =>
    some (.ok (), { state with configuration := state.configuration.register entry },
      [.registered entry])

/-- Renders into an empty sink, and gives what was written and the error, if there was one. -/
def capture (inner : Recorded Unit) : Recorded (String × Option Error) :=
  fun state =>
    match inner { state with sink := .unlimited "" } with
    | none => none
    | some (result, after, happened) =>
      some (.ok (after.sink.written, Render.errorOf result), { after with sink := state.sink },
        happened)

/-- A part that is captured has the record that it has otherwise. -/
theorem capture_eq_some {inner : Recorded Unit} {state after : RenderState}
    {result : Except Error (String × Option Error)} {happened : List Happening} :
    capture inner state = some (result, after, happened) ↔
      ∃ ended last, inner { state with sink := .unlimited "" } = some (ended, last, happened) ∧
        result = .ok (last.sink.written, Render.errorOf ended) ∧
        after = { last with sink := state.sink } := by
  rw [capture]
  rcases inner { state with sink := .unlimited "" } with - | ⟨ended, last, former⟩
  · simp
  · simp only [Option.some.injEq, Prod.mk.injEq]
    constructor
    · rintro ⟨rfl, rfl, rfl⟩
      exact ⟨ended, last, ⟨rfl, rfl, rfl⟩, rfl, rfl⟩
    · rintro ⟨_, _, ⟨rfl, rfl, rfl⟩, rfl, rfl⟩
      exact ⟨rfl, rfl, rfl⟩

end Recorded

/-! ## Recording a render -/

/-- Does what a script says, with a record. -/
def Script.record (frame : Frame) (recordPart : BodyPart → Frame → Recorded Unit) :
    {convention : Convention} → Script convention → Recorded Unit
  | _, .done => pure ()
  | _, .fail error => Recorded.quiet (Render.fail error)
  | _, .write text next => do
    Recorded.quiet (Render.write text)
    next.record frame recordPart
  | _, .registerInline name helper next => do
    Recorded.register (.inline name helper)
    next.record frame recordPart
  | _, .registerBlock name helper next => do
    Recorded.register (.block name helper)
    next.record frame recordPart
  | _, .registerPartial name source next => do
    let configuration ← Recorded.configuration
    let template ← Recorded.quiet
      (Render.ofExcept (Template.read configuration.isRegistered source))
    Recorded.register (.template name template)
    next.record frame recordPart
  | _, .render part scope next => do
    recordPart part (scope.enter frame)
    next.record frame recordPart
  | _, .capture part scope next => do
    let (text, error) ← Recorded.capture (recordPart part (scope.enter frame))
    (next text error).record frame recordPart

/-- Renders something against each of the items of an array in turn, with a record. -/
def recordItems (record : Frame → Recorded Unit) (frame : Frame) (length : Nat) :
    Nat → List Value → Recorded Unit
  | _, [] => pure ()
  | index, item :: items => do
    record (.child frame item (some (.ofIndex index length)))
    recordItems record frame length (index + 1) items

mutual

/-- Renders a node with a record, given how to do so with a partial. -/
def recordNode (recordPartial : Template → Frame → Recorded Unit) : Node → Frame → Recorded Unit
  | .text content, _ => Recorded.quiet (Render.write content)
  | .output path, frame =>
    match frame.lookup path with
    | some value => Recorded.quiet (Render.write value.text)
    | none => pure ()
  | .inlineCall name arguments, frame => do
    let configuration ← Recorded.configuration
    match configuration.findInline? name with
    | some helper =>
      (helper frame (argumentValues frame arguments)).record frame fun _ _ => pure ()
    | none => Recorded.quiet (Render.fail (configuration.noInline name))
  | .blockCall name arguments body inverse, frame => do
    let configuration ← Recorded.configuration
    match configuration.findBlock? name with
    | some helper =>
      (helper frame (argumentValues frame arguments) inverse.isSome).record frame
        fun part frame =>
          match part with
          | .body => recordNodes recordPartial body frame
          | .inverse => recordInverse recordPartial inverse frame
    | none => Recorded.quiet (Render.fail (configuration.noBlock name))
  | .pathBlock path body inverse, frame =>
    match frame.lookup path with
    | some (.array (item :: items)) =>
      recordItems (fun frame => recordNodes recordPartial body frame) frame (items.length + 1) 0
        (item :: items)
    | some value =>
      if value.isTruthy then recordNodes recordPartial body (.child frame value none)
      else recordInverse recordPartial inverse frame
    | none => recordInverse recordPartial inverse frame
  | .partialCall name context, frame => do
    let configuration ← Recorded.configuration
    match configuration.findPartial? name with
    | some template => recordPartial template (partialFrame frame context)
    | none => Recorded.quiet (Render.fail (.missingPartial name))

/-- Renders nodes in order, with a record. -/
def recordNodes (recordPartial : Template → Frame → Recorded Unit) :
    List Node → Frame → Recorded Unit
  | [], _ => pure ()
  | node :: nodes, frame => do
    recordNode recordPartial node frame
    recordNodes recordPartial nodes frame

/-- Renders an inverse body with a record. -/
def recordInverse (recordPartial : Template → Frame → Recorded Unit) :
    Option (List Node) → Frame → Recorded Unit
  | none, _ => pure ()
  | some nodes, frame => recordNodes recordPartial nodes frame

end

/-- Renders a template with a record, following partials to the given depth. -/
def Template.record : (depth : Nat) → Template → Frame → Recorded Unit
  | 0, _, _ => Recorded.quiet Render.tooDeep
  | depth + 1, template, frame => recordNodes (Template.record depth) template frame

/-! ## A record leaves nothing out -/

/-- The end of a part without its record. -/
def withoutRecord {α : Type} (ended : Except Error α × RenderState × List Happening) :
    Except Error α × RenderState :=
  (ended.1, ended.2.1)

/-- A part with a record does what a part of a render does, and the record tells what happened to
the registries. -/
structure Records {α : Type} (recorded : Recorded α) (part : Render α) : Prop where
  same : ∀ state, part state = (recorded state).map withoutRecord
  replays : ∀ state result after happened, recorded state = some (result, after, happened) →
    Replays state.configuration happened after.configuration

namespace Records

variable {α β : Type}

theorem pure (a : α) : Records (pure a) (pure a) := by
  refine ⟨fun _ => rfl, ?_⟩
  intro state result after happened h
  cases h
  exact .nil _

/-- A part that leaves the registries as they are needs no record. -/
theorem quiet {part : Render α} (h : ∀ state result after, part state = some (result, after) →
    after.configuration = state.configuration) : Records (Recorded.quiet part) part := by
  constructor
  · intro state
    rw [Recorded.quiet, Option.map_map]
    exact Option.map_id_apply.symm
  · intro state result after happened hended
    rw [Recorded.quiet, Option.map_eq_some_iff] at hended
    obtain ⟨ended, hpart, heq⟩ := hended
    cases heq
    rw [h _ _ _ hpart]
    exact .nil _

theorem fail (error : Error) : Records (Recorded.quiet (Render.fail error : Render α))
    (Render.fail error) := by
  refine quiet fun state result after h => ?_
  cases h
  rfl

theorem tooDeep : Records (Recorded.quiet (Render.tooDeep : Render α)) Render.tooDeep := by
  refine quiet fun state result after h => ?_
  cases h

theorem ofExcept (ended : Except Error α) : Records (Recorded.quiet (Render.ofExcept ended))
    (Render.ofExcept ended) := by
  refine quiet fun state result after h => ?_
  cases h
  rfl

theorem write (text : String) :
    Records (Recorded.quiet (Render.write text)) (Render.write text) := by
  refine quiet fun state result after h => ?_
  rw [Render.write_apply] at h
  cases h
  rfl

theorem configuration : Records Recorded.configuration Render.configuration := by
  refine ⟨fun _ => rfl, ?_⟩
  intro state result after happened h
  cases h
  exact .consulted (.nil _)

theorem register (entry : Registration) :
    Records (Recorded.register entry) (Render.register entry) := by
  refine ⟨fun _ => rfl, ?_⟩
  intro state result after happened h
  cases h
  exact .registered (.nil _)

/-- The record of two parts in sequence is that of the first, then that of the second. -/
theorem bind {recorded : Recorded α} {part : Render α} {recordNext : α → Recorded β}
    {next : α → Render β} (h : Records recorded part)
    (hnext : ∀ a, Records (recordNext a) (next a)) :
    Records (recorded >>= recordNext) (part >>= next) := by
  constructor
  · intro state
    rw [Render.bind_apply, h.same, Recorded.bind_apply]
    rcases recorded state with - | ⟨error | a, after, happened⟩
    · rfl
    · rfl
    · show next a after = _
      rw [(hnext a).same, Option.map_map]
      rfl
  · intro state result last happened hended
    rw [Recorded.bind_apply] at hended
    split at hended
    · cases hended
    -- The second part goes on from the configuration to which the first one's record leads.
    · next a between former hfirst =>
      obtain ⟨⟨_, _, latter⟩, hlatter, heq⟩ := Option.map_eq_some_iff.1 hended
      cases heq
      exact (h.replays _ _ _ _ hfirst).append ((hnext a).replays _ _ _ _ hlatter)
    · next error between former hfirst =>
      cases hended
      exact h.replays _ _ _ _ hfirst

/-- A captured part is recorded as it is: only its output goes elsewhere. -/
theorem capture {recorded : Recorded Unit} {inner : Render Unit} (h : Records recorded inner) :
    Records (Recorded.capture recorded) (Render.capture inner) := by
  constructor
  · intro state
    unfold Recorded.capture Render.capture
    rw [h.same]
    cases recorded _ <;> rfl
  · intro state result after happened hended
    unfold Recorded.capture at hended
    split at hended
    · cases hended
    · next hinner =>
      have hreplays := h.replays _ _ _ _ hinner
      cases hended
      exact hreplays

end Records

/-- A script is recorded when the parts it renders are: each step of its own is told. -/
theorem records_script {convention : Convention} (script : Script convention) (frame : Frame)
    {recordPart : BodyPart → Frame → Recorded Unit} {renderPart : BodyPart → Frame → Render Unit}
    (hpart : ∀ part frame, Records (recordPart part frame) (renderPart part frame)) :
    Records (script.record frame recordPart) (script.run frame renderPart) := by
  induction script with
  | done => exact .pure ()
  | fail error => exact .fail error
  | write text next ih => exact .bind (.write text) fun _ => ih
  | registerInline name helper next _ ih => exact .bind (.register _) fun _ => ih
  | registerBlock name helper next _ ih => exact .bind (.register _) fun _ => ih
  | registerPartial name source next ih =>
    exact .bind .configuration fun _ => .bind (.ofExcept _) fun _ => .bind (.register _) fun _ => ih
  | render part scope next ih => exact .bind (hpart _ _) fun _ => ih
  | capture part scope next ih => exact .bind (.capture (hpart _ _)) fun captured => ih _ _

theorem records_renderItems {record : Frame → Recorded Unit} {render : Frame → Render Unit}
    (h : ∀ frame, Records (record frame) (render frame)) (frame : Frame) (length index : Nat)
    (items : List Value) :
    Records (recordItems record frame length index items)
      (renderItems render frame length index items) := by
  induction items generalizing index with
  | nil => exact .pure ()
  | cons item items ih => exact .bind (h _) fun _ => ih (index + 1)

section

variable {recordPartial : Template → Frame → Recorded Unit}
  {renderPartial : Template → Frame → Render Unit}

mutual

/-- What is recorded of a node is its rendering, given that this holds of the partials it calls. -/
theorem records_renderNode
    (h : ∀ template frame, Records (recordPartial template frame) (renderPartial template frame)) :
    ∀ (node : Node) (frame : Frame),
      Records (recordNode recordPartial node frame) (renderNode renderPartial node frame)
  | .text content, _ => .write content
  | .output path, frame => by
    rw [recordNode, renderNode]
    cases frame.lookup path with
    | some value => exact .write _
    | none => exact .pure ()
  | .inlineCall name arguments, frame => by
    rw [recordNode, renderNode]
    refine .bind .configuration fun configuration => ?_
    cases configuration.findInline? name with
    | some helper => exact records_script _ frame fun _ _ => .pure ()
    | none => exact .fail _
  -- The look-up is told, and then whatever the script registers between the parts it renders.
  | .blockCall name arguments body inverse, frame => by
    rw [recordNode, renderNode]
    refine .bind .configuration fun configuration => ?_
    cases configuration.findBlock? name with
    | some helper =>
      refine records_script _ frame fun part frame => ?_
      cases part with
      | body => exact records_renderNodes h body frame
      | inverse => exact records_renderInverse h inverse frame
    | none => exact .fail _
  | .pathBlock path body inverse, frame => by
    have hinverse := records_renderInverse h inverse frame
    -- Apart from an array with items, a value that is found is tested, whatever its kind.
    have htruthy : ∀ value : Value, Records
        (if value.isTruthy then recordNodes recordPartial body (.child frame value none)
          else recordInverse recordPartial inverse frame)
        (if value.isTruthy then renderNodes renderPartial body (.child frame value none)
          else renderInverse renderPartial inverse frame) := by
      intro value
      cases value.isTruthy with
      | true => exact records_renderNodes h body _
      | false => exact hinverse
    rw [recordNode, renderNode]
    match frame.lookup path with
    | none => exact hinverse
    | some (.array (item :: items)) =>
      exact records_renderItems (records_renderNodes h body) frame _ _ _
    | some (.array []) => exact htruthy _
    | some .null => exact htruthy _
    | some (.bool _) => exact htruthy _
    | some (.number _) => exact htruthy _
    | some (.string _) => exact htruthy _
    | some (.object _) => exact htruthy _
  | .partialCall name context, frame => by
    rw [recordNode, renderNode]
    refine .bind .configuration fun configuration => ?_
    cases configuration.findPartial? name with
    | some template => exact h template _
    | none => exact .fail _

theorem records_renderNodes
    (h : ∀ template frame, Records (recordPartial template frame) (renderPartial template frame)) :
    ∀ (nodes : List Node) (frame : Frame),
      Records (recordNodes recordPartial nodes frame) (renderNodes renderPartial nodes frame)
  | [], _ => .pure ()
  | node :: nodes, frame =>
    .bind (records_renderNode h node frame) fun _ => records_renderNodes h nodes frame

theorem records_renderInverse
    (h : ∀ template frame, Records (recordPartial template frame) (renderPartial template frame)) :
    ∀ (inverse : Option (List Node)) (frame : Frame),
      Records (recordInverse recordPartial inverse frame)
        (renderInverse renderPartial inverse frame)
  | none, _ => .pure ()
  | some nodes, frame => records_renderNodes h nodes frame

end

end

/-- A template that is rendered with a record is rendered as it is without one, and the record tells
what happened to the registries. -/
theorem records_render (depth : Nat) (template : Template) (frame : Frame) :
    Records (template.record depth frame) (template.render depth frame) := by
  induction depth generalizing template frame with
  | zero => exact .tooDeep
  | succ depth ih => exact records_renderNodes ih template frame

end BraceTemplate
