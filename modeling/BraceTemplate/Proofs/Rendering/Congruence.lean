import BraceTemplate.Proofs.Nodes
import BraceTemplate.Render

/-!
# What is kept by putting the parts of a render together

Renders are put together from few kinds of parts in few ways. A `Congruence` is a relation between
parts that all of these ways keep, and by `rel_renderNodes` it then relates the renders of two
templates, of which the second one has other nodes in the place of references to partials. What is
true of all renders is said by a relation that looks at its second part only.
-/

namespace BraceTemplate

/-! ## Scripts -/

/-- A script registers only what the given registries allow, and ends on its own with the given
errors only, however it goes on. A partial that cannot be read is an error of its own. What it does
with the error of a body that it has captured counts only if that is one of the given errors. -/
def Script.Obeys (registries : Configuration → Prop) (fails : Error → Prop) :
    {convention : Convention} → Script convention → Prop
  | _, .done => True
  | _, .fail error => fails error
  | _, .write _ next => next.Obeys registries fails
  | _, .registerInline name helper next =>
    (∀ configuration, registries configuration →
      registries (configuration.register (.inline name helper))) ∧ next.Obeys registries fails
  | _, .registerBlock name helper next =>
    (∀ configuration, registries configuration →
      registries (configuration.register (.block name helper))) ∧ next.Obeys registries fails
  | _, .registerPartial name source next =>
    (∀ configuration, registries configuration →
      (∀ template, Template.read configuration.isRegistered source = .ok template →
        registries (configuration.register (.template name template))) ∧
      ∀ error, Template.read configuration.isRegistered source = .error error → fails error) ∧
    next.Obeys registries fails
  | _, .render _ _ next => next.Obeys registries fails
  | _, .capture _ _ next => ∀ text error, (∀ fault ∈ error, fails fault) →
      (next text error).Obeys registries fails

/-- Reads a template with the helpers that are registered, and registers it as a partial. -/
def Render.registerPartial (name source : String) : Render Unit := do
  let configuration ← Render.configuration
  let template ← Render.ofExcept (Template.read configuration.isRegistered source)
  Render.register (.template name template)

theorem Render.registerPartial_apply (name source : String) (state : RenderState) :
    Render.registerPartial name source state =
      match Template.read state.configuration.isRegistered source with
      | .ok template => some (.ok (), { state with
          configuration := state.configuration.register (.template name template) })
      | .error error => some (.error error, state) := by
  show (Render.ofExcept (Template.read state.configuration.isRegistered source) >>=
    fun template => Render.register (.template name template)) state = _
  rw [Render.bind_apply, Render.ofExcept]
  cases Template.read state.configuration.isRegistered source <;> rfl

theorem Script.run_registerPartial (frame : Frame) (renderPart : BodyPart → Frame → Render Unit)
    {convention : Convention} (name source : String) (next : Script convention) :
    (Script.registerPartial name source next).run frame renderPart =
      Render.registerPartial name source >>= fun _ => next.run frame renderPart := by
  rw [Script.run, Render.registerPartial, bind_assoc]
  simp only [bind_assoc]

/-! ## Templates with other nodes for partials -/

mutual

/-- The nodes that stand for a node, given those that stand for partials. A reference with a context
is left as it is. -/
def Node.replaced (nodesOf : String → Option (List Node)) : Node → List Node
  | .text content => [.text content]
  | .output path => [.output path]
  | .inlineCall name arguments => [.inlineCall name arguments]
  | .blockCall name arguments body inverse =>
    [.blockCall name arguments (replaceAll nodesOf body) (replaceInverse nodesOf inverse)]
  | .pathBlock path body inverse =>
    [.pathBlock path (replaceAll nodesOf body) (replaceInverse nodesOf inverse)]
  | .partialCall name none => (nodesOf name).getD [.partialCall name none]
  | .partialCall name (some context) => [.partialCall name (some context)]

/-- A list of nodes with other nodes in the place of references to partials. -/
def replaceAll (nodesOf : String → Option (List Node)) : List Node → List Node
  | [] => []
  | node :: nodes => node.replaced nodesOf ++ replaceAll nodesOf nodes

/-- An inverse body with other nodes in the place of references to partials. -/
def replaceInverse (nodesOf : String → Option (List Node)) : Option (List Node) → Option (List Node)
  | none => none
  | some nodes => some (replaceAll nodesOf nodes)

end

theorem isSome_replaceInverse (nodesOf : String → Option (List Node))
    (inverse : Option (List Node)) : (replaceInverse nodesOf inverse).isSome = inverse.isSome := by
  cases inverse <;> rfl

mutual

theorem replaced_none : ∀ node : Node, node.replaced (fun _ => none) = [node]
  | .text _ => rfl
  | .output _ => rfl
  | .inlineCall _ _ => rfl
  | .blockCall name arguments body inverse => by
    rw [Node.replaced, replaceAll_none body, replaceInverse_none inverse]
  | .pathBlock path body inverse => by
    rw [Node.replaced, replaceAll_none body, replaceInverse_none inverse]
  | .partialCall _ none => rfl
  | .partialCall _ (some _) => rfl

/-- Where no nodes stand for partials, a template is left as it is. -/
theorem replaceAll_none : ∀ nodes : List Node, replaceAll (fun _ => none) nodes = nodes
  | [] => rfl
  | node :: nodes => by
    rw [replaceAll, replaced_none node, replaceAll_none nodes, List.singleton_append]

theorem replaceInverse_none :
    ∀ inverse : Option (List Node), replaceInverse (fun _ => none) inverse = inverse
  | none => rfl
  | some nodes => congrArg some (replaceAll_none nodes)

end

/-! ## Congruences -/

/-- A relation between parts of renders that is kept by putting parts together, where the registries
are some of the given ones and parts that fail on their own do so with one of the given errors. -/
structure Congruence where
  registries : Configuration → Prop
  fails : Error → Prop
  Rel : {α : Type} → Render α → Render α → Prop
  rel_pure : ∀ {α : Type} (a : α), Rel (pure a) (pure a)
  rel_fail : ∀ {error : Error}, fails error →
    Rel (Render.fail error : Render Unit) (Render.fail error)
  rel_write : ∀ text, Rel (Render.write text) (Render.write text)
  rel_bind : ∀ {α β : Type} {first second : Render α} {next later : α → Render β},
    Rel first second → (∀ a, Rel (next a) (later a)) → Rel (first >>= next) (second >>= later)
  rel_configuration_bind : ∀ {next later : Configuration → Render Unit},
    (∀ configuration, registries configuration → Rel (next configuration) (later configuration)) →
    Rel (Render.configuration >>= next) (Render.configuration >>= later)
  rel_register : ∀ {entry : Registration},
    (∀ configuration, registries configuration → registries (configuration.register entry)) →
    Rel (Render.register entry) (Render.register entry)
  rel_registerPartial : ∀ {name source : String},
    (∀ configuration, registries configuration →
      (∀ template, Template.read configuration.isRegistered source = .ok template →
        registries (configuration.register (.template name template))) ∧
      ∀ error, Template.read configuration.isRegistered source = .error error → fails error) →
    Rel (Render.registerPartial name source) (Render.registerPartial name source)
  rel_capture_bind : ∀ {inner other : Render Unit} {next later : String × Option Error → Render Unit},
    Rel inner other →
    (∀ text error, (∀ fault ∈ error, fails fault) → Rel (next (text, error)) (later (text, error))) →
    Rel (Render.capture inner >>= next) (Render.capture other >>= later)

namespace Congruence

variable {congruence : Congruence}

/-- A script keeps a relation between the bodies that it renders. -/
theorem rel_script {convention : Convention} {script : Script convention}
    (hscript : script.Obeys congruence.registries congruence.fails) (frame : Frame)
    {renderPart renderOther : BodyPart → Frame → Render Unit}
    (hpart : ∀ part frame, congruence.Rel (renderPart part frame) (renderOther part frame)) :
    congruence.Rel (script.run frame renderPart) (script.run frame renderOther) := by
  induction script with
  | done => exact congruence.rel_pure ()
  | fail error => exact congruence.rel_fail hscript
  | write text next ih =>
    exact congruence.rel_bind (congruence.rel_write text) fun _ => ih hscript
  | registerInline name helper next _ ih =>
    exact congruence.rel_bind (congruence.rel_register hscript.1) fun _ => ih hscript.2
  | registerBlock name helper next _ ih =>
    exact congruence.rel_bind (congruence.rel_register hscript.1) fun _ => ih hscript.2
  -- A source that cannot be read fails the script, so that reading and registering are one step.
  | registerPartial name source next ih =>
    rw [Script.run_registerPartial, Script.run_registerPartial]
    exact congruence.rel_bind (congruence.rel_registerPartial hscript.1) fun _ => ih hscript.2
  | render part scope next ih => exact congruence.rel_bind (hpart _ _) fun _ => ih hscript
  | capture part scope next ih =>
    exact congruence.rel_capture_bind (hpart _ _) fun text error herror =>
      ih text error (hscript text error herror)

theorem rel_renderItems {render renderOther : Frame → Render Unit}
    (hrender : ∀ frame, congruence.Rel (render frame) (renderOther frame)) (frame : Frame)
    (length index : Nat) (items : List Value) :
    congruence.Rel (renderItems render frame length index items)
      (renderItems renderOther frame length index items) := by
  induction items generalizing index with
  | nil => exact congruence.rel_pure ()
  | cons item items ih => exact congruence.rel_bind (hrender _) fun _ => ih (index + 1)

variable (congruence) (renderPartial renderOther : Template → Frame → Render Unit)
  (nodesOf : String → Option (List Node))

/-- The calls of a node are served, given how to render a partial on both sides: its helper is found
and obeys, or it is missing with an error that is allowed, and a reference to a partial is related
to what stands for it. -/
def Serves : Node → Prop
  | .text _ => True
  | .output _ => True
  | .inlineCall name arguments => ∀ configuration, congruence.registries configuration →
    (∀ helper, configuration.findInline? name = some helper →
      ∀ frame values, values.length = arguments.length →
        (helper frame values).Obeys congruence.registries congruence.fails) ∧
    (configuration.findInline? name = none → congruence.fails (configuration.noInline name))
  | .blockCall name arguments _ _ => ∀ configuration, congruence.registries configuration →
    (∀ helper, configuration.findBlock? name = some helper →
      ∀ frame values hasInverse, values.length = arguments.length →
        (helper frame values hasInverse).Obeys congruence.registries congruence.fails) ∧
    (configuration.findBlock? name = none → congruence.fails (configuration.noBlock name))
  | .pathBlock _ _ _ => True
  | .partialCall name context => ∀ frame,
    congruence.Rel (renderNode renderPartial (.partialCall name context) frame)
      (renderNodes renderOther (Node.replaced nodesOf (.partialCall name context)) frame)

variable {congruence renderPartial renderOther nodesOf}

/-- A reference that is left as it is, to a partial that both sides render alike. -/
theorem rel_partialCall {name : String}
    (h : ∀ configuration, congruence.registries configuration →
      (∀ template, configuration.findPartial? name = some template →
        ∀ frame, congruence.Rel (renderPartial template frame) (renderOther template frame)) ∧
      (configuration.findPartial? name = none → congruence.fails (.missingPartial name)))
    (context : Option Path) (frame : Frame) :
    congruence.Rel (renderNode renderPartial (.partialCall name context) frame)
      (renderNodes renderOther [.partialCall name context] frame) := by
  rw [renderNodes_singleton]
  refine congruence.rel_configuration_bind fun configuration hconfiguration => ?_
  obtain ⟨hfound, hmissing⟩ := h configuration hconfiguration
  split
  · next template hfind => exact hfound template hfind _
  · next hfind => exact congruence.rel_fail (hmissing hfind)

mutual

/-- A node relates to the nodes that replace it, given that what it calls serves the congruence. -/
theorem rel_renderNode : ∀ (node : Node),
    (∀ inner ∈ node.nodes, congruence.Serves renderPartial renderOther nodesOf inner) →
      ∀ frame, congruence.Rel (renderNode renderPartial node frame)
        (renderNodes renderOther (node.replaced nodesOf) frame)
  | .text content, _, frame => by
    rw [Node.replaced, renderNodes_singleton]
    exact congruence.rel_write content
  | .output path, _, frame => by
    rw [Node.replaced, renderNodes_singleton, renderNode, renderNode]
    split
    · exact congruence.rel_write _
    · exact congruence.rel_pure ()
  | .inlineCall name arguments, hnodes, frame => by
    have hserves : congruence.Serves renderPartial renderOther nodesOf
      (.inlineCall name arguments) := hnodes _ List.mem_cons_self
    rw [Node.replaced, renderNodes_singleton]
    refine congruence.rel_configuration_bind fun configuration hconfiguration => ?_
    obtain ⟨hfound, hmissing⟩ := hserves configuration hconfiguration
    split
    · next helper hfind =>
      exact rel_script (hfound helper hfind frame _ (List.length_map _)) frame
        fun _ _ => congruence.rel_pure ()
    · next hfind => exact congruence.rel_fail (hmissing hfind)
  -- The helper sees no difference; the bodies it renders are related by recursion.
  | .blockCall name arguments body inverse, hnodes, frame => by
    have hserves : congruence.Serves renderPartial renderOther nodesOf
      (.blockCall name arguments body inverse) := hnodes _ List.mem_cons_self
    rw [Node.nodes, List.forall_mem_cons, List.forall_mem_append] at hnodes
    obtain ⟨-, hbody, hinverse⟩ := hnodes
    rw [Node.replaced, renderNodes_singleton, renderNode, renderNode, isSome_replaceInverse]
    refine congruence.rel_configuration_bind fun configuration hconfiguration => ?_
    obtain ⟨hfound, hmissing⟩ := hserves configuration hconfiguration
    split
    · next helper hfind =>
      refine rel_script (hfound helper hfind frame _ _ (List.length_map _)) frame
        fun part frame => ?_
      cases part with
      | body => exact rel_renderNodes body hbody frame
      | inverse => exact rel_renderInverse inverse hinverse frame
    · next hfind => exact congruence.rel_fail (hmissing hfind)
  | .pathBlock path body inverse, hnodes, frame => by
    rw [Node.nodes, List.forall_mem_cons, List.forall_mem_append] at hnodes
    obtain ⟨-, hbody, hinverse⟩ := hnodes
    have hinner := rel_renderNodes body hbody
    have hother := rel_renderInverse inverse hinverse frame
    rw [Node.replaced, renderNodes_singleton, renderNode, renderNode]
    split
    · exact rel_renderItems hinner frame _ _ _
    · split
      · exact hinner _
      · exact hother
    · exact hother
  | .partialCall name context, hnodes, frame => hnodes _ List.mem_cons_self frame

/-- A template is related to what it is with other nodes in the place of references to partials. -/
theorem rel_renderNodes : ∀ (nodes : List Node),
    (∀ inner ∈ allNodes nodes, congruence.Serves renderPartial renderOther nodesOf inner) →
      ∀ frame, congruence.Rel (renderNodes renderPartial nodes frame)
        (renderNodes renderOther (replaceAll nodesOf nodes) frame)
  | [], _, _ => congruence.rel_pure ()
  | node :: nodes, hnodes, frame => by
    rw [allNodes, List.forall_mem_append] at hnodes
    rw [replaceAll, renderNodes_append]
    exact congruence.rel_bind (rel_renderNode node hnodes.1 frame) fun _ =>
      rel_renderNodes nodes hnodes.2 frame

theorem rel_renderInverse : ∀ (inverse : Option (List Node)),
    (∀ inner ∈ inverseNodes inverse, congruence.Serves renderPartial renderOther nodesOf inner) →
      ∀ frame, congruence.Rel (renderInverse renderPartial inverse frame)
        (renderInverse renderOther (replaceInverse nodesOf inverse) frame)
  | none, _, _ => congruence.rel_pure ()
  | some nodes, hnodes, frame => rel_renderNodes nodes hnodes frame

end

end Congruence

end BraceTemplate
