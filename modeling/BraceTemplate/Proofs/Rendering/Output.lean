import BraceTemplate.Proofs.Rendering.Congruence

/-!
# What a render writes

A helper that registers nothing leaves the registries as they are. `Appends` says of a part of a
render that it leaves them so and writes a text that does not depend on what has been written
before. Every template is such a part, by `appends_render`, if the helpers of its configuration
register nothing. `Alike` says of two parts that they do the same and leave the registries so.
-/

namespace BraceTemplate

/-! ## Helpers that register nothing -/

/-- A script registers nothing, however it goes on. -/
def Script.KeepsRegistries : {convention : Convention} → Script convention → Prop
  | _, .done => True
  | _, .fail _ => True
  | _, .write _ next => next.KeepsRegistries
  | _, .registerInline _ _ _ => False
  | _, .registerBlock _ _ _ => False
  | _, .registerPartial _ _ _ => False
  | _, .render _ _ next => next.KeepsRegistries
  | _, .capture _ _ next => ∀ text error, (next text error).KeepsRegistries

/-- The helpers of a configuration register nothing, whatever they are called with. -/
structure Configuration.KeepsRegistries (configuration : Configuration) : Prop where
  inline : ∀ name helper, configuration.findInline? name = some helper →
    ∀ frame arguments, (helper frame arguments).KeepsRegistries
  block : ∀ name helper, configuration.findBlock? name = some helper →
    ∀ frame arguments hasInverse, (helper frame arguments hasInverse).KeepsRegistries

theorem keepsRegistries_renderEach (scopes : List Scope) :
    (Script.renderEach scopes).KeepsRegistries := by
  induction scopes with
  | nil => trivial
  | cons scope scopes ih => exact ih

theorem keepsRegistries_loop (scopes : List Scope) : Script.KeepsRegistries
    (if scopes.isEmpty then BuiltIn.renderInverse else Script.renderEach scopes) := by
  split
  · trivial
  · exact keepsRegistries_renderEach scopes

theorem keepsRegistries_ofOne {name : String} {script : Value → Script .block}
    (h : ∀ argument, (script argument).KeepsRegistries) (frame : Frame) (arguments : List Value)
    (hasInverse : Bool) :
    (BuiltIn.ofOne name script frame arguments hasInverse).KeepsRegistries := by
  unfold BuiltIn.ofOne
  split
  · exact h _
  · trivial

/-- The built-in helpers register nothing. -/
theorem keepsRegistries_builtIn : Configuration.builtIn.KeepsRegistries := by
  constructor
  · intro name helper hfind frame arguments
    have hmem := Table.mem_of_mem_ofPairs (Table.mem_of_find? hfind)
    obtain ⟨rfl, rfl⟩ := Prod.mk.inj (List.mem_singleton.1 hmem)
    trivial
  · intro name helper hfind
    have hmem := Table.mem_of_mem_ofPairs (Table.mem_of_find? hfind)
    simp only [List.mem_cons, List.not_mem_nil, or_false, Prod.mk.injEq] at hmem
    rcases hmem with ⟨-, rfl⟩ | ⟨-, rfl⟩ | ⟨-, rfl⟩ | ⟨-, rfl⟩
    · refine keepsRegistries_ofOne fun argument => ?_
      split <;> trivial
    · refine keepsRegistries_ofOne fun argument => ?_
      split <;> trivial
    · refine keepsRegistries_ofOne fun argument => ?_
      split <;> trivial
    · exact keepsRegistries_ofOne fun argument => keepsRegistries_loop _

/-! ## Writing -/

theorem write_empty : Render.write "" = pure () := by
  funext ⟨sink, configuration⟩
  rw [Render.write_apply, Sink.write_empty]
  rfl

theorem write_append (first second : String) :
    Render.write (first ++ second) = Render.write first >>= fun _ => Render.write second := by
  funext ⟨sink, configuration⟩
  rw [Render.bind_apply, Render.write_apply, Render.write_apply, Sink.write_append]
  cases hfirst : (sink.write first).2 with
  | true => exact (Render.write_apply second _ _).symm
  | false =>
    rw [if_neg Bool.false_ne_true, if_neg Bool.false_ne_true, hfirst]
    rfl

/-! ## Parts of a render -/

section

variable {α β : Type} {configuration : Configuration}

/-- The end of a part that wrote a text after what was written before. -/
def endAfter (configuration : Configuration) (written : String) (output : Except Error α × String) :
    Except Error α × RenderState :=
  (output.1, ⟨.unlimited (written ++ output.2), configuration⟩)

theorem endAfter_empty (written : String) (result : Except Error α) :
    endAfter configuration written (result, "") =
      (result, ⟨.unlimited written, configuration⟩) := by
  rw [endAfter, String.append_empty]

theorem endAfter_append (written text later : String) (result : Except Error α) :
    endAfter configuration (written ++ text) (result, later) =
      endAfter configuration written (result, text ++ later) := by
  rw [endAfter, endAfter, String.append_assoc]

/-- A part of a render leaves the registries as they are, and it ends in the same way with the same
text whatever has been written before. -/
structure Appends (configuration : Configuration) (part : Render α) : Prop where
  keeps : ∀ sink result after, part ⟨sink, configuration⟩ = some (result, after) →
    after.configuration = configuration
  output : ∃ output, ∀ written, part ⟨.unlimited written, configuration⟩ =
    Option.map (endAfter configuration written) output

namespace Appends

/-- A part that ends at once. -/
theorem of_ended {part : Render α} (result : Except Error α)
    (hpart : ∀ sink, part ⟨sink, configuration⟩ = some (result, ⟨sink, configuration⟩)) :
    Appends configuration part := by
  refine ⟨?_, some (result, ""), ?_⟩
  · intro sink result after h
    rw [hpart] at h
    cases h
    rfl
  · intro written
    rw [hpart, Option.map_some, endAfter_empty]

theorem pure (a : α) : Appends configuration (pure a : Render α) :=
  of_ended (.ok a) fun _ => rfl

theorem fail (error : Error) : Appends configuration (Render.fail error : Render α) :=
  of_ended (.error error) fun _ => rfl

theorem tooDeep : Appends configuration (Render.tooDeep : Render α) := by
  refine ⟨?_, none, fun _ => rfl⟩
  intro sink result after h
  cases h

/-- An entry that is there already is registered without a change. -/
theorem register {entry : Registration} (h : configuration.register entry = configuration) :
    Appends configuration (Render.register entry) := by
  refine of_ended (.ok ()) fun sink => ?_
  rw [Render.register, h]

theorem registerPartial {name source : String}
    (h : ∀ template, Template.read configuration.isRegistered source = .ok template →
      configuration.register (.template name template) = configuration) :
    Appends configuration (Render.registerPartial name source) := by
  cases hread : Template.read configuration.isRegistered source with
  | error error =>
    refine of_ended (.error error) fun sink => ?_
    rw [Render.registerPartial_apply, hread]
  | ok template =>
    refine of_ended (.ok ()) fun sink => ?_
    rw [Render.registerPartial_apply, hread]
    dsimp only
    rw [h template hread]

theorem write (text : String) : Appends configuration (Render.write text) := by
  refine ⟨?_, some (.ok (), text), fun _ => rfl⟩
  intro sink result after h
  rw [Render.write_apply] at h
  cases h
  rfl

/-- What goes on after a part writes after it. -/
theorem bind {part : Render α} {next : α → Render β} (hpart : Appends configuration part)
    (hnext : ∀ a, Appends configuration (next a)) : Appends configuration (part >>= next) := by
  constructor
  · intro sink result after h
    rw [Render.bind_apply] at h
    cases hfirst : part ⟨sink, configuration⟩ with
    | none =>
      rw [hfirst] at h
      cases h
    | some ended =>
      obtain ⟨first, between, kept⟩ := ended
      obtain rfl : kept = configuration := hpart.keeps _ _ _ hfirst
      rw [hfirst] at h
      cases first with
      | ok a => exact (hnext a).keeps _ _ _ h
      | error error =>
        cases h
        rfl
  · -- What is written in all is known once it is known how the first part ends.
    obtain ⟨first, hfirst⟩ := hpart.output
    rcases first with - | ⟨error | a, text⟩
    · refine ⟨none, fun written => ?_⟩
      rw [Render.bind_apply, hfirst]
      rfl
    · refine ⟨some (.error error, text), fun written => ?_⟩
      rw [Render.bind_apply, hfirst]
      rfl
    · obtain ⟨second, hsecond⟩ := (hnext a).output
      refine ⟨second.map fun output => (output.1, text ++ output.2), fun written => ?_⟩
      rw [Render.bind_apply, hfirst, Option.map_some]
      show next a ⟨.unlimited (written ++ text), configuration⟩ = _
      rw [hsecond, Option.map_map]
      apply congrArg (fun f => Option.map f second)
      funext output
      exact endAfter_append written text output.2 output.1

/-- The registries that a part asks for are those that it leaves as they are. -/
theorem configuration_bind {next : Configuration → Render β}
    (hnext : Appends configuration (next configuration)) :
    Appends configuration (Render.configuration >>= next) :=
  ⟨fun sink => hnext.keeps sink, hnext.output⟩

/-- A part that is captured writes nothing. -/
theorem capture {inner : Render Unit} (hinner : Appends configuration inner) :
    Appends configuration (Render.capture inner) := by
  -- The inner part starts from an empty sink wherever it stands, and the outer sink is put back.
  obtain ⟨output, houtput⟩ := hinner.output
  rcases output with - | ⟨result, text⟩
  · have hnone : ∀ sink, Render.capture inner ⟨sink, configuration⟩ = none := by
      intro sink
      unfold Render.capture
      rw [houtput]
      rfl
    refine ⟨?_, none, fun written => hnone _⟩
    intro sink result after h
    rw [hnone] at h
    cases h
  · have hsome : ∀ sink, Render.capture inner ⟨sink, configuration⟩ =
        some (.ok ("" ++ text, Render.errorOf result), ⟨sink, configuration⟩) := by
      intro sink
      unfold Render.capture
      rw [houtput]
      rfl
    refine ⟨?_, some (.ok ("" ++ text, Render.errorOf result), ""), ?_⟩
    · intro sink result after h
      rw [hsome] at h
      cases h
      rfl
    · intro written
      rw [hsome, Option.map_some, endAfter_empty]

end Appends

end

/-! ## Parts of a render that are alike -/

/-- Two parts of a render end in the same way with the same state, which has the registries that it
started with. -/
structure Alike {α : Type} (configuration : Configuration) (first second : Render α) : Prop where
  same : ∀ sink, first ⟨sink, configuration⟩ = second ⟨sink, configuration⟩
  keeps : ∀ sink result after, second ⟨sink, configuration⟩ = some (result, after) →
    after.configuration = configuration

section

variable {α β : Type} {configuration : Configuration}

theorem Appends.alike {part : Render α} (h : Appends configuration part) :
    Alike configuration part part :=
  ⟨fun _ => rfl, h.keeps⟩

namespace Alike

theorem trans {first second third : Render α} (h : Alike configuration first second)
    (hnext : Alike configuration second third) : Alike configuration first third :=
  ⟨fun sink => (h.same sink).trans (hnext.same sink), hnext.keeps⟩

/-- Two sequences are alike when their parts are. -/
theorem bind {first second : Render α} {next later : α → Render β}
    (h : Alike configuration first second) (hnext : ∀ a, Alike configuration (next a) (later a)) :
    Alike configuration (first >>= next) (second >>= later) := by
  constructor
  · intro sink
    rw [Render.bind_apply, Render.bind_apply, h.same]
    cases hsecond : second ⟨sink, configuration⟩ with
    | none => rfl
    | some ended =>
      obtain ⟨result, between, kept⟩ := ended
      -- The second parts go on with the configuration that the first ones have kept.
      obtain rfl : kept = configuration := h.keeps _ _ _ hsecond
      cases result with
      | error error => rfl
      | ok a => exact (hnext a).same between
  · intro sink result after hafter
    rw [Render.bind_apply] at hafter
    cases hsecond : second ⟨sink, configuration⟩ with
    | none =>
      rw [hsecond] at hafter
      cases hafter
    | some ended =>
      obtain ⟨result, between, kept⟩ := ended
      obtain rfl : kept = configuration := h.keeps _ _ _ hsecond
      rw [hsecond] at hafter
      cases result with
      | error error =>
        cases hafter
        rfl
      | ok a => exact (hnext a).keeps _ _ _ hafter

theorem configuration_bind {next later : Configuration → Render β}
    (hnext : Alike configuration (next configuration) (later configuration)) :
    Alike configuration (Render.configuration >>= next) (Render.configuration >>= later) :=
  ⟨hnext.same, hnext.keeps⟩

/-- Captured, two parts that are alike give the same text and the same ending. -/
theorem capture {inner other : Render Unit} (h : Alike configuration inner other) :
    Alike configuration (Render.capture inner) (Render.capture other) := by
  constructor
  · intro sink
    unfold Render.capture
    rw [h.same]
  · intro sink result after hafter
    unfold Render.capture at hafter
    split at hafter
    · cases hafter
    · next hinner =>
      have hkept := h.keeps _ _ _ hinner
      cases hafter
      exact hkept

end Alike

end

/-! ## Templates -/

/-- A script that registers nothing keeps to any registries. -/
theorem Script.KeepsRegistries.obeys (registries : Configuration → Prop) {fails : Error → Prop}
    (hfails : ∀ error, fails error) {convention : Convention} {script : Script convention}
    (h : script.KeepsRegistries) : script.Obeys registries fails := by
  induction script with
  | done => trivial
  | fail error => exact hfails error
  | write text next ih => exact ih h
  | registerInline => exact h.elim
  | registerBlock => exact h.elim
  | registerPartial => exact h.elim
  | render part scope next ih => exact ih h
  | capture part scope next ih => exact fun text error _ => ih text error (h text error)

variable {configuration : Configuration}

namespace Configuration.KeepsRegistries

/-- Where the helpers register nothing, a node is served by every congruence on that configuration
that serves references to partials. -/
theorem serves (hkeeps : configuration.KeepsRegistries) {congruence : Congruence}
    (hregistries : ∀ other, congruence.registries other → other = configuration)
    (hfails : ∀ error, congruence.fails error)
    {renderPartial renderOther : Template → Frame → Render Unit}
    {nodesOf : String → Option (List Node)} {node : Node}
    (hpartial : ∀ name context, node = .partialCall name context →
      congruence.Serves renderPartial renderOther nodesOf node) :
    congruence.Serves renderPartial renderOther nodesOf node := by
  -- Texts, outputs and the blocks of paths call nothing that could register anything.
  cases node with
  | text content => trivial
  | output path => trivial
  | inlineCall name arguments =>
    intro other hother
    obtain rfl := hregistries other hother
    refine ⟨?_, fun _ => hfails _⟩
    intro helper hfind frame values _
    exact (hkeeps.inline name helper hfind frame values).obeys _ hfails
  | blockCall name arguments body inverse =>
    intro other hother
    obtain rfl := hregistries other hother
    refine ⟨?_, fun _ => hfails _⟩
    intro helper hfind frame values hasInverse _
    exact (hkeeps.block name helper hfind frame values hasInverse).obeys _ hfails
  | pathBlock path body inverse => trivial
  | partialCall name context => exact hpartial name context rfl

/-- Where the helpers register nothing, the renders of a template are related if those of the
partials that it refers to are. -/
theorem rel_renderNodes (hkeeps : configuration.KeepsRegistries) {congruence : Congruence}
    (hregistries : ∀ other, congruence.registries other → other = configuration)
    (hfails : ∀ error, congruence.fails error)
    {renderPartial renderOther : Template → Frame → Render Unit} {template : Template}
    (hpartial : ∀ name context used, .partialCall name context ∈ allNodes template →
      configuration.findPartial? name = some used →
      ∀ frame, congruence.Rel (renderPartial used frame) (renderOther used frame)) (frame : Frame) :
    congruence.Rel (renderNodes renderPartial template frame)
      (renderNodes renderOther template frame) := by
  -- Nothing is replaced here: each partial is related to itself.
  have hserves : ∀ node ∈ allNodes template,
      congruence.Serves renderPartial renderOther (fun _ => none) node := by
    intro node hmem
    refine hkeeps.serves hregistries hfails ?_
    rintro name context rfl frame
    rw [replaced_none]
    refine Congruence.rel_partialCall (fun other hother => ⟨?_, fun _ => hfails _⟩) context frame
    intro used hfind
    obtain rfl := hregistries other hother
    exact hpartial name context used hmem hfind
  have hrel := Congruence.rel_renderNodes template hserves frame
  rwa [replaceAll_none] at hrel

end Configuration.KeepsRegistries

/-- Parts that write after what has been written are put together to such parts. -/
def Appends.congruence (configuration : Configuration) : Congruence where
  registries := (· = configuration)
  fails _ := True
  Rel _ part := Appends configuration part
  rel_pure := Appends.pure
  rel_fail _ := Appends.fail _
  rel_write := Appends.write
  rel_bind := Appends.bind
  rel_configuration_bind hnext := Appends.configuration_bind (hnext configuration rfl)
  rel_register h := Appends.register (h configuration rfl)
  rel_registerPartial h := Appends.registerPartial (h configuration rfl).1
  rel_capture_bind hinner hnext :=
    .bind (.capture hinner) fun captured => hnext captured.1 captured.2 fun _ _ => trivial

/-- Parts that are alike are put together to parts that are alike. -/
def Alike.congruence (configuration : Configuration) : Congruence where
  registries := (· = configuration)
  fails _ := True
  Rel first second := Alike configuration first second
  rel_pure a := (Appends.pure a).alike
  rel_fail _ := (Appends.fail _).alike
  rel_write text := (Appends.write text).alike
  rel_bind := Alike.bind
  rel_configuration_bind hnext := Alike.configuration_bind (hnext configuration rfl)
  rel_register h := (Appends.register (h configuration rfl)).alike
  rel_registerPartial h := (Appends.registerPartial (h configuration rfl).1).alike
  rel_capture_bind hinner hnext :=
    .bind (.capture hinner) fun captured => hnext captured.1 captured.2 fun _ _ => trivial

/-- A template leaves the registries as they are and writes after what has been written, if the
helpers register nothing. -/
theorem appends_render (hkeeps : configuration.KeepsRegistries) (depth : Nat) (template : Template)
    (frame : Frame) : Appends configuration (template.render depth frame) := by
  induction depth generalizing template frame with
  | zero => exact .tooDeep
  | succ depth ih =>
    have happends : (Appends.congruence configuration).Rel
        (renderNodes (Template.render depth) template frame)
        (renderNodes (Template.render depth) template frame) :=
      hkeeps.rel_renderNodes (fun _ h => h) (fun _ => trivial) (fun _ _ used _ _ => ih used) frame
    exact happends

end BraceTemplate
