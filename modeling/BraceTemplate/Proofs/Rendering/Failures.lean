import BraceTemplate.Proofs.Joining.Templates
import BraceTemplate.Proofs.Rendering.BuiltIns
import BraceTemplate.Proofs.Rendering.Contract
import BraceTemplate.Proofs.Rendering.References

/-!
# How renders fail

What is wrong with the text of a template is found when it is compiled. `meets_render_errors` says
which errors are left for a render, and `meets_render_supplied` when there are none: if everything
that a template calls is there, its partials do not lead back to themselves, and no helper fails or
replaces what the template calls.
-/

namespace BraceTemplate

/-! ## Errors of renders -/

/-- Errors that do not come from reading a template. -/
def Error.IsRenderError : Error → Prop
  | .lex _ _ => False
  | .blockMismatch _ => False
  | .malformedTag _ => False
  | .unreadable _ => False
  | .missingHelper _ => True
  | .missingPartial _ => True
  | .helper _ _ => True
  | .write => True

namespace Configuration

theorem isRenderError_noInline (configuration : Configuration) (name : String) :
    (configuration.noInline name).IsRenderError := by
  rw [noInline]
  split
  · trivial
  · trivial

theorem isRenderError_noBlock (configuration : Configuration) (name : String) :
    (configuration.noBlock name).IsRenderError := by
  rw [noBlock]
  split
  · trivial
  · trivial

/-- The helpers that are registered, in any of the given registries, register nothing that leads out
of these registries, and end on their own with the given errors only. -/
structure HelpersObey (registries : Configuration → Prop) (fails : Error → Prop) : Prop where
  inline : ∀ configuration name helper, registries configuration →
    configuration.findInline? name = some helper →
    ∀ frame values, (helper frame values).Obeys registries fails
  block : ∀ configuration name helper, registries configuration →
    configuration.findBlock? name = some helper →
    ∀ frame values hasInverse, (helper frame values hasInverse).Obeys registries fails

/-- The helpers of a configuration, and those that are registered by helpers, end on their own with
the given errors only. -/
def HelpersFailWith (configuration : Configuration) (fails : Error → Prop) : Prop :=
  ∃ registries, registries configuration ∧ HelpersObey registries fails

end Configuration

theorem obeys_renderEach (registries : Configuration → Prop) (fails : Error → Prop)
    (scopes : List Scope) : (Script.renderEach scopes).Obeys registries fails := by
  induction scopes with
  | nil => trivial
  | cons scope scopes ih => exact ih

/-- A built-in block fails on its own for the number of its arguments only. -/
theorem obeys_of_isBlock {helper : BlockHelper} (h : BuiltIn.IsBlock helper)
    (registries : Configuration → Prop) {fails : Error → Prop} (frame : Frame) {values : List Value}
    (hvalues : values.length ≠ 1 →
      ∀ name, fails (.helper name (.argumentCount values.length))) (hasInverse : Bool) :
    (helper frame values hasInverse).Obeys registries fails := by
  obtain ⟨name, hfind⟩ := h
  have hscript := (BuiltIn.blockScript_of_find? hfind frame frame values hasInverse).2
  generalize helper frame values hasInverse = script at hscript ⊢
  cases hscript with
  | count hlength name => exact hvalues hlength name
  | inverse => trivial
  | body => exact obeys_renderEach _ _ _

namespace Contract

/-- The contract of a render that ends with errors of renders only. -/
def renderErrors (registries : Configuration → Prop) : Contract where
  registries := registries
  sinks := fun _ => True
  fails := Error.IsRenderError
  endless := True
  sinks_unlimited := trivial
  sinks_write := fun _ _ _ => trivial
  fails_write := fun _ _ _ _ => trivial

/-- A template ends with errors of renders only if all helpers do so. -/
theorem meets_render_errors {registries : Configuration → Prop}
    (h : Configuration.HelpersObey registries Error.IsRenderError) (depth : Nat)
    (template : Template) (frame : Frame) :
    (renderErrors registries).Meets (template.render depth frame) := by
  induction depth generalizing template frame with
  | zero => exact meets_tooDeep trivial
  | succ depth ih =>
    refine meets_renderNodes template (fun node _ => ?_) frame
    cases node with
    | text content => trivial
    | output path => trivial
    | inlineCall name arguments =>
      intro configuration hconfiguration
      refine ⟨?_, fun _ => configuration.isRenderError_noInline name⟩
      intro helper hfind frame values _
      exact h.inline configuration name helper hconfiguration hfind frame values
    | blockCall name arguments body inverse =>
      intro configuration hconfiguration
      refine ⟨?_, fun _ => configuration.isRenderError_noBlock name⟩
      intro helper hfind frame values hasInverse _
      exact h.block configuration name helper hconfiguration hfind frame values hasInverse
    | pathBlock path body inverse => trivial
    | partialCall name context =>
      intro configuration hconfiguration
      exact ⟨fun template _ frame => ih template frame, fun _ => trivial⟩

end Contract

/-! ## Templates that are supplied -/

namespace Configuration

/-- Everything that a template calls is there: its helpers and partials are registered, built-in
blocks have one argument, and no partial leads back to itself. -/
structure Supplies (configuration : Configuration) (template : Template) : Prop where
  inline : ∀ name arguments, configuration.Uses template (.inlineCall name arguments) →
    ∃ helper, configuration.findInline? name = some helper
  block : ∀ name arguments body inverse,
    configuration.Uses template (.blockCall name arguments body inverse) →
    ∃ helper, configuration.findBlock? name = some helper ∧
      (BuiltIn.IsBlock helper → arguments.length = 1)
  partials : ∀ name context, configuration.Uses template (.partialCall name context) →
    ∃ used, configuration.findPartial? name = some used
  acyclic : ∀ name context, configuration.Uses template (.partialCall name context) →
    ¬ Relation.TransGen configuration.Refers name name

/-- Another configuration has the same entries under all names that a template calls. -/
structure SuppliesAlike (configuration : Configuration) (template : Template)
    (other : Configuration) : Prop where
  inline : ∀ name arguments, configuration.Uses template (.inlineCall name arguments) →
    other.findInline? name = configuration.findInline? name
  block : ∀ name arguments body inverse,
    configuration.Uses template (.blockCall name arguments body inverse) →
    other.findBlock? name = configuration.findBlock? name
  partials : ∀ name context, configuration.Uses template (.partialCall name context) →
    other.findPartial? name = configuration.findPartial? name

/-- No helper that a template calls fails on its own, apart from built-in ones, or leads out of the
given registries. -/
structure HelpersSucceed (configuration : Configuration) (template : Template)
    (registries : Configuration → Prop) : Prop where
  inline : ∀ name arguments helper, configuration.Uses template (.inlineCall name arguments) →
    configuration.findInline? name = some helper →
    ∀ frame values, (helper frame values).Obeys registries fun _ => False
  block : ∀ name arguments body inverse helper,
    configuration.Uses template (.blockCall name arguments body inverse) →
    configuration.findBlock? name = some helper → ¬ BuiltIn.IsBlock helper →
    ∀ frame values hasInverse, (helper frame values hasInverse).Obeys registries fun _ => False

/-- No helper that a template calls fails on its own, apart from built-in ones, or registers
anything in place of what the template calls. -/
def HelpersSpare (configuration : Configuration) (template : Template) : Prop :=
  ∃ registries, registries configuration ∧
    (∀ other, registries other → configuration.SuppliesAlike template other) ∧
    configuration.HelpersSucceed template registries

end Configuration

namespace Contract

/-- The contract of a render that ends well, where the sink has room for everything. -/
def succeeds (registries : Configuration → Prop) : Contract where
  registries := registries
  sinks := fun sink => sink.room = none
  fails := fun _ => False
  endless := False
  sinks_unlimited := rfl
  sinks_write := by
    rintro ⟨written, room⟩ text rfl
    rfl
  fails_write := by
    rintro ⟨written, room⟩ text rfl hkept
    cases hkept

section

variable {configuration : Configuration} {template : Template} {registries : Configuration → Prop}

/-- A template that is supplied ends well. -/
theorem meets_render_supplied (hsupplies : configuration.Supplies template)
    (halike : ∀ other, registries other → configuration.SuppliesAlike template other)
    (hhelpers : configuration.HelpersSucceed template registries) {depth : Nat} {used : Template}
    (hfits : configuration.Fits depth used)
    (huses : ∀ node ∈ allNodes used, configuration.Uses template node) (frame : Frame) :
    (succeeds registries).Meets (used.render depth frame) := by
  induction depth generalizing used frame with
  | zero => exact hfits.elim
  | succ depth ih =>
    refine meets_renderNodes used (fun node hnode => ?_) frame
    have hused := huses node hnode
    cases node with
    | text content => trivial
    | output path => trivial
    | inlineCall name arguments =>
      intro other hother
      rw [(halike other hother).inline name arguments hused]
      obtain ⟨helper, hfind⟩ := hsupplies.inline name arguments hused
      rw [hfind]
      refine ⟨?_, fun hnone => by cases hnone⟩
      rintro _ ⟨⟩ frame values -
      exact hhelpers.inline name arguments helper hused hfind frame values
    | blockCall name arguments body inverse =>
      intro other hother
      rw [(halike other hother).block name arguments body inverse hused]
      obtain ⟨helper, hfind, hcount⟩ := hsupplies.block name arguments body inverse hused
      rw [hfind]
      refine ⟨?_, fun hnone => by cases hnone⟩
      rintro _ ⟨⟩ frame values hasInverse hlength
      -- A built-in block fails on a wrong number of arguments, which is excluded; of any other
      -- helper it is a condition that it succeeds.
      by_cases hbuiltIn : BuiltIn.IsBlock helper
      · exact obeys_of_isBlock hbuiltIn _ frame
          (fun hmany => absurd (hlength.trans (hcount hbuiltIn)) hmany) hasInverse
      · exact hhelpers.block name arguments body inverse helper hused hfind hbuiltIn frame values
          hasInverse
    | pathBlock path body inverse => trivial
    | partialCall name context =>
      intro other hother
      rw [(halike other hother).partials name context hused]
      obtain ⟨inner, hfind⟩ := hsupplies.partials name context hused
      rw [hfind]
      refine ⟨?_, fun hnone => by cases hnone⟩
      rintro _ ⟨⟩ frame
      exact ih (hfits name context inner hnode hfind)
        (fun node hmem => .through hused hfind hmem) frame

end

end Contract

/-- The built-in helpers fail for the number of their arguments only. -/
theorem Configuration.helpersFailWith_builtIn :
    Configuration.builtIn.HelpersFailWith Error.IsRenderError := by
  refine ⟨fun other => other = .builtIn, rfl, ?_, ?_⟩
  · rintro _ name helper rfl hfind frame values
    obtain rfl := BuiltIn.eq_logInline hfind
    trivial
  · rintro _ name helper rfl hfind frame values hasInverse
    exact obeys_of_isBlock ⟨name, hfind⟩ _ frame (fun _ _ => trivial) hasInverse

/-- A tag that refers to a partial without a context. -/
theorem read_partialCall (registered : String → Bool) {text name : String} (hname : name ≠ "")
    (h : tokenize text = .ok ([[.word name (some .partialCall)]].flatMap
      fun pieces => Segment.toTokens (.tag pieces))) :
    Template.read registered text = .ok [.partialCall name none] := by
  have hitems : readSegments registered [.tag [.word name (some .partialCall)]] =
      some ([Node.partialCall name none].map .node) := by
    refine readSegments_cons.2 ⟨[.node (.partialCall name none)], [], ?_, rfl, rfl⟩
    rw [readSegment, readTag, if_neg hname]
    rfl
  exact read_of_tags h hitems (pairBlocks_nodes _)

/-! ## Compiled templates -/

/-- A compiled template fails with errors of renders only, if all helpers do so: those of the
configuration that it is rendered with, and those that helpers register while it is rendered. It
does not fail if everything that it calls is there, no partial leads back to itself, and none of the
helpers that it calls fails on its own or registers anything in place of what it calls: no more
partials are inside each other than the configuration has, so any larger depth will do. -/
theorem render_errors_accounted :
    (∀ (workspace later : Workspace) (environment : Environment) (text : String)
        (renderer : Renderer) (depth : Nat) (data : Value) (sink : Sink)
        (outcome : Workspace.Outcome) (error : Error),
        workspace.compile environment text = .ok renderer →
        (later.configuration renderer.environment).HelpersFailWith Error.IsRenderError →
        later.run renderer.environment sink (renderer.template.render depth (.root data)) =
          some outcome →
        outcome.result = .error error → error.IsRenderError) ∧
      ∀ (workspace later : Workspace) (environment : Environment) (text : String)
        (renderer : Renderer) (depth : Nat) (data : Value) (written : String),
        workspace.compile environment text = .ok renderer →
        (later.configuration renderer.environment).Supplies renderer.template →
        (later.configuration renderer.environment).HelpersSpare renderer.template →
        (later.configuration renderer.environment).partials.length < depth →
        ∃ outcome, later.run renderer.environment (.unlimited written)
            (renderer.template.render depth (.root data)) = some outcome ∧
          outcome.result = .ok () := by
  constructor
  · intro workspace later environment text renderer depth data sink outcome error _ hhelpers hrun
      herror
    obtain ⟨registries, hregistries, hobey⟩ := hhelpers
    have hend := Contract.meets_render_errors hobey depth renderer.template (.root data)
      ⟨sink, later.configuration renderer.environment⟩ ⟨trivial, hregistries⟩
    rw [Workspace.run_eq, Option.map_eq_some_iff] at hrun
    obtain ⟨⟨result, after⟩, hrender, rfl⟩ := hrun
    obtain rfl : result = .error error := herror
    rw [hrender] at hend
    exact hend.2
  · intro workspace later environment text renderer depth data written _ hsupplies hspare hdepth
    obtain ⟨registries, hregistries, halike, hhelpers⟩ := hspare
    -- No partial refers to itself, so that the depth is enough for all of them.
    have hfits := Configuration.fits_of_acyclic hsupplies.acyclic hdepth
    have hend := Contract.meets_render_supplied hsupplies halike hhelpers hfits
      (fun node hnode => .own hnode) (.root data)
      ⟨.unlimited written, later.configuration renderer.environment⟩ ⟨rfl, hregistries⟩
    rw [Workspace.run_eq]
    cases hrender : renderer.template.render depth (.root data)
        ⟨.unlimited written, later.configuration renderer.environment⟩ with
    | none =>
      rw [hrender] at hend
      exact hend.elim
    | some ended =>
      obtain ⟨result, after⟩ := ended
      rw [hrender] at hend
      cases result with
      | error error => exact hend.2.elim
      | ok a => exact ⟨_, rfl, rfl⟩

/-- A template that refers to a partial: it fails with the error of a missing partial where that is
not registered, and ends well where it is. -/
theorem render_errors_accounted_partial :
    let text := "\x7b\x7b >p \x7d\x7d"
    let template : Template := [.partialCall "p" none]
    let supplied := Configuration.builtIn.register (.template "p" [.text "fine"])
    let workspace := ((Workspace.empty.create .builtIn).1.create supplied).1
    let renderer (environment : Environment) : Renderer := ⟨template, environment⟩
    workspace.compile ⟨0⟩ text = .ok (renderer ⟨0⟩) ∧
      workspace.compile ⟨1⟩ text = .ok (renderer ⟨1⟩) ∧
      (∃ outcome, workspace.run ⟨0⟩ (.unlimited "") (template.render 2 (.root .null)) =
        some outcome ∧ outcome.result = .error (.missingPartial "p")) ∧
      (Error.missingPartial "p").IsRenderError ∧
      ∃ outcome, workspace.run ⟨1⟩ (.unlimited "") (template.render 2 (.root .null)) =
        some outcome ∧ outcome.result = .ok () := by
  intro text template supplied workspace renderer
  have hread : ∀ registered, Template.read registered text = .ok template :=
    fun registered => read_partialCall registered (by decide)
      (tokenize_print_tags [[.word "p" (some .partialCall)]] (by decide))
  have hcompile : ∀ environment, workspace.compile environment text = .ok (renderer environment) :=
    fun environment => Workspace.compile_eq_ok.2 ⟨template, hread _, rfl⟩
  have huses : ∀ node, supplied.Uses template node →
      node = .partialCall "p" none ∨ node = .text "fine" := by
    intro node hnode
    induction hnode with
    | own h => exact .inl (List.mem_singleton.1 h)
    | through h hfind hnode ih =>
      rcases ih with heq | heq
      · cases heq
        cases hfind
        exact .inr (List.mem_singleton.1 hnode)
      · cases heq
  have hinline : ∀ name arguments, ¬ supplied.Uses template (.inlineCall name arguments) := by
    intro name arguments hnode
    rcases huses _ hnode with heq | heq <;> cases heq
  have hblock : ∀ name arguments body inverse,
      ¬ supplied.Uses template (.blockCall name arguments body inverse) := by
    intro name arguments body inverse hnode
    rcases huses _ hnode with heq | heq <;> cases heq
  have hpartial : ∀ name context, supplied.Uses template (.partialCall name context) →
      name = "p" := by
    intro name context hnode
    rcases huses _ hnode with heq | heq
    · cases heq
      rfl
    · cases heq
  have hsupplies : supplied.Supplies template := by
    refine ⟨fun _ _ h => (hinline _ _ h).elim, fun _ _ _ _ h => (hblock _ _ _ _ h).elim, ?_, ?_⟩
    · intro name context hnode
      obtain rfl := hpartial name context hnode
      exact ⟨_, rfl⟩
    · intro name context hnode
      obtain rfl := hpartial name context hnode
      exact Configuration.not_transGen_refers (Configuration.not_refers_of_text rfl)
  have hspare : supplied.HelpersSpare template := by
    refine ⟨fun other => other = supplied, rfl, ?_, ?_⟩
    · rintro _ rfl
      exact ⟨fun _ _ _ => rfl, fun _ _ _ _ _ => rfl, fun _ _ _ => rfl⟩
    · exact ⟨fun _ _ _ h => (hinline _ _ h).elim, fun _ _ _ _ _ h => (hblock _ _ _ _ h).elim⟩
  obtain ⟨herrors, hsuccess⟩ := render_errors_accounted
  refine ⟨hcompile ⟨0⟩, hcompile ⟨1⟩, ⟨_, rfl, rfl⟩, ?_, ?_⟩
  · exact herrors workspace workspace ⟨0⟩ text _ 2 .null (.unlimited "") _ _ (hcompile ⟨0⟩)
      Configuration.helpersFailWith_builtIn rfl rfl
  · exact hsuccess workspace workspace ⟨1⟩ text _ 2 .null "" (hcompile ⟨1⟩) hsupplies hspare
      (by decide)

/-- A helper that replaces a partial which the template calls later: everything is there when the
render begins, and no helper fails, but the new partial refers to one that is missing. -/
theorem render_fails_after_replacement :
    let text := "\x7b\x7b i \x7d\x7d\x7b\x7b >p \x7d\x7d"
    let source := "\x7b\x7b >nope \x7d\x7d"
    let install : InlineHelper := fun _ _ => .registerPartial "p" source (.write "installed" .done)
    let configuration := (Configuration.empty.register (.inline "i" install)).register
      (.template "p" [.text "fine"])
    let template : Template := [.inlineCall "i" [], .partialCall "p" none]
    Template.read configuration.isRegistered text = .ok template ∧
      configuration.Supplies template ∧
      configuration.HelpersSucceed template (fun _ => True) ∧
      configuration.partials.length < 3 ∧
      ∃ after, template.render 3 (.root .null) ⟨.unlimited "", configuration⟩ =
        some (.error (.missingPartial "nope"), after) := by
  intro text source install configuration template
  have hread : ∀ registered, Template.read registered source = .ok [.partialCall "nope" none] :=
    fun registered => read_partialCall registered (by decide)
      (tokenize_print_tags [[.word "nope" (some .partialCall)]] (by decide))
  have huses : ∀ node, configuration.Uses template node →
      node = .inlineCall "i" [] ∨ node = .partialCall "p" none ∨ node = .text "fine" := by
    intro node hnode
    induction hnode with
    | own h => simpa [template, allNodes, Node.nodes, or_assoc] using Or.inl h
    | through h hfind hnode ih =>
      rcases ih with heq | heq | heq
      · cases heq
      · cases heq
        cases hfind
        exact .inr (.inr (List.mem_singleton.1 hnode))
      · cases heq
  have hblock : ∀ name arguments body inverse,
      ¬ configuration.Uses template (.blockCall name arguments body inverse) := by
    intro name arguments body inverse hnode
    rcases huses _ hnode with heq | heq | heq <;> cases heq
  have hinline : ∀ name arguments, configuration.Uses template (.inlineCall name arguments) →
      configuration.findInline? name = some install := by
    intro name arguments hnode
    rcases huses _ hnode with heq | heq | heq
    · cases heq
      rfl
    · cases heq
    · cases heq
  have hpartial : ∀ name context, configuration.Uses template (.partialCall name context) →
      configuration.findPartial? name = some [.text "fine"] := by
    intro name context hnode
    rcases huses _ hnode with heq | heq | heq
    · cases heq
    · cases heq
      rfl
    · cases heq
  refine ⟨?_, ⟨?_, ?_, ?_, ?_⟩, ⟨?_, ?_⟩, by decide, ?_⟩
  · let tags : List (List Piece) := [[.word "i" none], [.word "p" (some .partialCall)]]
    let tokens : List Token := tags.flatMap fun pieces => Segment.toTokens (.tag pieces)
    have htokens : tokenize text = .ok tokens := tokenize_print_tags tags (by decide)
    exact read_of_tags htokens rfl (pairBlocks_nodes template)
  · exact fun name arguments h => ⟨install, hinline name arguments h⟩
  · exact fun _ _ _ _ h => (hblock _ _ _ _ h).elim
  · exact fun name context h => ⟨_, hpartial name context h⟩
  · exact fun name context h =>
      Configuration.not_transGen_refers (Configuration.not_refers_of_text (hpartial name context h))
  · intro name arguments helper hnode hfind frame values
    rw [hinline name arguments hnode] at hfind
    cases hfind
    refine ⟨fun other _ => ⟨fun _ _ => trivial, fun error herror => ?_⟩, trivial⟩
    rw [hread] at herror
    cases herror
  · exact fun _ _ _ _ _ h => (hblock _ _ _ _ h).elim
  -- The helper replaces the partial by one whose own partial is missing, and then succeeds.
  · have hscript : (install (.root .null) []).run (.root .null) (fun _ _ => pure ())
        ⟨.unlimited "", configuration⟩ = some (.ok (), ⟨.unlimited "installed",
          configuration.register (.template "p" [.partialCall "nope" none])⟩) := by
      show (Render.ofExcept (Template.read configuration.isRegistered source) >>= fun found =>
        Render.register (.template "p" found) >>= fun _ =>
          Render.write "installed" >>= fun _ => pure ()) ⟨.unlimited "", configuration⟩ = _
      rw [hread]
      rfl
    refine ⟨⟨.unlimited "installed",
      configuration.register (.template "p" [.partialCall "nope" none])⟩, ?_⟩
    show ((install (.root .null) []).run (.root .null) (fun _ _ => pure ()) >>= fun _ =>
      renderNodes (Template.render 2) [.partialCall "p" none] (.root .null))
        ⟨.unlimited "", configuration⟩ = _
    rw [Render.bind_apply, hscript]
    rfl

end BraceTemplate
