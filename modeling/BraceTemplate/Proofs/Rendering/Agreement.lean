import BraceTemplate.Proofs.Joining.Templates
import BraceTemplate.Proofs.Registering.Lookups
import BraceTemplate.Proofs.Rendering.References

/-!
# The entries that a render depends on

A render looks up the names that its template calls and refers to, and those that the partials do
that it comes to, and no others. `Parallel` says of two parts of a render that they do the same,
each with registries of its own. `parallel_render` shows that a template renders so with any two
configurations that agree on the names it asks for, and `render_depends_on_asked` that what is
registered under other names makes no difference.
-/

namespace BraceTemplate

/-! ## Names that are asked for -/

/-- The name that a node looks up, if it looks one up. -/
def Node.askedName? : Node → Option String
  | .text _ => none
  | .output _ => none
  | .inlineCall name _ => some name
  | .blockCall name _ _ _ => some name
  | .pathBlock _ _ _ => none
  | .partialCall name _ => some name

namespace Configuration

/-- A name that rendering a template may look up: one that it calls or refers to, or that a partial
does that it refers to, be it through other partials. -/
def Asks (configuration : Configuration) (template : Template) (name : String) : Prop :=
  ∃ node, configuration.Uses template node ∧ node.askedName? = some name

/-- Two configurations have the same entries under a name, or none. -/
def AgreeAt (first second : Configuration) (name : String) : Prop :=
  ∀ kind, first.find? kind name = second.find? kind name

/-- The helpers under a name register nothing, whatever they are called with. -/
structure KeepsAt (configuration : Configuration) (name : String) : Prop where
  inline : ∀ helper, configuration.findInline? name = some helper →
    ∀ frame arguments, (helper frame arguments).KeepsRegistries
  block : ∀ helper, configuration.findBlock? name = some helper →
    ∀ frame arguments hasInverse, (helper frame arguments hasInverse).KeepsRegistries

namespace AgreeAt

variable {first second : Configuration} {name : String}

theorem findInline?_eq (h : first.AgreeAt second name) :
    second.findInline? name = first.findInline? name :=
  (h .inline).symm

theorem findBlock?_eq (h : first.AgreeAt second name) :
    second.findBlock? name = first.findBlock? name :=
  (h .block).symm

theorem findPartial?_eq (h : first.AgreeAt second name) :
    second.findPartial? name = first.findPartial? name :=
  (h .template).symm

/-- A helper that is missing is missing with the same error. -/
theorem noInline_eq (h : first.AgreeAt second name) :
    second.noInline name = first.noInline name := by
  rw [noInline, noInline, hasBlock, hasBlock, h.findBlock?_eq]

theorem noBlock_eq (h : first.AgreeAt second name) : second.noBlock name = first.noBlock name := by
  rw [noBlock, noBlock, hasInline, hasInline, h.findInline?_eq]

theorem trans {third : Configuration} (h : first.AgreeAt second name)
    (hnext : second.AgreeAt third name) : first.AgreeAt third name :=
  fun kind => (h kind).trans (hnext kind)

/-- Registering an entry changes nothing under other names. -/
theorem register {entry : Registration} (h : entry.name ≠ name) :
    first.AgreeAt (first.register entry) name := by
  intro kind
  rw [find?_register, Registration.value?_of_name_ne h, Option.none_or]

end AgreeAt

end Configuration

/-! ## Parts with registries of their own -/

section

variable {α β : Type} {first second : Configuration}

/-- The end of a part that left the registries as they were. -/
def endWith (configuration : Configuration) (ended : Except Error α × Sink) :
    Except Error α × RenderState :=
  (ended.1, ⟨ended.2, configuration⟩)

/-- Two parts of a render that start from the same sink end in the same way with the same sink, and
each of them leaves its own registries as they are. -/
def Parallel (first second : Configuration) (part other : Render α) : Prop :=
  ∀ sink, ∃ ended : Option (Except Error α × Sink),
    part ⟨sink, first⟩ = ended.map (endWith first) ∧
      other ⟨sink, second⟩ = ended.map (endWith second)

namespace Parallel

theorem pure (a : α) : Parallel first second (pure a : Render α) (pure a) :=
  fun sink => ⟨some (.ok a, sink), rfl, rfl⟩

theorem fail (error : Error) : Parallel first second (Render.fail error : Render α)
    (Render.fail error) :=
  fun sink => ⟨some (.error error, sink), rfl, rfl⟩

theorem tooDeep : Parallel first second (Render.tooDeep : Render α) Render.tooDeep :=
  fun _ => ⟨none, rfl, rfl⟩

theorem write (text : String) : Parallel first second (Render.write text) (Render.write text) :=
  fun sink => ⟨some (_, (sink.write text).1), Render.write_apply text sink first,
    Render.write_apply text sink second⟩

theorem bind {part other : Render α} {next later : α → Render β}
    (h : Parallel first second part other) (hnext : ∀ a, Parallel first second (next a) (later a)) :
    Parallel first second (part >>= next) (other >>= later) := by
  intro sink
  simp only [Render.bind_apply]
  obtain ⟨ended, hpart, hother⟩ := h sink
  rw [hpart, hother]
  rcases ended with - | ⟨error | a, between⟩
  · exact ⟨none, rfl, rfl⟩
  · exact ⟨some (.error error, between), rfl, rfl⟩
  · exact hnext a between

/-- Each part goes on with its own registries. -/
theorem configuration_bind {next later : Configuration → Render β}
    (hnext : Parallel first second (next first) (later second)) :
    Parallel first second (Render.configuration >>= next) (Render.configuration >>= later) :=
  hnext

theorem capture {inner other : Render Unit} (h : Parallel first second inner other) :
    Parallel first second (Render.capture inner) (Render.capture other) := by
  intro sink
  obtain ⟨ended, hinner, hother⟩ := h (.unlimited "")
  refine ⟨ended.map fun e => (.ok (e.2.written, Render.errorOf e.1), sink), ?_, ?_⟩
  · unfold Render.capture
    rw [hinner]
    cases ended <;> rfl
  · unfold Render.capture
    rw [hother]
    cases ended <;> rfl

end Parallel

/-! ## Templates -/

/-- A script that registers nothing does the same with bodies that do the same. -/
theorem parallel_script {convention : Convention} {script : Script convention}
    (hkeeps : script.KeepsRegistries) (frame : Frame)
    {renderPart renderOther : BodyPart → Frame → Render Unit}
    (hpart : ∀ part frame, Parallel first second (renderPart part frame) (renderOther part frame)) :
    Parallel first second (script.run frame renderPart) (script.run frame renderOther) := by
  induction script with
  | done => exact .pure ()
  | fail error => exact .fail error
  | write text next ih => exact .bind (.write text) fun _ => ih hkeeps
  | registerInline => exact hkeeps.elim
  | registerBlock => exact hkeeps.elim
  | registerPartial => exact hkeeps.elim
  | render part scope next ih => exact .bind (hpart _ _) fun _ => ih hkeeps
  | capture part scope next ih =>
    exact .bind (.capture (hpart _ _)) fun captured => ih _ _ (hkeeps captured.1 captured.2)

theorem parallel_renderItems {render renderOther : Frame → Render Unit}
    (hrender : ∀ frame, Parallel first second (render frame) (renderOther frame)) (frame : Frame)
    (length index : Nat) (items : List Value) :
    Parallel first second (renderItems render frame length index items)
      (renderItems renderOther frame length index items) := by
  induction items generalizing index with
  | nil => exact .pure ()
  | cons item items ih => exact .bind (hrender _) fun _ => ih (index + 1)

/-- What a node looks up is the same on both sides and registers nothing, and the partial that it
refers to is rendered alike. -/
structure AgreeOn (first second : Configuration)
    (renderPartial : Template → Frame → Render Unit) (node : Node) : Prop where
  agree : ∀ name, node.askedName? = some name → first.AgreeAt second name
  keeps : ∀ name, node.askedName? = some name → first.KeepsAt name
  served : ∀ name context used, node = .partialCall name context →
    first.findPartial? name = some used →
    ∀ frame, Parallel first second (renderPartial used frame) (renderPartial used frame)

variable {renderPartial : Template → Frame → Render Unit}

mutual

/-- Where two configurations agree on every name that the nodes ask for, a node renders in step. -/
theorem parallel_renderNode : ∀ node : Node,
    (∀ inner ∈ node.nodes, AgreeOn first second renderPartial inner) → ∀ frame,
      Parallel first second (renderNode renderPartial node frame)
        (renderNode renderPartial node frame)
  | .text content, _, _ => .write content
  | .output path, _, frame => by
    rw [renderNode]
    split
    · exact .write _
    · exact .pure ()
  -- The helper found is the same one, and so is the error where none is found.
  | .inlineCall name arguments, hnodes, frame => by
    obtain ⟨hagree, hkeeps, -⟩ := hnodes _ List.mem_cons_self
    refine .configuration_bind ?_
    rw [(hagree name rfl).findInline?_eq, (hagree name rfl).noInline_eq]
    split
    · next helper hfind =>
      exact parallel_script ((hkeeps name rfl).inline helper hfind _ _) frame fun _ _ => .pure ()
    · exact .fail _
  | .blockCall name arguments body inverse, hnodes, frame => by
    obtain ⟨hagree, hkeeps, -⟩ := hnodes (.blockCall name arguments body inverse) (by
      rw [Node.nodes]
      exact List.mem_cons_self)
    rw [Node.nodes, List.forall_mem_cons, List.forall_mem_append] at hnodes
    obtain ⟨-, hbody, hinverse⟩ := hnodes
    rw [renderNode]
    refine .configuration_bind ?_
    rw [(hagree name rfl).findBlock?_eq, (hagree name rfl).noBlock_eq]
    split
    · next helper hfind =>
      refine parallel_script ((hkeeps name rfl).block helper hfind _ _ _) frame fun part frame => ?_
      cases part with
      | body => exact parallel_renderNodes body hbody frame
      | inverse => exact parallel_renderInverse inverse hinverse frame
    · exact .fail _
  | .pathBlock path body inverse, hnodes, frame => by
    rw [Node.nodes, List.forall_mem_cons, List.forall_mem_append] at hnodes
    obtain ⟨-, hbody, hinverse⟩ := hnodes
    have hinner := parallel_renderNodes body hbody
    have hother := parallel_renderInverse inverse hinverse frame
    rw [renderNode]
    split
    · exact parallel_renderItems hinner frame _ _ _
    · split
      · exact hinner _
      · exact hother
    · exact hother
  -- The nodes of the partial count among those that ask, which is what `hserved` carries.
  | .partialCall name context, hnodes, frame => by
    obtain ⟨hagree, -, hserved⟩ := hnodes _ List.mem_cons_self
    refine .configuration_bind ?_
    rw [(hagree name rfl).findPartial?_eq]
    split
    · next used hfind => exact hserved name context used rfl hfind _
    · exact .fail _

theorem parallel_renderNodes : ∀ nodes : List Node,
    (∀ inner ∈ allNodes nodes, AgreeOn first second renderPartial inner) → ∀ frame,
      Parallel first second (renderNodes renderPartial nodes frame)
        (renderNodes renderPartial nodes frame)
  | [], _, _ => .pure ()
  | node :: nodes, hnodes, frame => by
    rw [allNodes, List.forall_mem_append] at hnodes
    exact .bind (parallel_renderNode node hnodes.1 frame) fun _ =>
      parallel_renderNodes nodes hnodes.2 frame

theorem parallel_renderInverse : ∀ inverse : Option (List Node),
    (∀ inner ∈ inverseNodes inverse, AgreeOn first second renderPartial inner) → ∀ frame,
      Parallel first second (renderInverse renderPartial inverse frame)
        (renderInverse renderPartial inverse frame)
  | none, _, _ => .pure ()
  | some nodes, hnodes, frame => parallel_renderNodes nodes hnodes frame

end

/-- A template renders in the same way with two configurations that agree on the names it asks for,
if the helpers under these names register nothing. -/
theorem parallel_render {template : Template}
    (hagree : ∀ name, first.Asks template name → first.AgreeAt second name)
    (hkeeps : ∀ name, first.Asks template name → first.KeepsAt name) (depth : Nat) (frame : Frame) :
    Parallel first second (template.render depth frame) (template.render depth frame) := by
  induction depth generalizing template frame with
  | zero => exact .tooDeep
  | succ depth ih =>
    refine parallel_renderNodes template (fun node hnode => ?_) frame
    refine ⟨fun name hname => hagree name ⟨node, .own hnode, hname⟩,
      fun name hname => hkeeps name ⟨node, .own hnode, hname⟩, ?_⟩
    rintro name context used rfl hfind frame
    have hasks : ∀ asked, first.Asks used asked → first.Asks template asked :=
      fun asked ⟨inner, huses, hname⟩ => ⟨inner, .of_partial (.own hnode) hfind huses, hname⟩
    exact ih (fun asked h => hagree asked (hasks asked h))
      (fun asked h => hkeeps asked (hasks asked h)) frame

end

/-! ## Registering after compiling -/

namespace Workspace

/-- Registers entries one after the other, each in its environment. -/
def registerAll (workspace : Workspace) (entries : List (Environment × Registration)) : Workspace :=
  entries.foldl (fun workspace entry => workspace.register entry.1 entry.2) workspace

/-- What is registered in an environment is registered for those that share its configuration, and
nowhere if it has none. -/
theorem configuration_register (workspace : Workspace) (environment asked : Environment)
    (entry : Registration) :
    (workspace.register environment entry).configuration asked =
      if environment = asked ∧ environment.index < workspace.configurations.length then
        (workspace.configuration environment).register entry
      else workspace.configuration asked := by
  by_cases hvalid : environment.index < workspace.configurations.length
  · rw [register, configuration_setConfiguration hvalid]
    simp only [hvalid, and_true]
  · rw [if_neg fun h => hvalid h.2, register, setConfiguration,
      List.set_eq_of_length_le (Nat.le_of_not_lt hvalid)]

/-- Entries under other names, or in other configurations, change nothing at a name. -/
theorem agreeAt_registerAll (workspace : Workspace) {environment : Environment} {name : String}
    {entries : List (Environment × Registration)}
    (h : ∀ entry ∈ entries, entry.1 = environment → entry.2.name ≠ name) :
    (workspace.configuration environment).AgreeAt
      ((workspace.registerAll entries).configuration environment) name := by
  induction entries generalizing workspace with
  | nil => exact fun _ => rfl
  | cons entry entries ih =>
    rw [List.forall_mem_cons] at h
    refine .trans ?_ (ih _ h.2)
    rw [configuration_register]
    split
    · next hsame =>
      obtain ⟨rfl, -⟩ := hsame
      exact .register (h.1 rfl)
    · exact fun _ => rfl

end Workspace

/-- A render depends on the entries alone that it names. With two configurations that have the same
entries under all names that the template asks for, and whose helpers under these names register
nothing, it ends in the same way with the same sink. So it does not matter what is registered under
other names, in its own environment, or under any name where its configuration is not shared. -/
theorem render_depends_on_asked :
    (∀ (first second : Configuration) (template : Template),
        (∀ name, first.Asks template name → first.AgreeAt second name ∧ first.KeepsAt name) →
        ∀ depth frame sink, ∃ ended : Option (Except Error Unit × Sink),
          template.render depth frame ⟨sink, first⟩ = ended.map (endWith first) ∧
          template.render depth frame ⟨sink, second⟩ = ended.map (endWith second)) ∧
      ∀ (workspace : Workspace) (renderer : Renderer)
        (entries : List (Environment × Registration)),
        (∀ name, (workspace.configuration renderer.environment).Asks renderer.template name →
          (workspace.configuration renderer.environment).KeepsAt name ∧
          ∀ entry ∈ entries, entry.1 = renderer.environment → entry.2.name ≠ name) →
        ∀ data sink,
          ((workspace.registerAll entries).render renderer data sink).map
              (fun outcome => (outcome.result, outcome.sink)) =
            (workspace.render renderer data sink).map
              fun outcome => (outcome.result, outcome.sink) := by
  constructor
  · intro first second template h depth frame sink
    exact parallel_render (fun name hname => (h name hname).1) (fun name hname => (h name hname).2)
      depth frame sink
  · intro workspace renderer entries h data sink
    -- The entries added later agree with the old configuration at every name that is asked for.
    have hagree := fun name hname => workspace.agreeAt_registerAll (h name hname).2
    obtain ⟨ended, hbefore, hafter⟩ :=
      parallel_render hagree (fun name hname => (h name hname).1) partialDepth (.root data) sink
    rw [Workspace.render, Workspace.render, Workspace.run_eq, Workspace.run_eq, hbefore, hafter]
    cases ended <;> rfl

/-- A block helper that is called from a partial, and then, by mistake, without a block: what is
written and the error stay when other helpers and partials are registered. -/
theorem render_depends_on_asked_shout :
    let shout : BlockHelper := fun _ _ _ => .write "!" (.render .body .current .done)
    let configuration := (Configuration.builtIn.register (.block "shout" shout)).register
      (.template "p" [.blockCall "shout" [] [.text "a"] none])
    let workspace := (Workspace.empty.create configuration).1
    let renderer : Renderer := ⟨[.partialCall "p" none, .inlineCall "shout" []], ⟨0⟩⟩
    let whisper : InlineHelper := fun _ _ => .registerInline "shout" (fun _ _ => .done) .done
    let entries : List (Environment × Registration) :=
      [(⟨0⟩, .inline "whisper" whisper), (⟨0⟩, .template "q" [.text "b"])]
    (∀ name, configuration.Asks renderer.template name → name = "p" ∨ name = "shout") ∧
      ∀ data, ((workspace.registerAll entries).render renderer data (.unlimited "")).map
          (fun outcome => (outcome.result, outcome.sink)) =
        some (.error (.helper "shout" .onlyBlock), .unlimited "!a") := by
  intro shout configuration workspace renderer whisper entries
  have hpartial : ∀ name used, configuration.findPartial? name = some used →
      used = [.blockCall "shout" [] [.text "a"] none] := by
    intro name used hfind
    rw [Configuration.findPartial?_register_template] at hfind
    split at hfind
    · exact (Option.some.inj hfind).symm
    · cases hfind
  have huses : ∀ node, configuration.Uses renderer.template node → node ∈
      [.partialCall "p" none, .inlineCall "shout" [], .blockCall "shout" [] [.text "a"] none,
        .text "a"] := by
    intro node h
    cases h with
    | own hmem => exact List.mem_append_left _ hmem
    | through h hfind hmem =>
      rw [hpartial _ _ hfind] at hmem
      exact List.mem_append_right [.partialCall "p" none, .inlineCall "shout" []] hmem
  have hasks : ∀ name, configuration.Asks renderer.template name → name = "p" ∨ name = "shout" := by
    rintro name ⟨node, h, hname⟩
    have hmem := huses node h
    simp only [List.mem_cons, List.not_mem_nil, or_false] at hmem
    rcases hmem with rfl | rfl | rfl | rfl
    · exact .inl (Option.some.inj hname).symm
    · exact .inr (Option.some.inj hname).symm
    · exact .inr (Option.some.inj hname).symm
    · cases hname
  have hkeeps : ∀ name, name = "p" ∨ name = "shout" → configuration.KeepsAt name := by
    rintro name (rfl | rfl)
    · constructor
      · intro helper hfind
        cases hfind
      · intro helper hfind
        cases hfind
    · constructor
      · intro helper hfind
        cases hfind
      · intro helper hfind
        cases hfind
        exact fun _ _ _ => trivial
  have hnames : ∀ entry ∈ entries, ∀ name, name = "p" ∨ name = "shout" → entry.2.name ≠ name := by
    simp [entries, Registration.name]
  refine ⟨hasks, fun data => ?_⟩
  rw [render_depends_on_asked.2 workspace renderer entries]
  · rfl
  · intro name hname
    exact ⟨hkeeps name (hasks name hname), fun entry h _ => hnames entry h name (hasks name hname)⟩

end BraceTemplate
