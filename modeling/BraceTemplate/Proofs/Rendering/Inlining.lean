import BraceTemplate.Proofs.Joining.Templates
import BraceTemplate.Proofs.Rendering.Blocks
import BraceTemplate.Proofs.Rendering.Contract
import BraceTemplate.Proofs.Rendering.References

/-!
# Partials in place

A reference to a partial without a context stands for the nodes of that partial. `inlined` puts them
in its place, down to a given number of partials inside each other, and by `alike_inlined` this
makes no difference to a render, unless helpers register something or partials lead back to
themselves.
-/

namespace BraceTemplate

/-- A template with the nodes of registered partials in the place of references without a context,
so many levels deep. -/
def Template.inlined (configuration : Configuration) : (levels : Nat) → Template → Template
  | 0, template => template
  | levels + 1, template => replaceAll
    (fun name => (configuration.findPartial? name).map (Template.inlined configuration levels))
    template

/-! ## References that are left -/

/-- A reference without a context is left if no nodes stand for it, or if it is one of the nodes
that stand for another one. -/
def LeftOver (nodesOf : String → Option (List Node)) (name : String) (nodes : List Node) : Prop :=
  nodesOf name = none ∨ ∃ other inner, .partialCall other none ∈ nodes ∧
    nodesOf other = some inner ∧ .partialCall name none ∈ allNodes inner

theorem LeftOver.mono {nodesOf : String → Option (List Node)} {name : String}
    {nodes wider : List Node} (h : LeftOver nodesOf name nodes) (hsubset : nodes ⊆ wider) :
    LeftOver nodesOf name wider :=
  h.imp_right fun ⟨other, inner, hmem, hinner⟩ => ⟨other, inner, hsubset hmem, hinner⟩

/-- A reference that is left in a body of a block is left in the block. -/
theorem LeftOver.bodies {nodesOf : String → Option (List Node)} {name : String}
    {body inverse : List Node} (block : Node)
    (h : LeftOver nodesOf name body ∨ LeftOver nodesOf name inverse) :
    LeftOver nodesOf name (block :: (body ++ inverse)) := by
  rcases h with hbody | hinverse
  · exact hbody.mono fun _ hmem => List.mem_cons_of_mem _ (List.mem_append_left _ hmem)
  · exact hinverse.mono fun _ hmem => List.mem_cons_of_mem _ (List.mem_append_right _ hmem)

variable {nodesOf : String → Option (List Node)} {name : String}

mutual

/-- A reference that is left after inlining was in the node itself, or in what was put in its
place. -/
theorem leftOver_of_mem_replaced : ∀ node : Node,
    .partialCall name none ∈ allNodes (node.replaced nodesOf) → LeftOver nodesOf name node.nodes
  | .text _, h => by cases List.mem_singleton.1 h
  | .output _, h => by cases List.mem_singleton.1 h
  | .inlineCall _ _, h => by cases List.mem_singleton.1 h
  | .blockCall callName arguments body inverse, h => by
    rw [Node.replaced, allNodes, allNodes, List.append_nil, Node.nodes, List.mem_cons,
      List.mem_append] at h
    rcases h with heq | hbodies
    · cases heq
    · exact .bodies _ (hbodies.imp (leftOver_of_mem_replaceAll body)
        (leftOver_of_mem_replaceInverse inverse))
  | .pathBlock path body inverse, h => by
    rw [Node.replaced, allNodes, allNodes, List.append_nil, Node.nodes, List.mem_cons,
      List.mem_append] at h
    rcases h with heq | hbodies
    · cases heq
    · exact .bodies _ (hbodies.imp (leftOver_of_mem_replaceAll body)
        (leftOver_of_mem_replaceInverse inverse))
  -- Only a call without a context is replaced, and only by nodes there are.
  | .partialCall other none, h => by
    rw [Node.replaced] at h
    cases hnodes : nodesOf other with
    | none =>
      rw [hnodes] at h
      cases List.mem_singleton.1 h
      exact .inl hnodes
    | some inner =>
      rw [hnodes] at h
      exact .inr ⟨other, inner, List.mem_singleton_self _, hnodes, h⟩
  | .partialCall _ (some _), h => by cases List.mem_singleton.1 h

/-- A reference of a template with other nodes for partials is one that is left. -/
theorem leftOver_of_mem_replaceAll : ∀ nodes : List Node,
    .partialCall name none ∈ allNodes (replaceAll nodesOf nodes) →
      LeftOver nodesOf name (allNodes nodes)
  | [], h => by cases h
  | node :: nodes, h => by
    rw [replaceAll, allNodes_append, List.mem_append] at h
    rcases h with hnode | hnodes
    · exact (leftOver_of_mem_replaced node hnode).mono (List.subset_append_left _ _)
    · exact (leftOver_of_mem_replaceAll nodes hnodes).mono (List.subset_append_right _ _)

theorem leftOver_of_mem_replaceInverse : ∀ inverse : Option (List Node),
    .partialCall name none ∈ inverseNodes (replaceInverse nodesOf inverse) →
      LeftOver nodesOf name (inverseNodes inverse)
  | none, h => by cases h
  | some nodes, h => leftOver_of_mem_replaceAll nodes h

end

variable {configuration : Configuration} {template used : Template} {depth : Nat}

/-- Where all levels are inlined, only references to partials that are not registered are left. -/
theorem findPartial?_of_mem_inlined {levels : Nat} (hfits : configuration.Fits levels template)
    (hmem : .partialCall name none ∈ allNodes (template.inlined configuration levels)) :
    configuration.findPartial? name = none := by
  induction levels generalizing template with
  | zero => exact hfits.elim
  | succ levels ih =>
    rcases leftOver_of_mem_replaceAll template hmem with hnone | ⟨other, inner, hother, hinner, hin⟩
    · exact Option.map_eq_none_iff.1 hnone
    · obtain ⟨used, hfind, rfl⟩ := Option.map_eq_some_iff.1 hinner
      exact ih (hfits other none used hother hfind) hin

/-! ## Renders -/

/-- A render goes no deeper than its partials fit. -/
theorem alike_render_of_fits (hkeeps : configuration.KeepsRegistries)
    (hfits : configuration.Fits depth template) {other : Nat} (hle : depth ≤ other)
    (frame : Frame) :
    Alike configuration (template.render depth frame) (template.render other frame) := by
  induction depth generalizing template other frame with
  | zero => exact hfits.elim
  | succ depth ih =>
    obtain ⟨other, rfl⟩ := Nat.exists_eq_add_of_le' hle
    have halike : (Alike.congruence configuration).Rel
        (renderNodes (Template.render depth) template frame)
        (renderNodes (Template.render (other + depth)) template frame) :=
      hkeeps.rel_renderNodes (fun _ h => h) (fun _ => trivial)
        (fun name context used hmem hfind frame =>
          ih (hfits name context used hmem hfind) (Nat.le_add_left _ _) frame) frame
    exact halike

/-- A reference to a registered partial renders it, in the frame that its context says. -/
theorem alike_partialCall (hkeeps : configuration.KeepsRegistries) {context : Option Path}
    (hfind : configuration.findPartial? name = some used) (hfits : configuration.Fits depth used)
    (frame : Frame) :
    Alike configuration (renderNode (Template.render depth) (.partialCall name context) frame)
      (used.render (depth + 1) (partialFrame frame context)) := by
  have halike := alike_render_of_fits hkeeps hfits (Nat.le_succ depth) (partialFrame frame context)
  refine ⟨fun sink => ?_, halike.keeps⟩
  rw [← halike.same, renderNode, Render.configuration_bind_apply]
  dsimp only
  rw [hfind]

theorem render_partialCall (hkeeps : configuration.KeepsRegistries) {context : Option Path}
    (hfits : configuration.Fits depth [.partialCall name context])
    (hfind : configuration.findPartial? name = some used) (frame : Frame) (sink : Sink) :
    Template.render depth [.partialCall name context] frame ⟨sink, configuration⟩ =
      used.render depth (partialFrame frame context) ⟨sink, configuration⟩ := by
  cases depth with
  | zero => exact hfits.elim
  | succ depth =>
    have hused := hfits name context used (List.mem_singleton_self _) hfind
    rw [render_singleton]
    exact (alike_partialCall hkeeps hfind hused frame).same sink

/-- Inlining makes no difference to a render. -/
theorem alike_inlined (hkeeps : configuration.KeepsRegistries) (levels : Nat)
    (hfits : configuration.Fits depth template) (frame : Frame) :
    Alike configuration (template.render depth frame)
      ((template.inlined configuration levels).render depth frame) := by
  induction levels generalizing template depth frame with
  | zero => exact (appends_render hkeeps depth template frame).alike
  | succ levels ih =>
    cases depth with
    | zero => exact hfits.elim
    | succ depth =>
      show (Alike.congruence configuration).Rel
        (renderNodes (Template.render depth) template frame)
        (renderNodes (Template.render depth) (replaceAll _ template) frame)
      refine Congruence.rel_renderNodes template (fun node hmem => ?_) frame
      refine hkeeps.serves (fun _ h => h) (fun _ => trivial) ?_
      rintro name context rfl frame
      -- A reference with a context, or to a partial that is not there, is left as it is.
      have hleft : Alike configuration
          (renderNode (Template.render depth) (.partialCall name context) frame)
          (renderNodes (Template.render depth) [.partialCall name context] frame) := by
        have happends := appends_render hkeeps (depth + 1) [.partialCall name context] frame
        rw [render_singleton] at happends
        rw [renderNodes_singleton]
        exact happends.alike
      cases context with
      | some context => exact hleft
      | none =>
        cases hfind : configuration.findPartial? name with
        | none =>
          rw [Node.replaced, hfind]
          exact hleft
        | some used =>
          have hused := hfits name none used hmem hfind
          rw [Node.replaced, hfind]
          exact (alike_partialCall hkeeps hfind hused frame).trans (ih hused.succ frame)

/-- The contract of a render that comes to an end. -/
def Contract.ending (configuration : Configuration) : Contract where
  registries := (· = configuration)
  sinks := fun _ => True
  fails := fun _ => True
  endless := False
  sinks_unlimited := trivial
  sinks_write := fun _ _ _ => trivial
  fails_write := fun _ _ _ _ => trivial

theorem meets_ending (hkeeps : configuration.KeepsRegistries)
    (hfits : configuration.Fits depth template) (frame : Frame) :
    (Contract.ending configuration).Meets (template.render depth frame) := by
  induction depth generalizing template frame with
  | zero => exact hfits.elim
  | succ depth ih =>
    have hmeets : (Contract.ending configuration).congruence.Rel
        (renderNodes (Template.render depth) template frame)
        (renderNodes (Template.render depth) template frame) :=
      hkeeps.rel_renderNodes (fun _ h => h) (fun _ => trivial)
        (fun name context used hmem hfind => ih (hfits name context used hmem hfind)) frame
    exact hmeets

/-- A render to which its partials fit comes to an end. -/
theorem exists_render_of_fits (hkeeps : configuration.KeepsRegistries)
    (hfits : configuration.Fits depth template) (frame : Frame) (sink : Sink) :
    ∃ result after, template.render depth frame ⟨sink, configuration⟩ = some (result, after) := by
  have hend := meets_ending hkeeps hfits frame ⟨sink, configuration⟩ ⟨trivial, rfl⟩
  cases hrender : template.render depth frame ⟨sink, configuration⟩ with
  | none =>
    rw [hrender] at hend
    exact hend.elim
  | some ended => exact ⟨ended.1, ended.2, rfl⟩

/-! ## Contexts -/

/-- A reference with a context is a reference without one in a block `with` that context, if it is
truthy. -/
theorem render_partialCall_with (hwith : configuration.findBlock? "with" = some BuiltIn.withBlock)
    {context : Path} {frame : Frame} {value : Value} (hvalue : frame.lookup context = some value)
    (htruthy : value.isTruthy = true) (depth : Nat) (name : String) (sink : Sink) :
    Template.render depth [.partialCall name (some context)] frame ⟨sink, configuration⟩ =
      Template.render depth [.blockCall "with" [.path context] [.partialCall name none] none] frame
        ⟨sink, configuration⟩ := by
  cases depth with
  | zero => rfl
  | succ depth =>
    have hframe : partialFrame frame (some context) =
        partialFrame (.child frame value none) none :=
      congrArg (fun found : Option Value => Frame.child frame (found.getD .null) none) hvalue
    have hargument : ((Argument.path context).value? frame).getD .null = value := by
      rw [Argument.value?, hvalue, Option.getD_some]
    rw [render_singleton, render_singleton, renderNode_with _ _ _ _ _ _ hwith, hargument,
      if_pos htruthy, renderNodes_singleton, renderNode, renderNode, hframe]

/-- A registered template is found under its name, with what is registered where it is asked for. -/
theorem findPartial?_register {workspace : Workspace} {environment : Environment}
    (h : environment.index < workspace.configurations.length) (name : String)
    (template : Template) :
    ((workspace.register environment (.template name template)).configuration
      environment).findPartial? name = some template := by
  rw [Workspace.register, Workspace.configuration_setConfiguration h, if_pos rfl,
    Configuration.findPartial?_register_template, if_pos rfl]

/-- Partials mean what they mean in place, where helpers register nothing, no partial leads back to
itself, and partials are followed deeper than as many as are registered. A template comes to the
same end when references without a context are replaced by the nodes of the partials, however many
levels deep, and with enough levels none is left of a partial that is registered. A reference with a
context renders the partial in a frame of its own, as the block `with` does if the context is
truthy. What is registered elsewhere, where the partial was compiled, does not matter. -/
theorem render_inlined {configuration : Configuration} (hkeeps : configuration.KeepsRegistries)
    (hacyclic : ∀ name, ¬ Relation.TransGen configuration.Refers name name) {depth : Nat}
    (hdepth : configuration.partials.length < depth) :
    (∀ (template : Template) (levels : Nat) (frame : Frame) (sink : Sink), ∃ result after,
        template.render depth frame ⟨sink, configuration⟩ = some (result, after) ∧
        (template.inlined configuration levels).render depth frame ⟨sink, configuration⟩ =
          some (result, after)) ∧
      (∀ (template : Template) (levels : Nat) (name : String),
        configuration.partials.length < levels →
        .partialCall name none ∈ allNodes (template.inlined configuration levels) →
        configuration.findPartial? name = none) ∧
      (∀ (name : String) (context : Path) (used : Template) (frame : Frame) (sink : Sink),
        configuration.findPartial? name = some used →
        Template.render depth [.partialCall name (some context)] frame ⟨sink, configuration⟩ =
          used.render depth (.child frame ((frame.lookup context).getD .null) none)
            ⟨sink, configuration⟩) ∧
      (∀ (name : String) (context : Path) (value : Value) (frame : Frame) (sink : Sink),
        configuration.findBlock? "with" = some BuiltIn.withBlock →
        frame.lookup context = some value → value.isTruthy = true →
        Template.render depth [.partialCall name (some context)] frame ⟨sink, configuration⟩ =
          Template.render depth
            [.blockCall "with" [.path context] [.partialCall name none] none] frame
            ⟨sink, configuration⟩) ∧
      ∀ (workspace : Workspace) (environment : Environment) (name : String) (used : Renderer)
        (frame : Frame) (sink : Sink), environment.index < workspace.configurations.length →
        let later := workspace.register environment (.template name used.template)
        later.configuration environment = configuration →
        later.run environment sink (Template.render depth [.partialCall name none] frame) =
          later.run environment sink (used.template.render depth frame) := by
  -- Without a cycle the depth of the references is at most the number of the partials.
  have hfits : ∀ (levels : Nat) (template : Template), configuration.partials.length < levels →
      configuration.Fits levels template := fun levels template hlevels =>
    Configuration.fits_of_acyclic (fun name _ _ => hacyclic name) hlevels
  refine ⟨?_, ?_, ?_, ?_, ?_⟩
  · intro template levels frame sink
    have hfit := hfits depth template hdepth
    obtain ⟨result, after, hrender⟩ := exists_render_of_fits hkeeps hfit frame sink
    have hsame := (alike_inlined hkeeps levels hfit frame).same sink
    exact ⟨result, after, hrender, hsame ▸ hrender⟩
  · intro template levels name hlevels hmem
    exact findPartial?_of_mem_inlined (hfits levels template hlevels) hmem
  · intro name context used frame sink hfind
    exact render_partialCall hkeeps (hfits depth _ hdepth) hfind frame sink
  · intro name context value frame sink hwith hvalue htruthy
    exact render_partialCall_with hwith hvalue htruthy depth name sink
  · rintro workspace environment name used frame sink hindex later rfl
    have hfind := findPartial?_register hindex name used.template
    rw [Workspace.run_eq, Workspace.run_eq,
      render_partialCall hkeeps (hfits depth _ hdepth) hfind frame sink]
    rfl

/-- A loop over a partial that asks for the index of the loop and climbs out of it. The partial was
compiled in another environment. -/
theorem render_inlined_each :
    let partialNodes : Template := [.output (Path.ofWord "@index"), .output (Path.ofWord "../x")]
    let loop (body : Template) : Template :=
      [.blockCall "each" [.path (Path.ofWord "a")] body none]
    let workspace := ((Workspace.empty.create .empty).1.create .builtIn).1
    let used : Renderer := ⟨partialNodes, ⟨0⟩⟩
    let later := workspace.register ⟨1⟩ (.template "p" used.template)
    let configuration := Configuration.builtIn.register (.template "p" partialNodes)
    let frame : Frame :=
      .root (.object [("a", .array [.string "u", .string "v"]), ("x", .string "y")])
    let state : RenderState := ⟨.unlimited "", configuration⟩
    later.configuration ⟨1⟩ = configuration ∧
      Template.inlined configuration 2 (loop [.partialCall "p" none]) = loop partialNodes ∧
      Template.render 2 (loop [.partialCall "p" none]) frame state =
        some (.ok (), ⟨.unlimited "0y1y", configuration⟩) ∧
      Template.render 2 (loop partialNodes) frame state =
        some (.ok (), ⟨.unlimited "0y1y", configuration⟩) ∧
      Template.render 2 [.partialCall "p" (some (Path.ofWord "a"))] frame state =
        Template.render 2
          [.blockCall "with" [.path (Path.ofWord "a")] [.partialCall "p" none] none] frame state ∧
      later.run ⟨1⟩ (.unlimited "") (Template.render 2 [.partialCall "p" none] frame) =
        later.run ⟨1⟩ (.unlimited "") (partialNodes.render 2 frame) := by
  intro partialNodes loop workspace used later configuration frame state
  have hkeeps : configuration.KeepsRegistries :=
    ⟨keepsRegistries_builtIn.inline, keepsRegistries_builtIn.block⟩
  have hrefers : ∀ name other, ¬ configuration.Refers name other := by
    rintro name other ⟨found, context, hfind, hmem⟩
    rw [Configuration.findPartial?_register_template] at hfind
    split at hfind
    · cases hfind
      simp [partialNodes, allNodes, Node.nodes] at hmem
    · cases hfind
  have hacyclic := fun name => Configuration.not_transGen_refers (hrefers name)
  obtain ⟨hinlined, -, -, hwith, hworkspace⟩ := @render_inlined _ hkeeps hacyclic 2 (by decide)
  have hloop : Template.render 2 (loop [.partialCall "p" none]) frame state =
      some (.ok (), ⟨.unlimited "0y1y", configuration⟩) := rfl
  refine ⟨rfl, rfl, hloop, ?_, ?_, ?_⟩
  · obtain ⟨result, after, hrender, hsame⟩ :=
      hinlined (loop [.partialCall "p" none]) 2 frame (.unlimited "")
    exact hsame.trans (hrender.symm.trans hloop)
  · exact hwith "p" _ _ frame (.unlimited "") rfl rfl rfl
  · exact hworkspace workspace ⟨1⟩ "p" used frame (.unlimited "") (by decide) rfl

end BraceTemplate
