import BraceTemplate.Proofs.Joining.Templates
import BraceTemplate.Proofs.Registering.Recording

/-!
# Sessions

A session is a row of operations over any number of environments, of which some share their
configuration: entries are registered, templates compiled and rendered. The journal of a session
lists what happens to the registries, each happening with the environment that it happens in. One
operation takes a traced session to a traced one (`Traced.step`), and so does a whole run
(`Traced.run`). What is found in an environment, at the end or at any look before, is thus what the
last registration in the journal says that was made in an equal environment.
-/

namespace BraceTemplate

/-- The configuration that an environment is created with. -/
def Configuration.initial (builtIns : Bool) : Configuration :=
  if builtIns then .builtIn else .empty

/-- The environments and the compiled templates that are held, over the configurations that
exist. -/
structure Session where
  workspace : Workspace
  environments : List Environment
  renderers : List Renderer

/-- An operation on environments and compiled templates, each given by its position among those that
are held. -/
inductive Operation where
  /-- Creates an environment over a configuration of its own. -/
  | create (builtIns : Bool)
  /-- Creates an environment that shares the configuration of another one. -/
  | share (environment : Nat)
  | registerHelper (environment : Nat) (name : String) (helper : InlineHelper)
  | registerBlockHelper (environment : Nat) (name : String) (helper : BlockHelper)
  /-- Registers a compiled template as a partial, be it compiled in this environment or another. -/
  | registerTemplate (environment : Nat) (name : String) (renderer : Nat)
  /-- Compiles a template and registers it as a partial, if it compiles. -/
  | registerSource (environment : Nat) (name source : String)
  | compile (environment : Nat) (text : String)
  /-- Renders a template. What the scripts of helpers register meanwhile goes to the configuration
  that the template is rendered with, and to no other. -/
  | render (renderer : Nat) (data : Value) (sink : Sink)

/-- What happens in the environments of a session. -/
abbrev Journal := List (Environment × Happening)

namespace Journal

/-- What happens in one environment. -/
def happeningsIn (journal : Journal) (environment : Environment) : List Happening :=
  (journal.filter fun entry => entry.1 = environment).map Prod.snd

theorem happeningsIn_append (former latter : Journal) (environment : Environment) :
    happeningsIn (former ++ latter) environment =
      happeningsIn former environment ++ happeningsIn latter environment := by
  rw [happeningsIn, List.filter_append, List.map_append]
  rfl

/-- Happenings of one environment happen in this one alone. -/
theorem happeningsIn_map (environment asked : Environment) (happened : List Happening) :
    happeningsIn (happened.map fun happening => (environment, happening)) asked =
      if environment = asked then happened else [] := by
  induction happened with
  | nil => exact (ite_self []).symm
  | cons happening happened ih =>
    rw [List.map_cons, ← List.singleton_append, happeningsIn_append, ih]
    by_cases h : environment = asked <;> simp [happeningsIn, h]

end Journal

namespace Workspace

/-- What happens to the registries when a template is compiled and registered as a partial. -/
def registerSourceRecord (workspace : Workspace) (environment : Environment)
    (name source : String) : List Happening :=
  .consulted (workspace.configuration environment) ::
    match workspace.compile environment source with
    | .ok renderer => [.registered (.template name renderer.template)]
    | .error _ => []

/-- What happens to the registries while a template is rendered. -/
def renderRecord (workspace : Workspace) (renderer : Renderer) (data : Value) (sink : Sink) :
    List Happening :=
  (renderer.template.record partialDepth (.root data)
    ⟨sink, workspace.configuration renderer.environment⟩).elim [] fun ended => ended.2.2

theorem setConfiguration_self (workspace : Workspace) (environment : Environment) :
    workspace.setConfiguration environment (workspace.configuration environment) = workspace := by
  rw [setConfiguration, configuration]
  by_cases h : environment.index < workspace.configurations.length
  · rw [List.getElem?_eq_getElem h, Option.getD_some, List.set_getElem_self]
  · rw [List.set_eq_of_length_le (Nat.le_of_not_lt h)]

/-- An environment that is there keeps its configuration when another one is created. -/
theorem configuration_create_of_lt {workspace : Workspace} {environment : Environment}
    (h : environment.index < workspace.configurations.length) (configuration : Configuration) :
    (workspace.create configuration).1.configuration environment =
      workspace.configuration environment := by
  rw [create, Workspace.configuration, Workspace.configuration, List.getElem?_append_left h]

theorem registerSource_eq (workspace : Workspace) (environment : Environment)
    (name source : String) : workspace.registerSource environment name source =
      (workspace.compile environment source).map fun renderer =>
        workspace.register environment (.template name renderer.template) := by
  rw [registerSource]
  cases workspace.compile environment source <;> rfl

/-- A partial is registered if it compiles, and nothing happens to the registries otherwise. -/
theorem exists_replays_registerSource (workspace : Workspace) (environment : Environment)
    (name source : String) : ∃ after,
      Replays (workspace.configuration environment)
        (workspace.registerSourceRecord environment name source) after ∧
      (workspace.registerSource environment name source).toOption.getD workspace =
        workspace.setConfiguration environment after := by
  rw [registerSource_eq, registerSourceRecord]
  cases workspace.compile environment source with
  | error error =>
    exact ⟨_, .consulted (.nil _), (workspace.setConfiguration_self environment).symm⟩
  | ok renderer => exact ⟨_, .consulted (.registered (.nil _)), rfl⟩

/-- The record of a render tells what the render did to the registries. -/
theorem exists_replays_render {workspace : Workspace} {renderer : Renderer} {data : Value}
    {sink : Sink} {outcome : Outcome}
    (h : workspace.render renderer data sink = some outcome) : ∃ after,
      Replays (workspace.configuration renderer.environment)
        (workspace.renderRecord renderer data sink) after ∧
      outcome.workspace = workspace.setConfiguration renderer.environment after := by
  have hrecords := records_render partialDepth renderer.template (.root data)
  rw [render, run_eq, hrecords.same, Option.map_map] at h
  obtain ⟨⟨result, after, happened⟩, hrecord, rfl⟩ := Option.map_eq_some_iff.1 h
  refine ⟨after.configuration, ?_, rfl⟩
  rw [renderRecord, hrecord]
  exact hrecords.replays _ _ _ _ hrecord

end Workspace

namespace Session

/-- The session in which there is nothing yet. -/
def empty : Session := ⟨.empty, [], []⟩

/-- The environments that can be reached: those that are held, and those of the compiled
templates. -/
def held (session : Session) : List Environment :=
  session.environments ++ session.renderers.map Renderer.environment

/-- Carries out an operation, and gives the environment that it concerns and what happens in it.
There is no session after an operation on something that is not held, or after a render that does
not end. -/
def step (session : Session) : Operation → Option (Session × Environment × List Happening)
  | .create builtIns =>
    let (workspace, environment) := session.workspace.create (.initial builtIns)
    some (⟨workspace, session.environments ++ [environment], session.renderers⟩, environment,
      [.created builtIns])
  | .share handle => do
    let environment ← session.environments[handle]?
    return ({ session with environments := session.environments ++ [environment] }, environment, [])
  | .registerHelper handle name helper => do
    let environment ← session.environments[handle]?
    return ({ session with
        workspace := session.workspace.register environment (.inline name helper) },
      environment, [.registered (.inline name helper)])
  | .registerBlockHelper handle name helper => do
    let environment ← session.environments[handle]?
    return ({ session with
        workspace := session.workspace.register environment (.block name helper) },
      environment, [.registered (.block name helper)])
  | .registerTemplate handle name renderer => do
    let environment ← session.environments[handle]?
    let renderer ← session.renderers[renderer]?
    return ({ session with
        workspace := session.workspace.register environment (.template name renderer.template) },
      environment, [.registered (.template name renderer.template)])
  | .registerSource handle name source => do
    let environment ← session.environments[handle]?
    let registered := session.workspace.registerSource environment name source
    return ({ session with workspace := registered.toOption.getD session.workspace },
      environment, session.workspace.registerSourceRecord environment name source)
  | .compile handle text => do
    let environment ← session.environments[handle]?
    let compiled := session.workspace.compile environment text
    return ({ session with renderers := session.renderers ++ compiled.toOption.toList },
      environment, [.consulted (session.workspace.configuration environment)])
  | .render handle data sink => do
    let renderer ← session.renderers[handle]?
    let outcome ← session.workspace.render renderer data sink
    return ({ session with workspace := outcome.workspace }, renderer.environment,
      session.workspace.renderRecord renderer data sink)

/-- Carries out operations one after the other, and gives the journal of what happens. -/
def run (session : Session) : List Operation → Option (Session × Journal)
  | [] => some (session, [])
  | operation :: operations => do
    let (next, environment, happened) ← session.step operation
    let (last, journal) ← next.run operations
    return (last, (happened.map fun happening => (environment, happening)) ++ journal)

/-- An operation that creates no configuration leads the configuration of one environment that is
held from one state to another. No other environment is held after it. -/
structure Advances (session next : Session) (environment : Environment)
    (happened : List Happening) : Prop where
  mem_held : environment ∈ session.held
  held_subset : next.held ⊆ session.held
  replays : ∃ after, Replays (session.workspace.configuration environment) happened after ∧
    next.workspace = session.workspace.setConfiguration environment after

variable {session next : Session} {environment : Environment} {happened : List Happening}

theorem mem_held_of_environment {handle : Nat}
    (h : session.environments[handle]? = some environment) : environment ∈ session.held :=
  List.mem_append_left _ (List.mem_of_getElem? h)

theorem advances_register (h : environment ∈ session.held) (entry : Registration) :
    session.Advances { session with workspace := session.workspace.register environment entry }
      environment [.registered entry] :=
  ⟨h, fun _ => id, _, .registered (.nil _), rfl⟩

theorem held_append_renderers (session : Session) (renderers : List Renderer) :
    ({ session with renderers := session.renderers ++ renderers } : Session).held =
      session.held ++ renderers.map Renderer.environment := by
  rw [held, held, List.map_append, List.append_assoc]

/-- Every operation but a creation advances the configuration of one environment. What a session
holds is only added to, by environments that share a configuration and by templates that are
compiled, and these are in environments that are held. -/
theorem advances_of_step {operation : Operation}
    (h : session.step operation = some (next, environment, happened))
    (hcreate : ∀ builtIns, operation ≠ .create builtIns) :
    session.Advances next environment happened := by
  cases operation with
  | create builtIns => exact (hcreate builtIns rfl).elim
  | share handle =>
    obtain ⟨_, hget, heq⟩ := Option.bind_eq_some_iff.1 h
    cases heq
    have hheld := mem_held_of_environment hget
    refine ⟨hheld, ?_, _, .nil _, (session.workspace.setConfiguration_self environment).symm⟩
    -- The new environment equals the one that it shares its configuration with.
    intro other hother
    simp only [held, List.append_assoc, List.mem_append, List.mem_singleton] at hother ⊢
    rcases hother with hmem | rfl | hmem
    · exact .inl hmem
    · exact List.mem_append.1 hheld
    · exact .inr hmem
  | registerHelper handle name helper =>
    obtain ⟨_, hget, heq⟩ := Option.bind_eq_some_iff.1 h
    cases heq
    exact advances_register (mem_held_of_environment hget) _
  | registerBlockHelper handle name helper =>
    obtain ⟨_, hget, heq⟩ := Option.bind_eq_some_iff.1 h
    cases heq
    exact advances_register (mem_held_of_environment hget) _
  | registerTemplate handle name renderer =>
    obtain ⟨_, hget, hrest⟩ := Option.bind_eq_some_iff.1 h
    obtain ⟨_, _, heq⟩ := Option.bind_eq_some_iff.1 hrest
    cases heq
    exact advances_register (mem_held_of_environment hget) _
  | registerSource handle name source =>
    obtain ⟨_, hget, heq⟩ := Option.bind_eq_some_iff.1 h
    cases heq
    exact ⟨mem_held_of_environment hget, fun _ => id,
      session.workspace.exists_replays_registerSource environment name source⟩
  | compile handle text =>
    obtain ⟨_, hget, heq⟩ := Option.bind_eq_some_iff.1 h
    cases heq
    have hheld := mem_held_of_environment hget
    refine ⟨hheld, ?_, _, .consulted (.nil _),
      (session.workspace.setConfiguration_self environment).symm⟩
    -- A text that compiles adds a template, in the environment that compiled it.
    intro other hother
    rw [held_append_renderers, List.mem_append] at hother
    rcases hother with hmem | hmem
    · exact hmem
    · obtain ⟨renderer, hmem, rfl⟩ := List.mem_map.1 hmem
      cases hcompile : session.workspace.compile environment text with
      | error error =>
        rw [hcompile] at hmem
        cases hmem
      | ok compiled =>
        obtain ⟨template, -, rfl⟩ := Workspace.compile_eq_ok.1 hcompile
        rw [hcompile] at hmem
        cases List.mem_singleton.1 hmem
        exact hheld
  | render handle data sink =>
    obtain ⟨renderer, hget, hrest⟩ := Option.bind_eq_some_iff.1 h
    obtain ⟨outcome, hrender, heq⟩ := Option.bind_eq_some_iff.1 hrest
    cases heq
    have hheld : renderer.environment ∈ session.held :=
      List.mem_append_right _ (List.mem_map_of_mem (List.mem_of_getElem? hget))
    exact ⟨hheld, fun _ => id, Workspace.exists_replays_render hrender⟩

/-- The journal tells all that happened to the configurations: each was created once, and what has
happened in its environment since then has led to its present state. -/
structure Traced (session : Session) (journal : Journal) : Prop where
  valid : ∀ environment ∈ session.held,
    environment.index < session.workspace.configurations.length
  traced : ∀ environment, environment.index < session.workspace.configurations.length →
    ∃ builtIns happened, journal.happeningsIn environment = .created builtIns :: happened ∧
      Replays (.initial builtIns) happened (session.workspace.configuration environment)
  fresh : ∀ environment, session.workspace.configurations.length ≤ environment.index →
    journal.happeningsIn environment = []

namespace Traced

variable {journal : Journal}

/-- A configuration that is created starts a journal of its own, with what it was created with. -/
theorem create (h : session.Traced journal) (builtIns : Bool) :
    Traced ⟨(session.workspace.create (.initial builtIns)).1,
        session.environments ++ [(session.workspace.create (.initial builtIns)).2],
        session.renderers⟩
      (journal ++ [Happening.created builtIns].map fun happening =>
        ((session.workspace.create (.initial builtIns)).2, happening)) := by
  have hlength : (session.workspace.create (.initial builtIns)).1.configurations.length =
      session.workspace.configurations.length + 1 := List.length_append
  constructor
  · intro asked hasked
    rw [hlength]
    simp only [held, List.append_assoc, List.mem_append, List.mem_singleton] at hasked
    rcases hasked with hmem | rfl | hmem
    · exact Nat.lt_succ_of_lt (h.valid asked (List.mem_append_left _ hmem))
    · exact Nat.lt_succ_self _
    · exact Nat.lt_succ_of_lt (h.valid asked (List.mem_append_right _ hmem))
  · intro asked hasked
    rw [hlength] at hasked
    rw [Journal.happeningsIn_append, Journal.happeningsIn_map]
    -- The configurations that were there keep their journal, and the new one begins its own.
    rcases Nat.lt_succ_iff_lt_or_eq.1 hasked with hold | hnew
    · obtain ⟨created, happened, hhappened, hreplays⟩ := h.traced asked hold
      rw [Workspace.configuration_create_of_lt hold, hhappened, if_neg, List.append_nil]
      · exact ⟨created, happened, rfl, hreplays⟩
      · rintro rfl
        exact (Nat.lt_irrefl _ hold).elim
    · obtain rfl : (session.workspace.create (.initial builtIns)).2 = asked :=
        congrArg Environment.mk hnew.symm
      rw [h.fresh _ hnew.ge, if_pos rfl, Workspace.configuration_create]
      exact ⟨builtIns, [], rfl, .nil _⟩
  · intro asked hasked
    rw [hlength] at hasked
    rw [Journal.happeningsIn_append, Journal.happeningsIn_map,
      h.fresh asked (Nat.le_of_succ_le hasked), if_neg]
    · rfl
    · rintro rfl
      exact Nat.not_succ_le_self _ hasked

/-- What happens in one configuration goes to the end of its journal and to no other. -/
theorem advance (h : session.Traced journal)
    (hadvances : session.Advances next environment happened) :
    next.Traced (journal ++ happened.map fun happening => (environment, happening)) := by
  obtain ⟨hheld, hsubset, after, hreplays, hnext⟩ := hadvances
  have hvalid := h.valid environment hheld
  have hlength : next.workspace.configurations.length =
      session.workspace.configurations.length := by
    rw [hnext, Workspace.setConfiguration, List.length_set]
  constructor
  · intro asked hasked
    rw [hlength]
    exact h.valid asked (hsubset hasked)
  · intro asked hasked
    rw [hlength] at hasked
    obtain ⟨builtIns, former, hformer, hbefore⟩ := h.traced asked hasked
    rw [Journal.happeningsIn_append, Journal.happeningsIn_map, hformer, hnext,
      Workspace.configuration_setConfiguration hvalid]
    -- Only in the configuration of the step has anything happened.
    split
    · next hsame =>
      subst hsame
      exact ⟨builtIns, former ++ happened, rfl, hbefore.append hreplays⟩
    · exact ⟨builtIns, former, by rw [List.append_nil], hbefore⟩
  · intro asked hasked
    rw [hlength] at hasked
    rw [Journal.happeningsIn_append, Journal.happeningsIn_map, h.fresh asked hasked, if_neg]
    · rfl
    · rintro rfl
      omega

/-- One operation adds what it does to the journal. -/
theorem step (h : session.Traced journal) {operation : Operation}
    (hstep : session.step operation = some (next, environment, happened)) :
    next.Traced (journal ++ happened.map fun happening => (environment, happening)) := by
  by_cases hcreate : ∃ builtIns, operation = .create builtIns
  · obtain ⟨builtIns, rfl⟩ := hcreate
    cases hstep
    exact h.create builtIns
  · exact h.advance (advances_of_step hstep fun builtIns heq => hcreate ⟨builtIns, heq⟩)

/-- A run adds what its operations do to the journal, in their order. -/
theorem run (h : session.Traced journal) {operations : List Operation} {last : Session}
    {later : Journal} (hrun : session.run operations = some (last, later)) :
    last.Traced (journal ++ later) := by
  induction operations generalizing session journal later with
  | nil =>
    cases hrun
    rwa [List.append_nil]
  | cons operation operations ih =>
    obtain ⟨⟨next, environment, happened⟩, hstep, hrest⟩ := Option.bind_eq_some_iff.1 hrun
    obtain ⟨⟨_, rest⟩, hlast, heq⟩ := Option.bind_eq_some_iff.1 hrest
    cases heq
    rw [← List.append_assoc]
    exact ih (h.step hstep) hlast

end Traced

end Session

end BraceTemplate
