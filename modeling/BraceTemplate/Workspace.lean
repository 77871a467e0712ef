import BraceTemplate.MergedContext
import BraceTemplate.Render
import BraceTemplate.Source

/-! # Workspaces

A workspace holds configurations that environments share. Templates are compiled in an
environment and rendered with its configuration as it is at the time; a template registered as
a partial is rendered with the configuration of the template that refers to it.
-/

namespace BraceTemplate

/-- A view of one configuration of a workspace. Equal environments share their registries. -/
structure Environment where
  index : Nat
  deriving Repr, DecidableEq, Inhabited

/-- A compiled template, with the environment whose configuration it is rendered with. -/
structure Renderer where
  template : Template
  environment : Environment
  deriving Repr, Inhabited

/-- A compiled template as a diagnostic text. -/
def Renderer.describe (_ : Renderer) : String :=
  "Renderer \x7b .. \x7d"

/-- The configurations that exist. -/
structure Workspace where
  configurations : List Configuration
  deriving Inhabited

namespace Workspace

/-- The workspace without configurations. -/
def empty : Workspace := ⟨[]⟩

/-- Adds a configuration and gives an environment over it. -/
def create (workspace : Workspace) (configuration : Configuration) : Workspace × Environment :=
  (⟨workspace.configurations ++ [configuration]⟩, ⟨workspace.configurations.length⟩)

/-- The configuration of an environment. -/
def configuration (workspace : Workspace) (environment : Environment) : Configuration :=
  workspace.configurations[environment.index]?.getD .empty

/-- Replaces the configuration of an environment, and so of all that share it. -/
def setConfiguration (workspace : Workspace) (environment : Environment)
    (configuration : Configuration) : Workspace :=
  ⟨workspace.configurations.set environment.index configuration⟩

/-- Registers an entry in an environment, and so in all that share its configuration. -/
def register (workspace : Workspace) (environment : Environment) (entry : Registration) :
    Workspace :=
  workspace.setConfiguration environment
    ((workspace.configuration environment).register entry)

/-- A configuration that is replaced is replaced for the environments that share it alone. -/
theorem configuration_setConfiguration {workspace : Workspace} {environment : Environment}
    (h : environment.index < workspace.configurations.length) (configuration : Configuration)
    (asked : Environment) :
    (workspace.setConfiguration environment configuration).configuration asked =
      if environment = asked then configuration else workspace.configuration asked := by
  obtain ⟨index⟩ := environment
  obtain ⟨other⟩ := asked
  simp only [setConfiguration, Workspace.configuration, Environment.mk.injEq]
  by_cases hsame : index = other
  · subst hsame
    simp [h]
  · simp [hsame]

/-- A new environment has the configuration it was created with. -/
theorem configuration_create (workspace : Workspace) (configuration : Configuration) :
    (workspace.create configuration).1.configuration (workspace.create configuration).2 =
      configuration := by
  simp [create, Workspace.configuration]

/-! ## Compiling -/

/-- Compiles a template in an environment. -/
def compile (workspace : Workspace) (environment : Environment) (text : String) :
    Except Error Renderer := do
  let template ← Template.read (workspace.configuration environment).isRegistered text
  return ⟨template, environment⟩

/-- Compiles a template that is read from a source. -/
def compileSource (workspace : Workspace) (environment : Environment) (source : Source) :
    Except Error Renderer := do
  workspace.compile environment (← source.read)

/-- Compiles a template and registers it as a partial. -/
def registerSource (workspace : Workspace) (environment : Environment) (name text : String) :
    Except Error Workspace := do
  let renderer ← workspace.compile environment text
  return workspace.register environment (.template name renderer.template)

/-! ## Running -/

/-- The end of a run: how it went, what the sink holds, and the workspace after it. -/
structure Outcome where
  result : Except Error Unit
  sink : Sink
  workspace : Workspace

/-- Runs something with the configuration of an environment, and keeps what it registers. -/
def run (workspace : Workspace) (environment : Environment) (sink : Sink)
    (action : Render Unit) : Option Outcome := do
  let (result, state) ← action ⟨sink, workspace.configuration environment⟩
  return ⟨result, state.sink, workspace.setConfiguration environment state.configuration⟩

/-- Renders data into a sink. -/
def render (workspace : Workspace) (renderer : Renderer) (data : Value) (sink : Sink) :
    Option Outcome :=
  workspace.run renderer.environment sink
    (renderer.template.render partialDepth (.root data))

/-- Renders a merged context into a sink. -/
def renderMerged (workspace : Workspace) (renderer : Renderer) (merged : MergedContext)
    (sink : Sink) : Option Outcome :=
  workspace.render renderer merged.toValue sink

/-- Calls an inline helper outside of any template. -/
def callInline (workspace : Workspace) (environment : Environment) (helper : InlineHelper)
    (frame : Frame) (arguments : List Value) (sink : Sink) : Option Outcome :=
  workspace.run environment sink ((helper frame arguments).run frame fun _ _ => pure ())

end Workspace

end BraceTemplate
