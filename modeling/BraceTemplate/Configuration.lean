import BraceTemplate.Helper.BuiltIn
import BraceTemplate.Template

/-! # Configurations

The registries that a template is read and rendered with: inline helpers, block helpers and
partials. Under each name, each registry holds what was registered there last.
-/

namespace BraceTemplate

/-- An entry for one of the registries. -/
inductive Registration where
  | inline (name : String) (helper : InlineHelper)
  | block (name : String) (helper : BlockHelper)
  | template (name : String) (template : Template)

/-- The registries of helpers and partials. -/
structure Configuration where
  inlineHelpers : Table InlineHelper
  blockHelpers : Table BlockHelper
  partials : Table Template
  deriving Inhabited

namespace Configuration

/-- The configuration in which nothing is registered. -/
def empty : Configuration := ⟨[], [], []⟩

/-- The configuration with the built-in helpers. -/
def builtIn : Configuration := ⟨BuiltIn.inlineHelpers, BuiltIn.blockHelpers, []⟩

/-- Registers an entry, in place of the one of its kind and name that was there. -/
def register (configuration : Configuration) : Registration → Configuration
  | .inline name helper =>
    { configuration with inlineHelpers := configuration.inlineHelpers.insert name helper }
  | .block name helper =>
    { configuration with blockHelpers := configuration.blockHelpers.insert name helper }
  | .template name template =>
    { configuration with partials := configuration.partials.insert name template }

/-! ## Looking up -/

/-- The inline helper under a name. -/
def findInline? (configuration : Configuration) (name : String) : Option InlineHelper :=
  configuration.inlineHelpers.find? name

/-- The block helper under a name. -/
def findBlock? (configuration : Configuration) (name : String) : Option BlockHelper :=
  configuration.blockHelpers.find? name

/-- The partial under a name. -/
def findPartial? (configuration : Configuration) (name : String) : Option Template :=
  configuration.partials.find? name

/-- Whether there is an inline helper of a name. -/
def hasInline (configuration : Configuration) (name : String) : Bool :=
  (configuration.findInline? name).isSome

/-- Whether there is a block helper of a name. -/
def hasBlock (configuration : Configuration) (name : String) : Bool :=
  (configuration.findBlock? name).isSome

/-- Whether there is a partial of a name. -/
def hasPartial (configuration : Configuration) (name : String) : Bool :=
  (configuration.findPartial? name).isSome

/-- Whether a name is registered as a helper of either convention. -/
def isRegistered (configuration : Configuration) (name : String) : Bool :=
  configuration.hasInline name || configuration.hasBlock name

/-- The error of calling an inline helper that is not there. -/
def noInline (configuration : Configuration) (name : String) : Error :=
  if configuration.hasBlock name then .helper name .onlyBlock else .missingHelper name

/-- The error of opening a block with a block helper that is not there. -/
def noBlock (configuration : Configuration) (name : String) : Error :=
  if configuration.hasInline name then .helper name .onlyInline else .missingHelper name

/-- The names in the registries, as a diagnostic text. -/
def describe (configuration : Configuration) : String :=
  "Configuration \x7b helpers: " ++ Text.quotedList configuration.inlineHelpers.keys ++
    ", block_helpers: " ++ Text.quotedList configuration.blockHelpers.keys ++
    ", templates: " ++ Text.quotedList configuration.partials.keys ++ " \x7d"

/-! ## Lemmas -/

@[simp] theorem findInline?_register_inline (configuration : Configuration) (name : String)
    (helper : InlineHelper) (asked : String) :
    (configuration.register (.inline name helper)).findInline? asked =
      if name = asked then some helper else configuration.findInline? asked :=
  Table.find?_insert _ _ _ _

@[simp] theorem findInline?_register_block (configuration : Configuration) (name : String)
    (helper : BlockHelper) (asked : String) :
    (configuration.register (.block name helper)).findInline? asked =
      configuration.findInline? asked := rfl

@[simp] theorem findInline?_register_template (configuration : Configuration) (name : String)
    (template : Template) (asked : String) :
    (configuration.register (.template name template)).findInline? asked =
      configuration.findInline? asked := rfl

@[simp] theorem findBlock?_register_block (configuration : Configuration) (name : String)
    (helper : BlockHelper) (asked : String) :
    (configuration.register (.block name helper)).findBlock? asked =
      if name = asked then some helper else configuration.findBlock? asked :=
  Table.find?_insert _ _ _ _

@[simp] theorem findBlock?_register_inline (configuration : Configuration) (name : String)
    (helper : InlineHelper) (asked : String) :
    (configuration.register (.inline name helper)).findBlock? asked =
      configuration.findBlock? asked := rfl

@[simp] theorem findBlock?_register_template (configuration : Configuration) (name : String)
    (template : Template) (asked : String) :
    (configuration.register (.template name template)).findBlock? asked =
      configuration.findBlock? asked := rfl

@[simp] theorem findPartial?_register_template (configuration : Configuration) (name : String)
    (template : Template) (asked : String) :
    (configuration.register (.template name template)).findPartial? asked =
      if name = asked then some template else configuration.findPartial? asked :=
  Table.find?_insert _ _ _ _

@[simp] theorem findPartial?_register_inline (configuration : Configuration) (name : String)
    (helper : InlineHelper) (asked : String) :
    (configuration.register (.inline name helper)).findPartial? asked =
      configuration.findPartial? asked := rfl

@[simp] theorem findPartial?_register_block (configuration : Configuration) (name : String)
    (helper : BlockHelper) (asked : String) :
    (configuration.register (.block name helper)).findPartial? asked =
      configuration.findPartial? asked := rfl

end Configuration

end BraceTemplate
