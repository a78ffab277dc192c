import ActionFlow.Action.Basic
import ActionFlow.Definition.Size
import ActionFlow.Provider.Form

/-!
# Registries of action types

A registry says how an action of each type is built from its definition.  Four types are built in;
others are added with a way to make their logic.
-/
namespace ActionFlow

inductive DefinitionError where
  | unreadable (path reason : String)
  | json (path : String) (error : ReadError)
  | yaml (path : String) (error : ReadError)
  | unsupportedFormat (path : String)
  | unknownType (type key : String)
  | invalidProvider (error : FormError)
  | duplicateKey (key : String)
  | invalidValue (setting reason : String)

def ReadError.message : ReadError → String
  | flaw .truncated => "the text ends too early"
  | flaw .malformed => "the text is malformed"
  | mismatch m => m.message

def DefinitionError.message : DefinitionError → String
  | unreadable path reason => "failed to read file " ++ path ++ ": " ++ reason
  | json path error => "failed to parse JSON in " ++ path ++ ": " ++ error.message
  | yaml path error => "failed to parse YAML in " ++ path ++ ": " ++ error.message
  | unsupportedFormat path => "unsupported definition format: " ++ path
  | unknownType type key => "unknown action type '" ++ type ++ "' for action '" ++ key ++ "'"
  | invalidProvider ⟨form, flaw⟩ => "invalid provider '" ++ form ++ "': " ++ flaw.message
  | duplicateKey key => "duplicate action alias '" ++ key ++ "'"
  | invalidValue setting reason =>
    "invalid configuration value for '" ++ setting ++ "': " ++ reason

inductive Factory where
  | group
  | iterate
  | raiseError
  | setVariable
  | custom (make : ActionDefinition → Except DefinitionError Logic)

/-- The types of actions, each with the way to build it. -/
structure Registry where
  factories : Entries Factory

namespace Registry

def empty : Registry := ⟨[]⟩

def register (r : Registry) (type : String) (factory : Factory) : Registry :=
  ⟨Entries.put r.factories type factory⟩

def registerHandler (r : Registry) (handler : Handler) : Registry :=
  r.register handler.typeName (.custom fun _ => .ok (.external handler))

def builtIn : Registry :=
  ⟨[("group", .group), ("iterate", .iterate), ("raiseError", .raiseError),
    ("setVariable", .setVariable)]⟩

def contains (r : Registry) (type : String) : Bool := Entries.has r.factories type

def types (r : Registry) : List String :=
  (Entries.keys r.factories).mergeSort fun a b => a ≤ b

def describe (r : Registry) : String :=
  "ActionRegistry \x7b types: " ++ Text.quotedList r.types ++ " \x7d"

end Registry

namespace ActionDefinition

def required (d : ActionDefinition) (setting : String) : Except DefinitionError Json :=
  match d.setting? setting with
  | some j => .ok j
  | none => .error (.invalidValue (d.settingKey setting) "required setting is missing")

def flag (d : ActionDefinition) (setting : String) : Except DefinitionError Bool :=
  match d.setting? setting with
  | none => .ok false
  | some (.bool b) => .ok b
  | some j =>
    .error (.invalidValue (d.settingKey setting) ("expected true or false, found " ++ j.compact))

/-- The actions that are written in a setting; an absent one holds none. -/
def childActions (d : ActionDefinition) (setting : String) :
    Except DefinitionError (List ActionDefinition) :=
  match d.setting? setting with
  | none => .ok []
  | some j => (listOfJson j).mapError fun e => .invalidValue (d.settingKey setting) e.message

theorem sizeItems_childActions_lt {d : ActionDefinition} {setting : String}
    {actions : List ActionDefinition} (h : d.childActions setting = .ok actions) :
    sizeItems actions < d.size := by
  simp only [childActions] at h
  split at h
  · cases h
    simpa [sizeItems] using d.size_pos
  · next j hj =>
    have hlt := size_setting?_lt hj
    cases hl : listOfJson j with
    | error e =>
      rw [hl] at h
      cases h
    | ok values =>
      rw [hl] at h
      cases h
      have := sizeItems_listOfJson_le hl
      omega

end ActionDefinition

end ActionFlow
