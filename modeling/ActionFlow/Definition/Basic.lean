import ActionFlow.Document.Shape

/-!
# Definitions

A definition is an automation as a document has it.  The settings that belong to the type of an
action stay as they are until the action is built.
-/
namespace ActionFlow

structure ErrorConditionDefinition where
  condition : Json
  error : Json

structure ActionDefinition where
  type : String
  /-- The name for people; without one the key serves. -/
  name : String
  key : String
  description : Option String
  asynchronous : Bool
  runCondition : Option Json
  before : List ErrorConditionDefinition
  after : List ErrorConditionDefinition
  errorActions : List ActionDefinition
  settings : List (String × Json)

structure Definition where
  name : String
  description : Option String
  actions : List ActionDefinition

/-! ### JSON form -/

def Json.optionalField (key : String) : Option Json → List (String × Json)
  | none => []
  | some j => [(key, j)]

def Json.listField (key : String) : List Json → List (String × Json)
  | [] => []
  | items => [(key, .array items)]

def ErrorConditionDefinition.toJson (d : ErrorConditionDefinition) : Json :=
  .object [("condition", d.condition), ("error", d.error)]

namespace ActionDefinition

mutual
def toJson (d : ActionDefinition) : Json :=
  match d with
  | ⟨type, name, key, description, asynchronous, runCondition, before, after, errorActions,
      settings⟩ =>
    .object <|
      [("type", .text type), ("name", .text name), ("alias", .text key)] ++
      Json.optionalField "description" (description.map .text) ++
      [("asynchronous", .bool asynchronous)] ++
      Json.optionalField "runCondition" runCondition ++
      Json.listField "beforeRunErrorConditions" (before.map ErrorConditionDefinition.toJson) ++
      Json.listField "afterRunErrorConditions" (after.map ErrorConditionDefinition.toJson) ++
      Json.listField "errorActions" (toJsonItems errorActions) ++
      settings

def toJsonItems (definitions : List ActionDefinition) : List Json :=
  match definitions with
  | [] => []
  | d :: rest => toJson d :: toJsonItems rest
end

mutual
/-- A measure that is larger for an action than for any action written inside it. -/
def size (d : ActionDefinition) : Nat :=
  match d with
  | ⟨_, _, _, _, _, _, _, _, errorActions, settings⟩ =>
    1 + Json.sizeFields settings + sizeItems errorActions

def sizeItems (definitions : List ActionDefinition) : Nat :=
  match definitions with
  | [] => 0
  | d :: rest => size d + sizeItems rest
end

theorem size_eq (d : ActionDefinition) :
    d.size = 1 + Json.sizeFields d.settings + sizeItems d.errorActions := by
  cases d
  simp only [size]

theorem size_pos (d : ActionDefinition) : 0 < d.size := by
  rw [size_eq]
  omega

/-! ### Settings -/

def displayName (d : ActionDefinition) : String := if d.name = "" then d.key else d.name

def settingKey (d : ActionDefinition) (setting : String) : String := d.key ++ "." ++ setting

/-- A setting; null counts as absent. -/
def setting? (d : ActionDefinition) (setting : String) : Option Json :=
  (Entries.find? d.settings setting).filter fun j => !j.isNull

theorem size_setting?_lt {d : ActionDefinition} {setting : String} {j : Json}
    (h : d.setting? setting = some j) : j.size < d.size := by
  have hf := (Option.filter_eq_some_iff.1 h).1
  have := Json.size_le_sizeFields hf
  rw [size_eq]
  omega

end ActionDefinition

def Definition.toJson (d : Definition) : Json :=
  .object <|
    [("name", .text d.name)] ++ Json.optionalField "description" (d.description.map .text) ++
      [("actions", .array (ActionDefinition.toJsonItems d.actions))]

end ActionFlow
