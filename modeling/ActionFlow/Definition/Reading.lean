import ActionFlow.Definition.Basic

/-!
# Reading definitions

Definitions are read from drafts.  The declared fields of an action have types of their own, and
each may be there once; every other field is a setting, of which the last value counts.  An
automation and a condition with its fault may also be written as the sequence of their fields,
though not in YAML; an action may not.
-/
namespace ActionFlow

/-! ### Conditions with their faults -/

namespace ErrorConditionDefinition

structure Partial where
  condition : Option Json := none
  error : Option Json := none

/-- Reads one field; unknown ones are ignored. -/
def readField (origin : Origin) (p : Partial) (name : String) (d : Draft) :
    Except ReadError Partial :=
  match name with
  | "condition" => do .ok { p with condition := ← Draft.once p.condition name (d.readAny origin) }
  | "error" => do .ok { p with error := ← Draft.once p.error name (d.readAny origin) }
  | _ => do
    d.ignore
    .ok p

def ofPartial (p : Partial) : Except ReadError ErrorConditionDefinition := do
  let condition ← Draft.require p.condition "condition"
  let error ← Draft.require p.error "error"
  .ok ⟨condition, error⟩

def read (origin : Origin) (d : Draft) : Except ReadError ErrorConditionDefinition :=
  match d with
  | .object fields stop => do
    let inner ← origin.enter
    let p ← Draft.readFields (readField inner) {} fields
    Draft.readStop stop
    ofPartial p
  | .array items stop => do
    let expected := "struct ErrorConditionConfig with 2 elements"
    let inner ← origin.enterPlaces "struct ErrorConditionConfig"
    let (next, rest) ← Draft.nextItem items stop
    let condition ← Draft.readPlace 0 expected (Draft.readAny inner) next
    let (next, rest) ← Draft.nextItem rest stop
    let error ← Draft.readPlace 1 expected (Draft.readAny inner) next
    Draft.readEnd inner items.length rest stop
    .ok ⟨condition, error⟩
  | d => .error (d.unexpected "struct ErrorConditionConfig")

end ErrorConditionDefinition

/-! ### Actions -/

namespace ActionDefinition

structure Partial where
  type : Option String := none
  name : Option String := none
  key : Option String := none
  description : Option (Option String) := none
  asynchronous : Option Bool := none
  runCondition : Option (Option Json) := none
  before : Option (List ErrorConditionDefinition) := none
  after : Option (List ErrorConditionDefinition) := none
  errorActions : Option (List ActionDefinition) := none
  settings : Entries Json := []

def ofPartial (p : Partial) : Except ReadError ActionDefinition := do
  let type ← Draft.require p.type "type"
  let key ← Draft.require p.key "alias"
  .ok {
    type := type
    name := p.name.getD ""
    key := key
    description := p.description.getD none
    asynchronous := p.asynchronous.getD false
    runCondition := p.runCondition.getD none
    before := p.before.getD []
    after := p.after.getD []
    errorActions := p.errorActions.getD []
    settings := p.settings }

def readConditions (origin : Origin) (d : Draft) :
    Except ReadError (List ErrorConditionDefinition) :=
  d.readList origin ErrorConditionDefinition.read

def readField (origin : Origin) (p : Partial) (name : String) (d : Draft) :
    Except ReadError Partial :=
  match name with
  | "type" => do .ok { p with type := ← Draft.once p.type name d.readText }
  | "name" => do .ok { p with name := ← Draft.once p.name name d.readText }
  | "alias" => do .ok { p with key := ← Draft.once p.key name d.readText }
  | "description" => do
    .ok { p with description := ← Draft.once p.description name (d.readOptional Draft.readText) }
  | "asynchronous" => do
    .ok { p with asynchronous := ← Draft.once p.asynchronous name d.readBool }
  | "runCondition" => do
    .ok { p with
      runCondition := ← Draft.once p.runCondition name (d.readOptional (Draft.readAny origin)) }
  | "beforeRunErrorConditions" => do
    .ok { p with before := ← Draft.once p.before name (readConditions origin d) }
  | "afterRunErrorConditions" => do
    .ok { p with after := ← Draft.once p.after name (readConditions origin d) }
  | _ => do
    let value ← d.readSetting origin
    .ok { p with settings := Entries.put p.settings name value }

mutual
def read (origin : Origin) (d : Draft) : Except ReadError ActionDefinition :=
  match d with
  | .object fields stop => do
    let inner ← origin.enter
    let p ← readFields inner {} fields
    Draft.readStop stop
    ofPartial p
  | d => .error (d.unexpected "struct ActionConfig")

def readFields (origin : Origin) (p : Partial) (fields : List (Draft × Draft)) :
    Except ReadError Partial :=
  match fields with
  | [] => .ok p
  | (key, d) :: rest => do
    let name ← key.readText
    if name = "errorActions" then
      let actions ← Draft.once p.errorActions name (readList origin d)
      readFields origin { p with errorActions := actions } rest
    else
      let p ← readField origin p name d
      readFields origin p rest

def readList (origin : Origin) (d : Draft) : Except ReadError (List ActionDefinition) :=
  match d with
  | .array items stop => do
    let inner ← origin.enter
    let actions ← readItems inner items
    Draft.readStop stop
    .ok actions
  | .plain s => if s = "" then .ok [] else .error ((Draft.plain s).unexpected "a sequence")
  | d => .error (d.unexpected "a sequence")

def readItems (origin : Origin) (items : List Draft) : Except ReadError (List ActionDefinition) :=
  match items with
  | [] => .ok []
  | d :: rest => do
    let action ← read origin d
    let actions ← readItems origin rest
    .ok (action :: actions)
end

def ofJson (j : Json) : Except ReadError ActionDefinition := read .value (Draft.ofJson j)

def listOfJson (j : Json) : Except ReadError (List ActionDefinition) :=
  readList .value (Draft.ofJson j)

end ActionDefinition

/-! ### Automations -/

namespace Definition

structure Partial where
  name : Option String := none
  description : Option (Option String) := none
  actions : Option (List ActionDefinition) := none

def readField (origin : Origin) (p : Partial) (name : String) (d : Draft) :
    Except ReadError Partial :=
  match name with
  | "name" => do .ok { p with name := ← Draft.once p.name name d.readText }
  | "description" => do
    .ok { p with description := ← Draft.once p.description name (d.readOptional Draft.readText) }
  | "actions" => do
    .ok { p with actions := ← Draft.once p.actions name (ActionDefinition.readList origin d) }
  | _ => do
    d.ignore
    .ok p

def ofPartial (p : Partial) : Except ReadError Definition := do
  let name ← Draft.require p.name "name"
  .ok ⟨name, p.description.getD none, p.actions.getD []⟩

def read (origin : Origin) (d : Draft) : Except ReadError Definition :=
  match d with
  | .object fields stop => do
    let inner ← origin.enter
    let p ← Draft.readFields (readField inner) {} fields
    Draft.readStop stop
    ofPartial p
  | .array items stop => do
    let inner ← origin.enterPlaces "struct AutomationConfig"
    let (next, rest) ← Draft.nextItem items stop
    let name ← Draft.readPlace 0 "struct AutomationConfig with 3 elements" Draft.readText next
    let (next, rest) ← Draft.nextItem rest stop
    let description ← match next with
      | some d => d.readOptional Draft.readText
      | none => .ok none
    let (next, rest) ← Draft.nextItem rest stop
    let actions ← match next with
      | some d => ActionDefinition.readList inner d
      | none => .ok []
    Draft.readEnd inner items.length rest stop
    .ok ⟨name, description, actions⟩
  | d => .error (d.unexpected "struct AutomationConfig")

def ofJson (j : Json) : Except ReadError Definition := read .value (Draft.ofJson j)

end Definition

end ActionFlow
