import ActionFlow.Provider.Basic

/-!
# The written form of providers

A provider is written as an object whose one key names a form and whose one value holds the
arguments; everything else stands for itself as a constant.  `Form.every` lists the forms.  Values
and conditions are read by one function each, and each hands the forms of the other kind over: a
condition counts as a value by its truth value, and a value counts as a condition if it converts to
one.
-/
namespace ActionFlow

inductive Form where
  | constant
  | lookup
  | present
  | list
  | object
  | file
  | count
  | all
  | any
  | negation
  | text (op : TextOperator)
  | equal
  | compare (op : NumberOperator)
  deriving DecidableEq, Repr

namespace Form

def every : List Form :=
  [constant, lookup, present, list, object, file, count, all, any, negation,
    text .startsWith, text .endsWith, text .contains, text .equals, equal,
    compare .greaterThan, compare .greaterThanOrEqual, compare .lessThan,
    compare .lessThanOrEqual, compare .equal]

def name : Form → String
  | constant => "static"
  | lookup => "objectPathLookup"
  | present => "objectPathLookupExists"
  | list => "list"
  | object => "object"
  | file => "file"
  | count => "countList"
  | all => "and"
  | any => "or"
  | negation => "not"
  | text .startsWith => "textStartsWith"
  | text .endsWith => "textEndsWith"
  | text .contains => "textContains"
  | text .equals => "textEquals"
  | equal => "valueEquals"
  | compare .greaterThan => "numberGreaterThan"
  | compare .greaterThanOrEqual => "numberGreaterThanOrEqual"
  | compare .lessThan => "numberLessThan"
  | compare .lessThanOrEqual => "numberLessThanOrEqual"
  | compare .equal => "numberEquals"

def ofName? (s : String) : Option Form := every.find? fun form => form.name = s

end Form

inductive FormFlaw where
  | noObject
  | noList
  | noText
  | noPath
  | missing (key : String)
  | invalidPropertyName
  | blankCode
  deriving DecidableEq, Repr

def FormFlaw.message : FormFlaw → String
  | noObject => "expected an object"
  | noList => "expected a list"
  | noText => "expected a string"
  | noPath => "expected a path or \x7bpath, default\x7d"
  | missing key => "missing '" ++ key ++ "'"
  | invalidPropertyName => invalidNameMessage
  | blankCode => "error code must not be empty"

structure FormError where
  form : String
  flaw : FormFlaw
  deriving DecidableEq, Repr

namespace Form

/-- Whether the form stands for a condition and not for a value. -/
def isCondition : Form → Bool
  | constant | lookup | list | object | file | count => false
  | present | all | any | negation | text _ | equal | compare _ => true

/-- A form with its arguments, which are part of a configuration. -/
structure Call (config : Json) where
  form : Form
  args : Json
  smaller : args.size < config.size

theorem size_lt_size_call (key : String) (args : Json) :
    args.size < (Json.object [(key, args)]).size := by
  simp only [Json.size, Json.sizeFields]
  omega

/-- The form that a configuration calls. -/
def call? (config : Json) : Option (Call config) :=
  match config with
  | .object [(key, args)] => (ofName? key).map fun form => ⟨form, args, size_lt_size_call key args⟩
  | _ => none

/-! ### Arguments -/

def pathOf (form : Form) (args : Json) : Except FormError Path :=
  match args with
  | .text s => .ok (.parse s)
  | _ => .error ⟨form.name, .noText⟩

/-- The lookup that is written as a path, or as an object with a path and a default. -/
def lookupOf (args : Json) : Except FormError Provider :=
  match args with
  | .text s => .ok (.lookup (.parse s) none)
  | .object fields =>
    match Entries.find? fields "path" with
    | none => .error ⟨lookup.name, .missing "path"⟩
    | some path => do
      let path ← pathOf lookup path
      .ok (.lookup path ((Entries.find? fields "default").map .ofJson))
  | _ => .error ⟨lookup.name, .noPath⟩

/-- Named arguments, with what is read of each. -/
abbrev Arguments := Entries (Except FormError Provider)

def needed (form : Form) (arguments : Arguments) (key : String) : Except FormError Provider :=
  match Entries.find? arguments key with
  | none => .error ⟨form.name, .missing key⟩
  | some result => result

def fileOf (arguments : Arguments) : Except FormError Provider := do
  let name ← needed file arguments "fileName"
  let content ← needed file arguments "content"
  .ok (.file name content)

def textOf (op : TextOperator) (fields : Entries Json) (arguments : Arguments) :
    Except FormError Condition := do
  let left ← needed (text op) arguments "text"
  let right ← needed (text op) arguments "value"
  .ok (.text op left right (((Entries.find? fields "ignoreCase").bind Json.bool?).getD false))

def operandsOf (form : Form) (make : Provider → Provider → Condition) (arguments : Arguments) :
    Except FormError Condition := do
  let left ← needed form arguments "left"
  let right ← needed form arguments "right"
  .ok (make left right)

/-- The properties of an object, of which the first that cannot be read decides. -/
def propertiesOf : Arguments → Except FormError (Entries Provider)
  | [] => .ok []
  | (key, result) :: rest => do
    let p ← result
    let properties ← propertiesOf rest
    .ok ((key, p) :: properties)

def objectOf (arguments : Arguments) : Except FormError Provider := do
  let properties ← propertiesOf arguments
  if properties.all fun (key, _) => isPropertyName key then .ok (.object properties)
  else .error ⟨object.name, .invalidPropertyName⟩

end Form

-- A call of a form of the other kind is handed over as it is: the forms that each reading knows of
-- its own are those that the other one hands over.
mutual
/-- Reads where a value comes from; a condition counts by its truth value. -/
def Provider.ofJson (config : Json) : Except FormError Provider :=
  match Form.call? config with
  | none => .ok (.constant (.ofJson config))
  | some call => Provider.ofCall call.form call.args
termination_by (config.size, 0)
decreasing_by
  exact Prod.Lex.left _ _ call.smaller

def Provider.ofCall (form : Form) (args : Json) : Except FormError Provider :=
  match form, args with
  | .constant, args => .ok (.constant (.ofJson args))
  | .lookup, args => Form.lookupOf args
  | .list, .array items => (Provider.ofItems items).map .list
  | .list, _ => .error ⟨Form.list.name, .noList⟩
  | .object, .object fields => Form.objectOf (Provider.ofFields fields)
  | .object, _ => .error ⟨Form.object.name, .noObject⟩
  | .file, .object fields => Form.fileOf (Provider.ofFields fields)
  | .file, _ => .error ⟨Form.file.name, .noObject⟩
  | .count, args => (Provider.ofJson args).map .count
  | form@.present, args | form@.all, args | form@.any, args | form@.negation, args
  | form@(.text _), args | form@.equal, args | form@(.compare _), args =>
    (Condition.ofCall form args).map .condition
termination_by (args.size, if form.isCondition then 3 else 2)
decreasing_by
  all_goals grind [Form.isCondition, Json.size]

def Provider.ofItems : List Json → Except FormError (List Provider)
  | [] => .ok []
  | config :: rest => do
    let p ← Provider.ofJson config
    let providers ← Provider.ofItems rest
    .ok (p :: providers)
termination_by items => (Json.sizeItems items, 4)
decreasing_by
  all_goals grind [Json.size_pos, Json.sizeItems]

/-- Reads fields, each on its own. -/
def Provider.ofFields : Entries Json → Form.Arguments
  | [] => []
  | (key, config) :: rest => (key, Provider.ofJson config) :: Provider.ofFields rest
termination_by fields => (Json.sizeFields fields, 4)
decreasing_by
  all_goals grind [Json.size_pos, Json.sizeFields]

/-- Reads a condition; a value counts if it converts to a truth value. -/
def Condition.ofJson (config : Json) : Except FormError Condition :=
  match Form.call? config with
  | none => (Provider.ofJson config).map .typed
  | some call => Condition.ofCall call.form call.args
termination_by (config.size, 1)
decreasing_by
  · exact Prod.Lex.right _ (by omega)
  · exact Prod.Lex.left _ _ call.smaller

def Condition.ofCall (form : Form) (args : Json) : Except FormError Condition :=
  match form, args with
  | .present, args => (Form.pathOf .present args).map .present
  | .all, .array items => (Condition.ofItems items).map .all
  | .all, _ => .error ⟨Form.all.name, .noList⟩
  | .any, .array items => (Condition.ofItems items).map .any
  | .any, _ => .error ⟨Form.any.name, .noList⟩
  | .negation, args => (Condition.ofJson args).map .negation
  | .text op, .object fields => Form.textOf op fields (Provider.ofFields fields)
  | .text op, _ => .error ⟨(Form.text op).name, .noObject⟩
  | .equal, .object fields => Form.operandsOf .equal .equal (Provider.ofFields fields)
  | .equal, _ => .error ⟨Form.equal.name, .noObject⟩
  | .compare op, .object fields =>
    Form.operandsOf (.compare op) (.compare op) (Provider.ofFields fields)
  | .compare op, _ => .error ⟨(Form.compare op).name, .noObject⟩
  | form@.constant, args | form@.lookup, args | form@.list, args | form@.object, args
  | form@.file, args | form@.count, args => (Provider.ofCall form args).map .typed
termination_by (args.size, if form.isCondition then 2 else 3)
decreasing_by
  all_goals grind [Form.isCondition, Json.size]

def Condition.ofItems : List Json → Except FormError (List Condition)
  | [] => .ok []
  | config :: rest => do
    let c ← Condition.ofJson config
    let conditions ← Condition.ofItems rest
    .ok (c :: conditions)
termination_by items => (Json.sizeItems items, 4)
decreasing_by
  all_goals grind [Json.size_pos, Json.sizeItems]
end

/-- Reads where an integer comes from; a count is used directly. -/
def IntegerProvider.ofJson (config : Json) : Except FormError IntegerProvider :=
  match Form.call? config with
  | some ⟨.count, args, _⟩ => (Provider.ofJson args).map .count
  | _ => (Provider.ofJson config).map .typed

namespace FaultProvider

def formName : String := "configuredError"

def optional (fields : Entries Json) (key : String) : Except FormError (Option Provider) :=
  match Entries.find? fields key with
  | none => .ok none
  | some config => (Provider.ofJson config).map some

def needed (fields : Entries Json) (key : String) : Except FormError Provider :=
  match Entries.find? fields key with
  | none => .error ⟨formName, .missing key⟩
  | some config => Provider.ofJson config

def checkCode (fields : Entries Json) : Except FormError Unit :=
  match (Entries.find? fields "code").bind Json.text? with
  | some code => if Text.isBlankText code then .error ⟨formName, .blankCode⟩ else .ok ()
  | none => .ok ()

def ofJson (config : Json) : Except FormError FaultProvider :=
  match config with
  | .object fields => do
    checkCode fields
    let code ← needed fields "code"
    let title ← needed fields "title"
    let message ← needed fields "message"
    let status ← needed fields "httpStatusCode"
    let details ← optional fields "additionalDetails"
    let data ← optional fields "data"
    .ok ⟨code, title, message, status, details, data⟩
  | _ => .error ⟨formName, .noObject⟩

end FaultProvider

end ActionFlow
