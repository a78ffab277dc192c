import ActionFlow.Definition.Registry

/-!
# Building actions

An action is built from its definition by the factory of its type.  Siblings must have different
keys, at every depth, and no key may be blank.  The parts of an action are built in the order in
which the functions here name them, and the first that cannot be built decides.
-/
namespace ActionFlow.Registry

def reading {α : Type} (result : Except FormError α) : Except DefinitionError α :=
  result.mapError .invalidProvider

def optionally {α : Type} (j : Option Json) (read : Json → Except FormError α) :
    Except DefinitionError (Option α) :=
  match j with
  | none => .ok none
  | some j => (reading (read j)).map some

def errorCondition (d : ErrorConditionDefinition) : Except DefinitionError ErrorCondition := do
  let condition ← reading (Condition.ofJson d.condition)
  let fault ← reading (FaultProvider.ofJson d.error)
  .ok ⟨condition, fault⟩

def errorConditions : List ErrorConditionDefinition → Except DefinitionError (List ErrorCondition)
  | [] => .ok []
  | d :: rest => do
    let condition ← errorCondition d
    let conditions ← errorConditions rest
    .ok (condition :: conditions)

def loop (d : ActionDefinition) : Except DefinitionError Loop := do
  let list ← reading (Provider.ofJson (← d.required "list"))
  let first ← optionally (d.setting? "startIndex") IntegerProvider.ofJson
  let last ← optionally (d.setting? "endIndex") IntegerProvider.ofJson
  let reverse ← optionally (d.setting? "reverse") Condition.ofJson
  let doWhile ← optionally (d.setting? "doWhile") Condition.ofJson
  .ok ⟨list, first, last, reverse, doWhile⟩

def raising (d : ActionDefinition) : Except DefinitionError Logic := do
  let fault ← reading (FaultProvider.ofJson (← d.required "error"))
  .ok (.raiseError fault)

/-- Refuses a written name that is not the name of a property. -/
def checkProperty (d : ActionDefinition) (property : Json) : Except DefinitionError Unit :=
  match property.text? with
  | some name =>
    if isPropertyName name then .ok ()
    else .error (.invalidValue (d.settingKey "propertyName") invalidNameMessage)
  | none => .ok ()

def assigning (d : ActionDefinition) : Except DefinitionError Logic := do
  let property ← d.required "propertyName"
  checkProperty d property
  let value ← optionally (d.setting? "value") Provider.ofJson
  let property ← reading (Provider.ofJson property)
  let path ← optionally (d.setting? "path") Provider.ofJson
  .ok (.setVariable property path (value.getD (.constant .null)))

def distinct (actions : List Action) : Except DefinitionError (List Action) :=
  match duplicateKey? actions with
  | some key => .error (.duplicateKey key)
  | none => .ok actions

def checkKey (d : ActionDefinition) : Except DefinitionError Unit :=
  if Text.isBlankText d.key then
    .error (.invalidValue (d.type ++ ".alias") "alias must not be empty")
  else .ok ()

mutual
def build (r : Registry) (d : ActionDefinition) : Except DefinitionError Action := do
  checkKey d
  let kind ← buildKind r d
  let runCondition ← optionally d.runCondition Condition.ofJson
  let before ← errorConditions d.before
  let after ← errorConditions d.after
  let errorActions ← buildItems r d.errorActions
  let errorActions ← distinct errorActions
  .ok ⟨⟨d.displayName, d.key, d.description, d.asynchronous, runCondition, before, after⟩,
    kind, errorActions⟩
termination_by (d.size, 1)
decreasing_by
  · exact Prod.Lex.right _ (by omega)
  · have := d.size_eq
    exact Prod.Lex.left _ _ (by omega)

def buildKind (r : Registry) (d : ActionDefinition) : Except DefinitionError (Kind Action) :=
  match Entries.find? r.factories d.type with
  | none => .error (.unknownType d.type d.key)
  | some .group =>
    match _h : d.childActions "actions" with
    | .error e => .error e
    | .ok children => do
      let actions ← buildItems r children
      let actions ← distinct actions
      let parallel ← d.flag "parallel"
      .ok (.group parallel actions)
  | some .iterate =>
    match _h : d.childActions "actions" with
    | .error e => .error e
    | .ok children => do
      let actions ← buildItems r children
      let actions ← distinct actions
      let loop ← loop d
      .ok (.iterate loop actions)
  | some .raiseError => (raising d).map .simple
  | some .setVariable => (assigning d).map .simple
  | some (.custom make) => (make d).map .simple
termination_by (d.size, 0)
decreasing_by
  all_goals
    have := ActionDefinition.sizeItems_childActions_lt _h
    exact Prod.Lex.left _ _ (by omega)

def buildItems (r : Registry) (definitions : List ActionDefinition) :
    Except DefinitionError (List Action) :=
  match definitions with
  | [] => .ok []
  | d :: rest => do
    let action ← build r d
    let actions ← buildItems r rest
    .ok (action :: actions)
termination_by (ActionDefinition.sizeItems definitions, 2)
decreasing_by
  · simp only [ActionDefinition.sizeItems]
    by_cases h : ActionDefinition.sizeItems rest = 0
    · simp only [h, Nat.add_zero]
      exact Prod.Lex.right _ (by omega)
    · exact Prod.Lex.left _ _ (by omega)
  · have := d.size_pos
    simp only [ActionDefinition.sizeItems]
    exact Prod.Lex.left _ _ (by omega)
end

def buildSiblings (r : Registry) (definitions : List ActionDefinition) :
    Except DefinitionError (List Action) := do
  distinct (← buildItems r definitions)

def buildAutomation (r : Registry) (d : Definition) : Except DefinitionError Automation := do
  let actions ← r.buildSiblings d.actions
  .ok ⟨d.name, actions⟩

end ActionFlow.Registry
