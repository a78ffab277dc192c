import ActionFlow.Provider.Basic
import ActionFlow.Record.Basic

/-!
# Actions

An action has settings that every action has, a kind, and error actions, which run when it fails.
Groups and iterations hold further actions, so that an automation is a list of trees.  Nothing here
changes during a run; what changes is in records and in the context.
-/
namespace ActionFlow

structure ErrorCondition where
  condition : Condition
  fault : FaultProvider

structure Head where
  name : String
  key : String
  description : Option String := none
  /-- For information only: whether actions run side by side is up to their group. -/
  asynchronous : Bool := false
  runCondition : Option Condition := none
  before : List ErrorCondition := []
  after : List ErrorCondition := []

/-! ### Handlers -/

inductive HandlerError where
  | fault (fault : Fault)
  | unexpected (reason : String)
  | panicked (panic : Panic)

def HandlerError.toFault (key : String) : HandlerError → Fault
  | fault f => f
  | unexpected reason => .actionFailed key reason
  | panicked panic =>
    .actionFailed key ("handler panicked: " ++ panic.text.getD "unknown panic")

structure Reply where
  output : Option Value
  result : Except HandlerError Unit
  context : Context
  notes : List String

/-- An action of a type that is not built in. -/
structure Handler where
  typeName : String
  readOnly : Bool
  handle : Context → Reply

/-! ### Kinds -/

inductive Logic where
  | raiseError (fault : FaultProvider)
  | setVariable (property : Provider) (path : Option Provider) (value : Provider)
  | external (handler : Handler)

structure Loop where
  list : Provider
  startIndex : Option IntegerProvider := none
  endIndex : Option IntegerProvider := none
  reverse : Option Condition := none
  /-- Checked after each iteration; the first time that it does not hold ends the loop. -/
  doWhile : Option Condition := none

/-- The kinds of actions; `α` is the type of the actions inside. -/
inductive Kind (α : Type) where
  | group (parallel : Bool) (actions : List α)
  | iterate (loop : Loop) (actions : List α)
  | simple (logic : Logic)

/-- An action with everything inside it. -/
structure Action where
  head : Head
  kind : Kind Action
  errorActions : List Action

/-- A named list of actions that run one after another. -/
structure Automation where
  name : String
  actions : List Action

def Kind.typeName {α : Type} : Kind α → String
  | group _ _ => "group"
  | iterate _ _ => "iterate"
  | simple (.raiseError _) => "raiseError"
  | simple (.setVariable _ _ _) => "setVariable"
  | simple (.external handler) => handler.typeName

def Kind.detail {α : Type} : Kind α → Detail Record
  | group parallel _ => .group parallel []
  | iterate _ _ => .iterate {} []
  | simple (.raiseError _) => .raiseError
  | simple (.setVariable _ _ _) => .setVariable {}
  | simple (.external _) => .external none

def Logic.isReadOnly : Logic → Bool
  | raiseError _ | setVariable _ _ _ => true
  | external handler => handler.readOnly

namespace Action

def key (a : Action) : String := a.head.key

def freshRecord (a : Action) : Record :=
  .fresh a.head.name a.head.key a.kind.typeName a.kind.detail

mutual
def isReadOnly (a : Action) : Bool :=
  match a with
  | ⟨_, kind, errorActions⟩ => kindIsReadOnly kind && allReadOnly errorActions

def kindIsReadOnly (kind : Kind Action) : Bool :=
  match kind with
  | .group _ actions => allReadOnly actions
  | .iterate _ actions => allReadOnly actions
  | .simple logic => logic.isReadOnly

def allReadOnly (actions : List Action) : Bool :=
  match actions with
  | [] => true
  | a :: rest => isReadOnly a && allReadOnly rest
end

end Action

def Automation.isReadOnly (a : Automation) : Bool := Action.allReadOnly a.actions

def repeatedKey? (seen : List String) : List String → Option String
  | [] => none
  | key :: rest => if key ∈ seen then some key else repeatedKey? (key :: seen) rest

def duplicateKey? (actions : List Action) : Option String :=
  repeatedKey? [] (actions.map Action.key)

end ActionFlow
