import ActionFlow.Document.Shape

/-!
# Stages of an action

The stages that one execution of an action goes through, and the moves between them.  The regular
course is not started, started, checked before, running, checked after, completed; a started action
may be skipped, and one that fails is completed from wherever it is before the last check.  Skipped
and completed are final.
-/
namespace ActionFlow

inductive Stage where
  | notStarted
  | started
  | skipped
  | beforeRunErrorChecking
  | running
  | afterRunErrorChecking
  | completed
  deriving DecidableEq, Repr, Inhabited

namespace Stage

/-- All stages, in the order in which messages list them. -/
def all : List Stage :=
  [notStarted, started, skipped, beforeRunErrorChecking, running, afterRunErrorChecking, completed]

def name : Stage → String
  | notStarted => "notStarted"
  | started => "started"
  | skipped => "skipped"
  | beforeRunErrorChecking => "beforeRunErrorChecking"
  | running => "running"
  | afterRunErrorChecking => "afterRunErrorChecking"
  | completed => "completed"

def title : Stage → String
  | notStarted => "NotStarted"
  | started => "Started"
  | skipped => "Skipped"
  | beforeRunErrorChecking => "BeforeRunErrorChecking"
  | running => "Running"
  | afterRunErrorChecking => "AfterRunErrorChecking"
  | completed => "Completed"

def isTerminal : Stage → Bool
  | skipped | completed => true
  | _ => false

/-- Whether an execution may move from one stage to another. -/
def canMove : Stage → Stage → Bool
  | notStarted, started => true
  | started, skipped => true
  | started, beforeRunErrorChecking => true
  | started, completed => true
  | beforeRunErrorChecking, running => true
  | beforeRunErrorChecking, completed => true
  | running, afterRunErrorChecking => true
  | running, completed => true
  | afterRunErrorChecking, completed => true
  | _, _ => false

def refusal : Stage → Stage → String
  | completed, _ => "Completed is terminal"
  | skipped, _ => "Skipped is terminal"
  | notStarted, _ => "Action must be started first"
  | _, skipped => "Only a started action can be skipped"
  | started, running => "Before-run error checking must happen first"
  | running, running => "Action is already running"
  | _, _ => "Invalid state transition"

end Stage

structure InvalidMove where
  source : Stage
  target : Stage
  deriving DecidableEq, Repr

def InvalidMove.message (m : InvalidMove) : String :=
  "Invalid state transition from " ++ m.source.title ++ " to " ++ m.target.title ++ ": " ++
    Stage.refusal m.source m.target

namespace Stage

def moveTo (source target : Stage) : Except InvalidMove Stage :=
  if canMove source target then .ok target else .error ⟨source, target⟩

theorem moveTo_of_canMove {source target : Stage} (h : canMove source target = true) :
    moveTo source target = .ok target := by
  simp [moveTo, h]

theorem moveTo_of_not_canMove {source target : Stage} (h : canMove source target = false) :
    moveTo source target = .error ⟨source, target⟩ := by
  simp [moveTo, h]

theorem canMove_of_isTerminal {source : Stage} (h : source.isTerminal = true) (target : Stage) :
    canMove source target = false := by
  cases source <;> cases target <;> simp_all [isTerminal, canMove]

/-! ### Reading a stage -/

def ofName? (s : String) : Option Stage := all.find? fun stage => stage.name = s

/-- The stage that a name or an object with one field names. -/
def ofJson (j : Json) : Except Mismatch Stage :=
  let named (s : String) : Except Mismatch Stage :=
    match ofName? s with
    | some stage => .ok stage
    | none => .error (.unknownVariant s (all.map name))
  match j with
  | .text s => named s
  | .object [(key, content)] => do
    let stage ← named key
    if content.isNull then .ok stage
    else .error (.wrongType (Found.ofJson content) "unit")
  | .object _ => .error (.wrongValue .map "map with a single key")
  | other => .error (.wrongType (Found.ofJson other) "string or map")

theorem ofName?_name (stage : Stage) : ofName? stage.name = some stage := by
  cases stage <;> rfl

end Stage

end ActionFlow
