import ActionFlow.Fault.Engine

/-!
# Records of executions

A record tells what one execution of an action did: how far it came, when, whether it failed, and
what belongs to its kind.  Records of nested actions lie inside, under their keys.  `transition`,
`recordFault` and `finish` are the only ways on for a record.
-/
namespace ActionFlow

structure IterationItem where
  index : Nat
  item : Value
  deriving Inhabited

structure Iteration (ρ : Type) where
  index : Nat
  actions : List (String × ρ)

structure Progress where
  startIndex : Option Int := none
  endIndex : Option Int := none
  reverse : Bool := false
  completed : Nat := 0
  last : Option IterationItem := none
  current : Option IterationItem := none
  deriving Inhabited

structure Write where
  property : Option String := none
  path : Option String := none
  value : Option Value := none
  deriving Inhabited

/-- What a record holds for one kind of action; `ρ` is the type of nested records. -/
inductive Detail (ρ : Type) where
  | group (parallel : Bool) (children : List (String × ρ))
  | iterate (progress : Progress) (iterations : List (Iteration ρ))
  | raiseError
  | setVariable (write : Write)
  | external (output : Option Value)

/-- The record of one execution of an action. -/
structure Record where
  name : String
  key : String
  type : String
  stage : Stage
  startedAt : Option String
  completedAt : Option String
  fault : Option Fault
  succeeded : Bool
  errorActions : List (String × Record)
  detail : Detail Record

namespace Record

def fresh (name key type : String) (detail : Detail Record) : Record where
  name := name
  key := key
  type := type
  stage := .notStarted
  startedAt := none
  completedAt := none
  fault := none
  succeeded := false
  errorActions := []
  detail := detail

def stamp (now : String) (target : Stage) (r : Record) : Record :=
  match target with
  | .started => { r with startedAt := some now }
  | .skipped | .completed => { r with completedAt := some now }
  | _ => r

def transition (now : String) (target : Stage) (r : Record) : Except Fault Record :=
  match r.stage.moveTo target with
  | .ok stage => .ok (stamp now target { r with stage := stage })
  | .error move => .error (.invalidTransition r.key move)

/-- Puts a fault down; the execution does not count as successful any more. -/
def recordFault (fault : Fault) (r : Record) : Record :=
  { r with fault := some fault, succeeded := false }

/-- Completes the record wherever it stands; with a fault there is no success. -/
def finish (now : String) (succeeded : Bool) (r : Record) : Record :=
  let closed :=
    if r.stage.isTerminal then r else { r with stage := .completed, completedAt := some now }
  { closed with succeeded := succeeded && closed.fault.isNone }

/-- The record of an execution that ended without a trace. -/
def lost (now : String) (fault : Fault) (r : Record) : Record :=
  finish now false (recordFault fault r)

/-! ### Stages after a step -/

theorem transition_of_canMove {now : String} {target : Stage} {r : Record}
    (h : r.stage.canMove target = true) :
    r.transition now target = .ok (stamp now target { r with stage := target }) := by
  simp [transition, Stage.moveTo_of_canMove h]

theorem transition_of_not_canMove {now : String} {target : Stage} {r : Record}
    (h : r.stage.canMove target = false) :
    r.transition now target = .error (.invalidTransition r.key ⟨r.stage, target⟩) := by
  simp [transition, Stage.moveTo_of_not_canMove h]

theorem stage_stamp (now : String) (target : Stage) (r : Record) :
    (stamp now target r).stage = r.stage := by
  cases target <;> rfl

theorem isTerminal_finish (now : String) (succeeded : Bool) (r : Record) :
    (r.finish now succeeded).stage.isTerminal = true := by
  simp only [finish]
  split
  · assumption
  · rfl

end Record

end ActionFlow
