import ActionFlow.Action.Run
import ActionFlow.Record.Json

/-!
# Outcomes

An automation runs its actions in sequence.  Its outcome holds the records of the actions that were
reached and the fault that escaped the last of them, if one did.
-/
namespace ActionFlow

/-- What a run of an automation leaves. -/
structure Outcome where
  runId : String
  actions : Entries Record
  error : Option Fault

namespace Outcome

def succeeded (o : Outcome) : Bool := o.error.isNone

def errorField : Option Fault → List (String × Json)
  | none => []
  | some fault => [("error", fault.toJson)]

def toJson (o : Outcome) : Json :=
  .object <|
    [("runId", .text o.runId), ("actions", .object (Record.toJsonFields o.actions))] ++
      errorField o.error

/-- The outcome of a sequence that ended, or its panic. -/
def ofEnding (ending : Ending (Frame (Entries Record)) Unit) : Except Panic Outcome :=
  let leaving (error : Option Fault) : Outcome :=
    ⟨ending.state.context.runId, ending.state.own, error⟩
  match ending.result with
  | .ok () => .ok (leaving none)
  | .error (.error fault) => .ok (leaving (some fault))
  | .error (.panic panic) => .error panic

end Outcome

namespace Automation

def run (a : Automation) (ctx : Context) : Ending (Frame (Entries Record)) Unit :=
  Action.runSequence a.actions ⟨[], ctx⟩

def outcome (a : Automation) (ctx : Context) : Except Panic Outcome :=
  Outcome.ofEnding (a.run ctx)

end Automation

end ActionFlow
