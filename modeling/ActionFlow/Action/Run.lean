import ActionFlow.Action.Iteration
import ActionFlow.Action.Lifecycle
import ActionFlow.Action.Logic
import ActionFlow.Action.Parallel

/-!
# Running actions

The recursion that ties the parts of a run together: an action goes through its lifecycle, its kind
runs the actions inside, and error actions run in sequence.  A sequence stops at the first action
that lets a fault escape.  Tasks of a parallel group take turns in the order of the group.
-/
namespace ActionFlow

def Record.setChildren (records : List (String × Record)) (r : Record) : Record :=
  match r.detail with
  | .group parallel _ => { r with detail := .group parallel records }
  | _ => r

namespace Action

open ActionFlow.Frame

def runGroup (key : String) (children : Step (Frame (Entries Record)) Unit) :
    Step (Frame Record) Unit := do
  let (records, result) ← within (.children key) (nested [] children)
  modify (Record.setChildren records)
  .ofExcept result

def runMember (key : String) (start : Record) (execution : Step (Frame Record) Unit) :
    Step (Frame (Entries Record)) Unit := do
  let (record, result) ← nested start execution
  modify fun records => Entries.put records key record
  .ofExcept result

mutual
def handle (a : Action) : Step (Frame Record) Unit :=
  match a with
  | ⟨head, kind, errorActions⟩ =>
    Lifecycle.handle head (runKind head.key kind)
      (if errorActions.isEmpty then none else some (runSequence errorActions))

def runKind (key : String) (kind : Kind Action) : Step (Frame Record) Unit :=
  match kind with
  | .group parallel actions => do
    mark key .running
    runGroup key (if parallel then Task.together (runTasks actions) else runSequence actions)
  | .iterate loop actions => do
    mark key .running
    loop.run key (runSequence actions)
  | .simple logic => do
    mark key .running
    logic.run key

/-- Runs actions one after another, up to the first that lets a fault escape. -/
def runSequence (actions : List Action) : Step (Frame (Entries Record)) Unit :=
  match actions with
  | [] => pure ()
  | a :: rest => do
    runMember a.key a.freshRecord (handle a)
    runSequence rest

/-- Runs actions as tasks, all of them. -/
def runTasks (actions : List Action) : Step (Frame (List Task)) Unit :=
  match actions with
  | [] => pure ()
  | a :: rest => do
    Task.spawn a.freshRecord (handle a)
    runTasks rest
end

def runParallel (actions : List Action) : Step (Frame (Entries Record)) Unit :=
  Task.together (runTasks actions)

def runInternal (a : Action) : Step (Frame Record) Unit := runKind a.key a.kind

/-- Runs the action by itself: a short lifecycle without conditions and error actions. -/
def runDirect (a : Action) : Step (Frame Record) Unit :=
  Lifecycle.direct a.head (runKind a.key a.kind)

end Action

end ActionFlow
