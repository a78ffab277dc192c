import ActionFlow.Action.Frame

/-!
# The lifecycle of an action

An action starts, is skipped if its run condition does not hold, is checked, runs its logic, is
checked again and completes.  A fault on the way is put down and the record is closed; then the
error actions run, if there are any.  The fault counts as handled when they all succeed, and is
replaced by theirs when they do not.  The record is published at the end, and before the error
actions too, so that they see what they handle.
-/
namespace ActionFlow.Lifecycle

open ActionFlow.Frame

def check (key : String) : List ErrorCondition → Step (Frame Record) Unit
  | [] => pure ()
  | c :: rest => do
    let holds ← resolve key fun ctx => c.condition.resolve ctx
    if holds then
      let fault ← resolve key c.fault.resolve
      .fail fault
    else check key rest

def wanted (head : Head) : Step (Frame Record) Bool :=
  match head.runCondition with
  | none => pure true
  | some c => resolve head.key fun ctx => c.resolve ctx

def course (head : Head) (logic : Step (Frame Record) Unit) : Step (Frame Record) Unit := do
  move .beforeRunErrorChecking
  check head.key head.before
  move .running
  logic
  move .afterRunErrorChecking
  check head.key head.after
  move .completed
  succeed

/-- The course of an action with the given logic. -/
def attempted (head : Head) (logic : Step (Frame Record) Unit) : Step (Frame Record) Unit := do
  move .started
  ensureNotCancelled head.key
  if ← wanted head then course head logic
  else
    move .skipped
    succeed

/-- What follows a fault, given the error actions if there are any. -/
def intercept (key : String) (recovery : Option (Step (Frame (Entries Record)) Unit))
    (fault : Fault) : Step (Frame Record) Unit := do
  close fault
  match recovery with
  | none => .fail fault
  | some sequence =>
    publish key
    let (records, result) ← within (.recovery key) (nested [] sequence)
    modify fun r => { r with errorActions := records }
    .ofExcept result

def handle (head : Head) (logic : Step (Frame Record) Unit)
    (recovery : Option (Step (Frame (Entries Record)) Unit)) : Step (Frame Record) Unit := do
  mark head.key .entered
  thenPublish head.key do
    match ← (attempted head logic).attempt with
    | .ok () => pure ()
    | .error fault => intercept head.key recovery fault

/-- The course of an action that is run by itself: no conditions, no error actions. -/
def bare (logic : Step (Frame Record) Unit) : Step (Frame Record) Unit := do
  move .started
  move .beforeRunErrorChecking
  move .running
  logic
  move .afterRunErrorChecking
  move .completed
  succeed

def direct (head : Head) (logic : Step (Frame Record) Unit) : Step (Frame Record) Unit :=
  thenPublish head.key do
    match ← (bare logic).attempt with
    | .ok () => pure ()
    | .error fault =>
      close fault
      .fail fault

end ActionFlow.Lifecycle
