import ActionFlow.Action.Frame
import ActionFlow.Text.Quoted

/-!
# Actions side by side

Each action of a parallel group is a task that runs to its end whatever the others do.  Afterwards
`settle` puts the records together in the order of the actions, and the first failure in that order
is the failure of the group.  A task that panics counts as failed, with a record of its own.
-/
namespace ActionFlow

/-- How a panic of a task is reported; tasks have no numbers. -/
def Panic.report (p : Panic) : String :=
  match p.text with
  | some text => "task # panicked with message " ++ Text.quoted text
  | none => "task # panicked"

inductive TaskOutcome where
  | finished (record : Record) (result : Except Fault Unit)
  | panicked (panic : Panic)

/-- A task that is over, with the record that it started from. -/
structure Task where
  start : Record
  outcome : TaskOutcome

namespace Task

def panicFault (key : String) (panic : Panic) : Fault := .actionFailed key panic.report

def record (now : String) (t : Task) : Record :=
  match t.outcome with
  | .finished record _ => record
  | .panicked panic => t.start.lost now (panicFault t.start.key panic)

def result (t : Task) : Except Fault Unit :=
  match t.outcome with
  | .finished _ result => result
  | .panicked panic => .error (panicFault t.start.key panic)

def firstFailure : List Task → Except Fault Unit
  | [] => .ok ()
  | t :: rest =>
    match t.result with
    | .ok () => firstFailure rest
    | .error fault => .error fault

def putRecords (now : String) (records : Entries Record) (tasks : List Task) : Entries Record :=
  tasks.foldl (fun records t => Entries.put records t.start.key (t.record now)) records

/-- Puts together what tasks leave. -/
def settle (tasks : List Task) : Step (Frame (Entries Record)) Unit := do
  .update fun s => { s with own := putRecords s.context.clock s.own tasks }
  .ofExcept (firstFailure tasks)

def spawn (start : Record) (execution : Step (Frame Record) Unit) : Step (Frame (List Task)) Unit :=
  fun s =>
    let ending := execution ⟨start, s.context⟩
    let outcome := match ending.result with
      | .ok () => .finished ending.state.own (.ok ())
      | .error (.error fault) => .finished ending.state.own (.error fault)
      | .error (.panic panic) => .panicked panic
    ⟨.ok (), ⟨s.own ++ [⟨start, outcome⟩], ending.state.context⟩, ending.journal⟩

def together (tasks : Step (Frame (List Task)) Unit) : Step (Frame (Entries Record)) Unit := do
  let (finished, _) ← Frame.nested [] tasks
  settle finished

end Task

end ActionFlow
