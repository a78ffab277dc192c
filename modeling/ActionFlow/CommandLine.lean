import ActionFlow.Definition.Load
import ActionFlow.Outcome

/-!
# The command line

`automation DEFINITION [TRIGGER] [--compact]` loads a definition and perhaps a trigger, runs the
automation and prints its outcome as JSON.  The exit code is 0 if no fault escaped, 1 if one did or
if something could not be loaded, and 2 for arguments that make no sense.  Everything here is a
function of the arguments, the files and what identifies the run.
-/
namespace ActionFlow.CommandLine

structure Arguments where
  definition : String
  trigger : Option String
  compact : Bool
  deriving DecidableEq, Repr

inductive Request where
  | run (arguments : Arguments)
  | help
  | refused (reason : String)
  deriving DecidableEq, Repr

structure Reading where
  paths : List String := []
  compact : Bool := false
  onlyPaths : Bool := false

def isOption (argument : String) : Bool :=
  match argument.toList with
  | '-' :: _ :: _ => true
  | _ => false

/-- Whether an argument is a cluster of one-letter options that begins with one of `-h` and `-V`; the
rest of the cluster is not looked at. -/
def asksForHelp (argument : String) : Bool :=
  match argument.toList with
  | '-' :: c :: _ => c = 'h' || c = 'V'
  | _ => false

def close (r : Reading) : Request :=
  match r.paths with
  | [] => .refused "the definition is missing"
  | [definition] => .run ⟨definition, none, r.compact⟩
  | definition :: trigger :: _ => .run ⟨definition, some trigger, r.compact⟩

def read (r : Reading) : List String → Request
  | [] => close r
  | argument :: rest =>
    if !r.onlyPaths && isOption argument then
      if argument = "--" then read { r with onlyPaths := true } rest
      else if argument = "--compact" then
        if r.compact then .refused "--compact cannot be used twice"
        else read { r with compact := true } rest
      else if argument = "--help" || argument = "--version" || asksForHelp argument then .help
      else .refused ("unexpected argument " ++ argument)
    else if argument = "" then .refused "a path must not be empty"
    else if r.paths.length < 2 then read { r with paths := r.paths ++ [argument] } rest
    else .refused ("unexpected argument " ++ argument)

structure Report where
  exit : Nat
  output : Option String := none
  errors : List String := []
  deriving DecidableEq, Repr

def usage : String := "Usage: automation [--compact] <DEFINITION> [TRIGGER]"

def failure (doing : String) (e : DefinitionError) : Report where
  exit := 1
  errors := ["Error: " ++ doing, "", "Caused by:", "    " ++ e.message]

def report (compact : Bool) : Except Panic Outcome → Report
  | .ok outcome =>
    { exit := if outcome.succeeded then 0 else 1
      output := some (if compact then outcome.toJson.compact else outcome.toJson.pretty) }
  | .error panic => { exit := 101, errors := [panic.report] }

def loadTrigger (files : Files) : Option String → Except DefinitionError Value
  | none => .ok (.object [])
  | some path => (files.loadValue path).map .ofJson

def run (files : Files) (runId clock : String) (a : Arguments) : Report :=
  let loading (path : String) : String := "loading " ++ path
  match files.loadDefinition a.definition with
  | .error e => failure (loading a.definition) e
  | .ok definition =>
    match Registry.builtIn.buildAutomation definition with
    | .error e => failure "building automation" e
    | .ok automation =>
      match loadTrigger files a.trigger with
      | .error e => failure (loading (a.trigger.getD "")) e
      | .ok trigger => report a.compact (automation.outcome (.start runId clock trigger))

def execute (files : Files) (runId clock : String) (arguments : List String) : Report :=
  match read {} arguments with
  | .run a => run files runId clock a
  | .help => { exit := 0, output := some usage }
  | .refused reason => { exit := 2, errors := ["error: " ++ reason, "", usage] }

end ActionFlow.CommandLine
