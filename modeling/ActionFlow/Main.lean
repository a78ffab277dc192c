import ActionFlow.CommandLine
import ActionFlow.Folder
import ActionFlow.Text.Timestamp
import Std.Time.DateTime

/-!
# The program

Reads files and the clock, and hands them to the command line.
-/
namespace ActionFlow

def readText (path : String) : IO (Except String String) := do
  let refused (e : FileError) : Except String String := .error e.message
  try
    let bytes ← IO.FS.readBinFile path
    match String.fromUTF8? bytes with
    | some text => return .ok text
    | none => return refused .notText
  catch
    | .noFileOrDirectory .. => return refused .missing
    | .permissionDenied .. => return refused .denied
    | .inappropriateType _ 20 _ => return refused .notFolder
    | .inappropriateType _ 21 _ => return refused .isFolder
    | e => return .error (toString e)

def readFiles (paths : List String) : IO Files := do
  let contents ← paths.mapM fun path => do return (path, ← readText path)
  return fun path =>
    (Entries.find? contents path).getD (.error FileError.missing.message)

end ActionFlow

def main (arguments : List String) : IO UInt32 := do
  let now := (← Std.Time.Timestamp.now).toNanosecondsSinceUnixEpoch.val.toNat
  let random ← IO.rand 0 (Nat.pow 2 80 - 1)
  let files ← ActionFlow.readFiles arguments
  let report :=
    ActionFlow.CommandLine.execute files (ActionFlow.Text.runId now random)
      (ActionFlow.Text.timestamp now) arguments
  for line in report.errors do
    IO.eprintln line
  if let some text := report.output then
    IO.println text
  return report.exit.toUInt32
