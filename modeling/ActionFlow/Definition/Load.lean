import ActionFlow.Definition.Build
import ActionFlow.Json.Parser
import ActionFlow.Yaml.Document

/-!
# Loading definitions

A document is written in JSON or YAML, and the extension of its file says in which.  Files are read
through `Files`, so that loading is a function of what they hold.
-/
namespace ActionFlow

inductive Format where
  | json
  | yaml
  deriving DecidableEq, Repr

namespace Format

/-- The parts of a path between slashes, without empty ones and those that mean the same place. -/
def components (path : String) : List (List Char) :=
  (Path.pieces path.toList).filter fun piece => piece ≠ [] ∧ piece ≠ ['.']

/-- The characters after the last point of a name that has something before that point. -/
def extension? (name : List Char) : Option (List Char) :=
  let after := (name.reverse.takeWhile (· ≠ '.')).reverse
  if after.length + 1 < name.length ∧ name ≠ ['.', '.'] then some after else none

def ofPath (path : String) : Except DefinitionError Format :=
  let extension := ((components path).getLast?.bind extension?).map fun cs =>
    String.ofList (cs.map Char.toLower)
  if extension = some "json" then .ok json
  else if extension = some "yaml" ∨ extension = some "yml" then .ok yaml
  else .error (.unsupportedFormat path)

def parse {α : Type} (read : Origin → Draft → Except ReadError α) (format : Format)
    (path content : String) : Except DefinitionError α :=
  match format with
  | json => (Draft.readJsonText read content).mapError (.json path)
  | yaml => (Draft.readYamlText read content).mapError (.yaml path)

end Format

/-- How files are read: the content of a path, or the reason why there is none. -/
abbrev Files := String → Except String String

def Files.load {α : Type} (files : Files) (read : Origin → Draft → Except ReadError α)
    (path : String) : Except DefinitionError α := do
  let format ← Format.ofPath path
  let content ← (files path).mapError (.unreadable path)
  format.parse read path content

def Files.loadDefinition (files : Files) (path : String) : Except DefinitionError Definition :=
  files.load Definition.read path

def Files.loadValue (files : Files) (path : String) : Except DefinitionError Json :=
  files.load Draft.readAny path

end ActionFlow
