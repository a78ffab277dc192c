import ActionFlow.Fault.Basic
import ActionFlow.Path
import ActionFlow.Value.Conversion

/-!
# Resolutions

What comes of resolving a provider: a value, an error that becomes a fault, or a panic, which no
action handles.
-/
namespace ActionFlow

/-- A breakdown of code that a run calls, with its text if it has one. -/
structure Panic where
  text : Option String
  deriving DecidableEq, Repr, Inhabited

inductive Stop (ε : Type) where
  | error (cause : ε)
  | panic (panic : Panic)
  deriving DecidableEq, Repr

inductive ProviderError where
  | pathNotFound (path : String)
  | typeMismatch (expected found : String)
  | invalidPropertyName (name : String)
  | invalidValue (reason : String)
  deriving DecidableEq, Repr

namespace ProviderError

def message : ProviderError → String
  | pathNotFound path => "No value found at path \"" ++ path ++ "\""
  | typeMismatch expected found =>
    "Expected a " ++ expected ++ " value but found a " ++ found ++ " value"
  | invalidPropertyName _ => invalidNameMessage
  | invalidValue reason => "Invalid value: " ++ reason

def code : ProviderError → String
  | pathNotFound _ => "automation.provider.path.not.found"
  | typeMismatch _ _ => "automation.provider.type.mismatch"
  | invalidPropertyName _ => "automation.provider.invalid.property.name"
  | invalidValue _ => "automation.provider.invalid.value"

def title : ProviderError → String
  | pathNotFound _ => "Value not found"
  | typeMismatch _ _ => "Value has the wrong type"
  | invalidPropertyName _ => "Invalid property name"
  | invalidValue _ => "Invalid value"

def details : ProviderError → List String
  | pathNotFound path => ["Path: " ++ path]
  | invalidPropertyName name => ["Property name: " ++ name]
  | typeMismatch _ _ | invalidValue _ => []

def toFault (e : ProviderError) : Fault := ⟨e.code, e.title, e.message, 400, e.details, none⟩

theorem valid_toFault (e : ProviderError) : e.toFault.Valid := by
  cases e <;> simp only [Fault.Valid, toFault, code] <;> decide

end ProviderError

abbrev Resolution (α : Type) := Except (Stop ProviderError) α

namespace Resolution

def fail {α : Type} (e : ProviderError) : Resolution α := .error (.error e)

end Resolution

/-- Takes a value as a typed result. -/
def Conversion.apply {α : Type} (c : Conversion α) (v : Value) : Resolution α :=
  match c.convert? v with
  | some a => .ok a
  | none => .fail (.typeMismatch c.expected v.kind)

end ActionFlow
