import ActionFlow.Value.Json
import ActionFlow.Decimal.Reading
import ActionFlow.Text.Blank
import ActionFlow.Text.Lowercase

/-!
# Values as typed results

What a value counts as where a truth value, an integer, a double, a text or a list is needed.  Texts
that spell a truth value or a number count as one, blanks around them aside.
-/
namespace ActionFlow

/-- A type that values can be taken as. -/
structure Conversion (α : Type) where
  expected : String
  convert? : Value → Option α

namespace Conversion

def any : Conversion Value := ⟨"any", some⟩

def spelledBool? (s : String) : Option Bool :=
  let word := Text.lowercase (Text.trim s)
  if word = "true" then some true
  else if word = "false" then some false
  else none

/-- A truth value, or a text that spells one. -/
def boolean : Conversion Bool where
  expected := "boolean"
  convert?
    | .bool b => some b
    | .text s => spelledBool? s
    | _ => none

def integer : Conversion Int where
  expected := "integer"
  convert?
    | .text s => Decimal.readInt64? (Text.trim s)
    | v => v.int64?

def double : Conversion Float where
  expected := "number"
  convert?
    | .text s => Decimal.readFloat? (Text.trim s)
    | v => v.float?

/-- A text, or a truth value or number by its text. -/
def text : Conversion String where
  expected := "text"
  convert?
    | .text s => some s
    | .bool b => some (Value.bool b).toText
    | .number n => some (Value.number n).toText
    | _ => none

def list : Conversion (List Value) where
  expected := "list"
  convert? := Value.array?

end Conversion

end ActionFlow
