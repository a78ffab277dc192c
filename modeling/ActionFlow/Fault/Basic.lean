import ActionFlow.Document.Shape
import ActionFlow.Value.Json
import ActionFlow.Text.Blank

/-!
# Faults

A fault is the form in which every failure leaves an action: a dotted code, a title and a message
for people, and the status of a web response, with details and data if there are any.  This module
holds the type, the check of its invariants, its JSON form and the reading of that form.
-/
namespace ActionFlow

/-- A failure as it is reported. -/
structure Fault where
  /-- A dotted identifier that does not depend on the language of the texts. -/
  code : String
  title : String
  message : String
  status : Nat
  details : List String
  data : Option Value
  deriving Inhabited

namespace Fault

def simple (code title message : String) (status : Nat) : Fault :=
  ⟨code, title, message, status, [], none⟩

def display (f : Fault) : String := f.code ++ ": " ++ f.message

def invalidStatus (status : Int) : String :=
  Decimal.integerText status ++ " is not a valid HTTP status code"

/-- The first broken invariant: the code must not be blank, and the status must be one. -/
def validate (f : Fault) : Except String Unit :=
  if Text.isBlankText f.code then .error "error code must not be empty"
  else if 100 ≤ f.status ∧ f.status ≤ 599 then .ok ()
  else .error (invalidStatus f.status)

def Valid (f : Fault) : Prop :=
  Text.isBlankText f.code = false ∧ 100 ≤ f.status ∧ f.status ≤ 599

theorem validate_eq_ok_iff (f : Fault) : f.validate = .ok () ↔ f.Valid := by
  simp only [validate, Valid]
  cases Text.isBlankText f.code
  · by_cases h : 100 ≤ f.status ∧ f.status ≤ 599
    · simp [h]
    · simp [h]
  · simp

/-! ### JSON form -/

/-- The JSON form of a fault; details and data are left out when there are none. -/
def toJson (f : Fault) : Json :=
  .object <|
    [("code", .text f.code), ("title", .text f.title), ("message", .text f.message),
      ("httpStatusCode", .integer f.status)] ++
    (if f.details.isEmpty then [] else [("additionalDetails", .array (f.details.map .text))]) ++
    (match f.data with
      | none => []
      | some data => [("data", data.toJson)])

def toValue (f : Fault) : Value := Value.ofJson f.toJson

structure Partial where
  code : Option String := none
  title : Option String := none
  message : Option String := none
  status : Option Nat := none
  details : Option (List String) := none
  data : Option (Option Value) := none

def readStatus (d : Draft) : Except ReadError Nat :=
  match d with
  | .number (some (.integer i)) =>
    if 0 ≤ i ∧ i < 65536 then .ok i.toNat
    else .error (.mismatch (.wrongValue (.number (.integer i)) "u16"))
  | d => .error (d.unexpected "u16")

def readDetails (origin : Origin) (d : Draft) : Except ReadError (List String) :=
  d.readList origin fun _ => Draft.readText

def readData (origin : Origin) (d : Draft) : Except ReadError (Option Value) :=
  d.readOptional fun d => (d.readAny origin).map Value.ofJson

def readField (origin : Origin) (p : Partial) (name : String) (d : Draft) :
    Except ReadError Partial :=
  match name with
  | "code" => do .ok { p with code := ← Draft.once p.code name d.readText }
  | "title" => do .ok { p with title := ← Draft.once p.title name d.readText }
  | "message" => do .ok { p with message := ← Draft.once p.message name d.readText }
  | "httpStatusCode" => do .ok { p with status := ← Draft.once p.status name (readStatus d) }
  | "additionalDetails" => do
    .ok { p with details := ← Draft.once p.details name (readDetails origin d) }
  | "data" => do .ok { p with data := ← Draft.once p.data name (readData origin d) }
  | _ => do
    d.ignore
    .ok p

def ofPartial (p : Partial) : Except ReadError Fault := do
  let code ← Draft.require p.code "code"
  let title ← Draft.require p.title "title"
  let message ← Draft.require p.message "message"
  let status ← Draft.require p.status "httpStatusCode"
  .ok ⟨code, title, message, status, p.details.getD [], p.data.getD none⟩

def read (origin : Origin) (d : Draft) : Except ReadError Fault :=
  match d with
  | .object fields stop => do
    let inner ← origin.enter
    let p ← Draft.readFields (readField inner) {} fields
    Draft.readStop stop
    ofPartial p
  | .array items stop => do
    let expected := "struct ConfiguredError with 6 elements"
    let inner ← origin.enterPlaces "struct ConfiguredError"
    let (next, rest) ← Draft.nextItem items stop
    let code ← Draft.readPlace 0 expected Draft.readText next
    let (next, rest) ← Draft.nextItem rest stop
    let title ← Draft.readPlace 1 expected Draft.readText next
    let (next, rest) ← Draft.nextItem rest stop
    let message ← Draft.readPlace 2 expected Draft.readText next
    let (next, rest) ← Draft.nextItem rest stop
    let status ← Draft.readPlace 3 expected readStatus next
    let (next, rest) ← Draft.nextItem rest stop
    let details ← match next with
      | some d => readDetails inner d
      | none => .ok []
    let (next, rest) ← Draft.nextItem rest stop
    let data ← match next with
      | some d => readData inner d
      | none => .ok none
    Draft.readEnd inner items.length rest stop
    .ok ⟨code, title, message, status, details, data⟩
  | d => .error (d.unexpected "struct ConfiguredError")

def ofJson (j : Json) : Except ReadError Fault := read .value (Draft.ofJson j)

end Fault

end ActionFlow
