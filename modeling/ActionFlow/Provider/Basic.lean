import ActionFlow.Context
import ActionFlow.Provider.Operator
import ActionFlow.Provider.Resolution

/-!
# Providers

A provider says where a setting comes from: a constant, a place in the context, or something built
from other providers.  Conditions are the providers of truth values; `all` and `any` stop at the
first condition that decides, so that a later one never contributes an error.  Resolving reads the
context and changes nothing.
-/
namespace ActionFlow

mutual
/-- Where a value comes from. -/
inductive Provider where
  | constant (value : Value)
  | lookup (path : Path) (default : Option Value)
  | list (items : List Provider)
  | object (properties : List (String × Provider))
  | file (name content : Provider)
  | count (list : Provider)
  | condition (c : Condition)
  /-- A provider that the surroundings of the run supply. -/
  | custom (resolve : Context → Resolution Value)

inductive Condition where
  | typed (p : Provider)
  | present (path : Path)
  | all (conditions : List Condition)
  | any (conditions : List Condition)
  | negation (c : Condition)
  | text (op : TextOperator) (text value : Provider) (ignoreCase : Bool)
  | equal (left right : Provider)
  | compare (op : NumberOperator) (left right : Provider)
end

inductive IntegerProvider where
  | typed (p : Provider)
  | count (list : Provider)

/-- Where a fault comes from, field by field. -/
structure FaultProvider where
  code : Provider
  title : Provider
  message : Provider
  status : Provider
  details : Option Provider
  data : Option Provider

def fileContent : Value → Resolution Bytes
  | .binary content => .ok content
  | .file _ content => .ok content
  | .text s => .ok s.toUTF8.data.toList
  | v => .fail (.typeMismatch "binary" v.kind)

def countOf (items : List Value) : Resolution Int :=
  if (items.length : Int) ≤ maxInt64 then .ok items.length
  else .fail (.invalidValue "out of range integral type conversion attempted")

def compareTexts (op : TextOperator) (text value : String) (ignoreCase : Bool) : Bool :=
  if ignoreCase then op.holds (Text.lowercase text) (Text.lowercase value)
  else op.holds text value

mutual
def Provider.resolve (ctx : Context) : Provider → Resolution Value
  | .constant value => .ok value
  | .lookup path default =>
    match (ctx.lookup path).or default with
    | some value => .ok value
    | none => .fail (.pathNotFound path.text)
  | .list items => do
    let values ← Provider.resolveItems ctx items
    .ok (.array values)
  | .object properties => do
    let fields ← Provider.resolveProperties ctx [] properties
    .ok (.object fields)
  | .file name content => do
    let name ← Conversion.text.apply (← name.resolve ctx)
    let content ← fileContent (← content.resolve ctx)
    .ok (.file name content)
  | .count list => do
    let items ← Conversion.list.apply (← list.resolve ctx)
    let count ← countOf items
    .ok (.integer count)
  | .condition c => do
    let b ← c.resolve ctx
    .ok (.bool b)
  | .custom resolve => resolve ctx

def Provider.resolveItems (ctx : Context) : List Provider → Resolution (List Value)
  | [] => .ok []
  | p :: rest => do
    let value ← p.resolve ctx
    let values ← Provider.resolveItems ctx rest
    .ok (value :: values)

def Provider.resolveProperties (ctx : Context) (done : Entries Value) :
    List (String × Provider) → Resolution (Entries Value)
  | [] => .ok done
  | (name, p) :: rest => do
    let value ← p.resolve ctx
    Provider.resolveProperties ctx (Entries.put done name value) rest

def Condition.resolve (ctx : Context) : Condition → Resolution Bool
  | .typed p => do Conversion.boolean.apply (← p.resolve ctx)
  | .present path =>
    match ctx.lookup path with
    | some value => .ok !value.isNull
    | none => .ok false
  | .all conditions => Condition.resolveAll ctx conditions
  | .any conditions => Condition.resolveAny ctx conditions
  | .negation c => do
    let b ← c.resolve ctx
    .ok !b
  | .text op text value ignoreCase => do
    let text ← Conversion.text.apply (← text.resolve ctx)
    let value ← Conversion.text.apply (← value.resolve ctx)
    .ok (compareTexts op text value ignoreCase)
  | .equal left right => do
    let left ← left.resolve ctx
    let right ← right.resolve ctx
    .ok (left.equal right)
  | .compare op left right => do
    let left ← Conversion.double.apply (← left.resolve ctx)
    let right ← Conversion.double.apply (← right.resolve ctx)
    .ok (op.holds left right)

/-- Whether all conditions hold; the first that does not decides. -/
def Condition.resolveAll (ctx : Context) : List Condition → Resolution Bool
  | [] => .ok true
  | c :: rest => do
    let b ← c.resolve ctx
    if b then Condition.resolveAll ctx rest else .ok false

def Condition.resolveAny (ctx : Context) : List Condition → Resolution Bool
  | [] => .ok false
  | c :: rest => do
    let b ← c.resolve ctx
    if b then .ok true else Condition.resolveAny ctx rest
end

def Provider.resolveAs {α : Type} (c : Conversion α) (p : Provider) (ctx : Context) :
    Resolution α := do
  c.apply (← p.resolve ctx)

def IntegerProvider.resolve (ctx : Context) : IntegerProvider → Resolution Int
  | .typed p => p.resolveAs Conversion.integer ctx
  | .count list => do countOf (← list.resolveAs Conversion.list ctx)

namespace FaultProvider

def statusOf (i : Int) : Resolution Nat :=
  if 0 ≤ i ∧ i < 65536 then .ok i.toNat
  else .fail (.invalidValue (Fault.invalidStatus i))

def resolveDetails (ctx : Context) : Option Provider → Resolution (List String)
  | none => .ok []
  | some p => do
    let items ← p.resolveAs Conversion.list ctx
    .ok (items.map Value.toText)

def resolveData (ctx : Context) : Option Provider → Resolution (Option Value)
  | none => .ok none
  | some p => do
    let data ← p.resolve ctx
    .ok (some data)

/-- A fault that keeps its invariants, or the error that names the broken one. -/
def validated (f : Fault) : Resolution Fault :=
  match f.validate with
  | .ok () => .ok f
  | .error reason => .fail (.invalidValue reason)

def resolve (p : FaultProvider) (ctx : Context) : Resolution Fault := do
  let status ← statusOf (← p.status.resolveAs Conversion.integer ctx)
  let code ← p.code.resolveAs Conversion.text ctx
  let title ← p.title.resolveAs Conversion.text ctx
  let message ← p.message.resolveAs Conversion.text ctx
  let details ← resolveDetails ctx p.details
  let data ← resolveData ctx p.data
  validated ⟨code, title, message, status, details, data⟩

theorem validated_eq_ok_iff {f g : Fault} : validated f = .ok g ↔ f = g ∧ f.Valid := by
  rw [← Fault.validate_eq_ok_iff]
  simp only [validated]
  split <;> simp_all [Resolution.fail]

end FaultProvider

end ActionFlow
