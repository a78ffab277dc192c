import ActionFlow.Value.Basic
import ActionFlow.Decimal.Reading

/-!
# Looking into values

Descending into a value along the segments of a path: by key into an object, by place into an
array, and by the two field names into a file.
-/
namespace ActionFlow.Value

def get? (v : Value) (segment : String) : Option Value :=
  match v with
  | object fields => Entries.find? fields segment
  | array items => (Decimal.readIndex? segment).bind fun i => items[i]?
  | _ => none

def fileField? (name : String) (content : Bytes) (segment : String) : Option Value :=
  if segment = "fileName" then some (text name)
  else if segment = "content" then some (binary content)
  else none

/-- The part of a value that a segment names, the fields of a file included. -/
def child? (v : Value) (segment : String) : Option Value :=
  match v with
  | file name content => fileField? name content segment
  | _ => v.get? segment

def lookup (v : Value) : List String → Option Value
  | [] => some v
  | segment :: rest => (v.child? segment).bind fun part => part.lookup rest

@[simp] theorem lookup_nil (v : Value) : v.lookup [] = some v := by
  simp [lookup]

theorem lookup_cons (v : Value) (segment : String) (rest : List String) :
    v.lookup (segment :: rest) = (v.child? segment).bind fun part => part.lookup rest := by
  simp [lookup]

theorem lookup_object_cons (fields : Entries Value) (segment : String) (rest : List String) :
    (object fields).lookup (segment :: rest) =
      (Entries.find? fields segment).bind fun part => part.lookup rest := by
  simp [lookup, child?, get?]

end ActionFlow.Value
