import ActionFlow.Json.Basic
import ActionFlow.Text.Base64

/-!
# Values

The values that a run works on: JSON values, and two kinds that JSON has no form for, bytes and
files.  This module holds the type and the views of a value as one kind or another.
-/
namespace ActionFlow

/-- A value of a run. -/
inductive Value where
  | null
  | bool (value : Bool)
  | number (value : Number)
  | text (content : String)
  | array (items : List Value)
  | object (fields : List (String × Value))
  | binary (content : Bytes)
  | file (name : String) (content : Bytes)
  deriving Inhabited

namespace Value

def integer (i : Int) : Value := number (.integer i)

def double (x : Float) : Value := if x.isFinite then number (.double x) else null

def kind : Value → String
  | null => "null"
  | bool _ => "boolean"
  | number _ => "number"
  | text _ => "string"
  | array _ => "array"
  | object _ => "object"
  | binary _ => "binary"
  | file _ _ => "file"

def isNull : Value → Bool
  | null => true
  | _ => false

/-- Whether the value is a scalar other than null; bytes count as one. -/
def isPrimitive : Value → Bool
  | bool _ | number _ | text _ | binary _ => true
  | _ => false

/-! ### Views -/

def bool? : Value → Option Bool
  | bool b => some b
  | _ => none

def text? : Value → Option String
  | text s => some s
  | _ => none

/-- The integer of 64 bits that a number gives. -/
def int64? : Value → Option Int
  | number n => n.toInt64?
  | _ => none

def float? : Value → Option Float
  | number n => some n.toFloat
  | _ => none

def array? : Value → Option (List Value)
  | array items => some items
  | _ => none

def object? : Value → Option (Entries Value)
  | object fields => some fields
  | _ => none

def bytes? : Value → Option Bytes
  | binary content => some content
  | file _ content => some content
  | _ => none

/-! ### Equality -/

mutual
/-- Structural equality: arrays item by item, objects key by key whatever the order of the keys.
An integer never equals a double here. -/
def same : Value → Value → Bool
  | null, null => true
  | bool a, bool b => a == b
  | number a, number b => a.same b
  | text a, text b => a == b
  | array xs, array ys => sameItems xs ys
  | object xs, object ys => xs.length == ys.length && sameFields xs ys
  | binary a, binary b => a == b
  | file n a, file m b => n == m && a == b
  | _, _ => false

def sameItems : List Value → List Value → Bool
  | [], [] => true
  | x :: xs, y :: ys => same x y && sameItems xs ys
  | _, _ => false

def sameFields : List (String × Value) → Entries Value → Bool
  | [], _ => true
  | (key, x) :: rest, ys =>
    (match Entries.find? ys key with
      | some y => same x y
      | none => false) && sameFields rest ys
end

/-- Equality that takes two numbers by magnitude, as doubles, and anything else structurally. -/
def equal (a b : Value) : Bool :=
  match a.float?, b.float? with
  | some x, some y => x == y
  | _, _ => same a b

end Value

end ActionFlow
