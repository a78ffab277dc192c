import ActionFlow.Json.Basic
import ActionFlow.Decimal.Reading

/-!
# Unquoted scalars

An unquoted scalar has no type of its own.  Read as any value it is null, a truth value or a number
when it is spelled like one, and a text otherwise.  Digits after a leading zero stay a text.
-/
namespace ActionFlow

inductive Scalar where
  | null
  | bool (value : Bool)
  | number (value : Number)
  | notFinite
  /-- An integer that fits 128 bits but not 64. -/
  | oversized
  | text
  deriving DecidableEq

namespace Scalar

def isNullWord (s : String) : Bool :=
  s = "" || s = "~" || s = "null" || s = "Null" || s = "NULL"

def boolWord? (s : String) : Option Bool :=
  if s = "true" ∨ s = "True" ∨ s = "TRUE" then some true
  else if s = "false" ∨ s = "False" ∨ s = "FALSE" then some false
  else none

def digitIn? (base : Nat) (c : Char) : Option Nat :=
  let n :=
    if c.isDigit then c.toNat - 48
    else if 'a' ≤ c ∧ c ≤ 'f' then c.toNat - 87
    else if 'A' ≤ c ∧ c ≤ 'F' then c.toNat - 55
    else base
  if n < base then some n else none

def digitsIn? (base : Nat) (cs : List Char) : Option Nat :=
  if cs = [] then none
  else cs.foldl (fun n c => do some ((← n) * base + (← digitIn? base c))) (some 0)

def basePrefix? : List Char → Option (Nat × List Char)
  | '0' :: 'x' :: rest => some (16, rest)
  | '0' :: 'o' :: rest => some (8, rest)
  | '0' :: 'b' :: rest => some (2, rest)
  | _ => none

def dropSign : List Char → List Char
  | '+' :: rest => rest
  | '-' :: rest => rest
  | cs => cs

/-- Digits after a leading zero, which are a text and no number. -/
def isZeroLed (cs : List Char) : Bool :=
  match dropSign cs with
  | '0' :: c :: rest => (c :: rest).all Char.isDigit
  | _ => false

def integer? (cs : List Char) : Option Int :=
  let magnitude := do
    let (base, digits) ← (basePrefix? (dropSign cs)).orElse fun _ =>
      if isZeroLed cs then none else some (10, dropSign cs)
    digitsIn? base digits
  magnitude.map fun n : Nat => if cs.head? = some '-' then -(n : Int) else n

def finite? (s : String) : Option Float :=
  match s.toList with
  | '+' :: '+' :: _ | '+' :: '-' :: _ => none
  | cs => if isZeroLed cs then none else (Decimal.readFloat? s).filter Float.isFinite

def isNotFiniteWord (s : String) : Bool :=
  [".inf", ".Inf", ".INF", "+.inf", "+.Inf", "+.INF", "-.inf", "-.Inf", "-.INF",
    ".nan", ".NaN", ".NAN"].contains s

def ofText (s : String) : Scalar :=
  if isNullWord s then null
  else match boolWord? s with
    | some b => bool b
    | none =>
      let double := match finite? s with
        | some x => number (.double x)
        | none => if isNotFiniteWord s then notFinite else text
      match integer? s.toList with
      | some i =>
        if minInt64 ≤ i ∧ i < wordCount then number (.integer i)
        else if -(Nat.pow 2 127 : Int) ≤ i ∧ i < Nat.pow 2 128 then oversized
        else double
      | none => double

end Scalar

end ActionFlow
