import ActionFlow.Json.Basic
import ActionFlow.Decimal.Reading

/-!
# Number literals of JSON texts

The grammar of number literals and the value of one.  Without a point and an exponent a literal is
an exact integer if it fits 64 bits.  Every other literal is a double: as many digits as fit 64 bits
make an integer, which is scaled by one power of ten.  A literal beyond the doubles has no value.
-/
namespace ActionFlow.Json

structure Literal where
  negative : Bool
  whole : List Char
  fraction : Option (List Char)
  exponent : Option Int
  deriving DecidableEq

namespace Literal

/-- Appends digits to an integer of 64 bits while it fits; gives the integer and the digits that
are left. -/
def gather (n : Nat) : List Char → Nat × List Char
  | [] => (n, [])
  | c :: rest =>
    let next := n * 10 + Decimal.digitValue c
    if next < wordCount then gather next rest else (n, c :: rest)

/-- `digits * 10 ^ exponent` as a double, in one step of scaling, or two where the power is
beyond the doubles. -/
def scaled? (digits : Nat) (exponent : Int) : Option Float :=
  let x := Float.ofNat digits
  let power (n : Nat) : Float := Float.ofScientific 1 false n
  if digits = 0 then some 0
  else if 308 < exponent then none
  else if 0 ≤ exponent then
    let y := x * power exponent.toNat
    if y.isFinite then some y else none
  else if -308 ≤ exponent then some (x / power (-exponent).toNat)
  else if -616 ≤ exponent then some (x / power 308 / power (-exponent - 308).toNat)
  else some 0

def double? (l : Literal) : Option Float :=
  let (digits, beyond) := gather 0 l.whole
  let fraction := l.fraction.getD []
  let (digits, unread) := gather digits fraction
  let places := fraction.length - unread.length
  let exponent := l.exponent.getD 0 + beyond.length - places
  (scaled? digits exponent).map fun x => if l.negative then -x else x

/-- The integer that a literal stands for, if it has no point and no exponent, fits 64 bits and is
not minus zero. -/
def integer? (l : Literal) : Option Int :=
  let n := Decimal.digitsValue 0 l.whole
  if l.fraction.isSome ∨ l.exponent.isSome then none
  else if l.negative then
    if 0 < n ∧ minInt64 ≤ -(n : Int) then some (-(n : Int)) else none
  else if n < wordCount then some n else none

def number? (l : Literal) : Option Number :=
  match l.integer? with
  | some i => some (.integer i)
  | none => l.double?.map .double

theorem integer?_bounds {l : Literal} {i : Int} (h : l.integer? = some i) :
    minInt64 ≤ i ∧ i < wordCount := by
  simp only [integer?] at h
  split at h
  · simp at h
  · split at h
    · split at h
      · simp only [Option.some.injEq] at h
        simp only [minInt64, wordCount] at *
        omega
      · simp at h
    · split at h
      · simp only [Option.some.injEq] at h
        simp only [minInt64, wordCount] at *
        omega
      · simp at h

end Literal

end ActionFlow.Json
