import ActionFlow.Decimal.Binary

/-!
# Reading numbers from texts

The texts that stand for an integer, for a place in a list, and for a double.  An integer is an
optional sign and at least one digit, within its range.  A double is a sign and either digits with
an optional point and exponent, or one of the words for infinity and for no number; it is the
double nearest to the number written.
-/
namespace ActionFlow.Decimal

def digitValue (c : Char) : Nat := c.toNat - '0'.toNat

def digitsValue (start : Nat) (digits : List Char) : Nat :=
  digits.foldl (fun n c => n * 10 + digitValue c) start

def readNat? (cs : List Char) : Option Nat :=
  if cs ≠ [] ∧ cs.all Char.isDigit then some (digitsValue 0 cs) else none

def readInteger? : List Char → Option Int
  | '-' :: rest => (readNat? rest).map fun n : Nat => -(n : Int)
  | '+' :: rest => (readNat? rest).map Int.ofNat
  | cs => (readNat? cs).map Int.ofNat

def dropPlus : List Char → List Char
  | '+' :: rest => rest
  | cs => cs

def readIndex? (s : String) : Option Nat :=
  (readNat? (dropPlus s.toList)).filter (· < wordCount)

def readInt64? (s : String) : Option Int :=
  (readInteger? s.toList).filter fun i => minInt64 ≤ i ∧ i ≤ maxInt64

def nearest (digits : Nat) (exponent : Int) : Float :=
  let leading := exponent + (Nat.toDigits 10 digits).length
  if digits = 0 ∨ leading < -400 then 0
  else if 400 < leading then 1 / 0
  else Float.ofScientific digits (decide (exponent < 0)) exponent.natAbs

/-- An exponent mark with its integer, at the end of a text; nothing means the exponent zero. -/
def readExponent? : List Char → Option Int
  | [] => some 0
  | c :: rest =>
    if c = 'e' ∨ c = 'E' then readInteger? rest else none

/-- The double of an unsigned decimal text, which has a digit before or after the point. -/
def readMagnitude? (cs : List Char) : Option Float := do
  let whole := cs.takeWhile Char.isDigit
  let afterWhole := cs.dropWhile Char.isDigit
  let (fraction, rest) := match afterWhole with
    | '.' :: tail => (tail.takeWhile Char.isDigit, tail.dropWhile Char.isDigit)
    | tail => ([], tail)
  if whole = [] ∧ fraction = [] then none
  else
    let exponent ← readExponent? rest
    some (nearest (digitsValue 0 (whole ++ fraction)) (exponent - fraction.length))

def readWord? (cs : List Char) : Option Float :=
  let word := String.ofList (cs.map Char.toLower)
  if word = "inf" ∨ word = "infinity" then some (1 / 0)
  else if word = "nan" then some (0 / 0)
  else none

def readFloat? (s : String) : Option Float :=
  let unsigned (cs : List Char) := (readMagnitude? cs).or (readWord? cs)
  match s.toList with
  | '-' :: rest => (unsigned rest).map Float.neg
  | '+' :: rest => unsigned rest
  | cs => unsigned cs

/-! ### Ranges -/

theorem readIndex?_lt {s : String} {n : Nat} (h : readIndex? s = some n) : n < wordCount := by
  have := (Option.filter_eq_some_iff.1 h).2
  simpa using this

theorem readInt64?_bounds {s : String} {i : Int} (h : readInt64? s = some i) :
    minInt64 ≤ i ∧ i ≤ maxInt64 := by
  have := (Option.filter_eq_some_iff.1 h).2
  simpa using this

end ActionFlow.Decimal
