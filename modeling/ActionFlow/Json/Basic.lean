import ActionFlow.Entries
import ActionFlow.Decimal.Layout

/-!
# JSON values

Numbers are exact integers of 64 bits, with or without a sign, or finite doubles; the two kinds
never equal each other.  Objects keep their fields in insertion order, each key once.
-/
namespace ActionFlow

inductive Number where
  /-- An integer from `-2 ^ 63` to `2 ^ 64 - 1`. -/
  | integer (value : Int)
  | double (value : Float)
  deriving DecidableEq

namespace Number

def WellFormed : Number → Prop
  | integer value => minInt64 ≤ value ∧ value < wordCount
  | double value => value.isFinite = true

instance : ∀ n : Number, Decidable n.WellFormed
  | integer value => inferInstanceAs (Decidable (minInt64 ≤ value ∧ value < wordCount))
  | double value => inferInstanceAs (Decidable (value.isFinite = true))

def toFloat : Number → Float
  | integer value => Float.ofInt value
  | double value => value

/-- The number as an integer of 64 bits with a sign.  An integer above that range and a double
without a fractional part count too: they give the nearest integer in range. -/
def toInt64? : Number → Option Int
  | integer value =>
    if value ≤ maxInt64 then some value else integerOfFloat? (Float.ofInt value)
  | double value => integerOfFloat? value

/-- Equality of numbers of one kind; zero has one value whatever its sign. -/
def same : Number → Number → Bool
  | integer a, integer b => a == b
  | double a, double b => a == b
  | _, _ => false

def text : Number → String
  | integer value => Decimal.integerText value
  | double value => Decimal.doubleText value

end Number

inductive Json where
  | null
  | bool (value : Bool)
  | number (value : Number)
  | text (value : String)
  | array (items : List Json)
  | object (fields : List (String × Json))
  deriving Inhabited

namespace Json

def integer (i : Int) : Json := number (.integer i)

def double (x : Float) : Json := if x.isFinite then number (.double x) else null

def orNull : Option Json → Json
  | some j => j
  | none => null

def isNull : Json → Bool
  | null => true
  | _ => false

def field? (j : Json) (key : String) : Option Json :=
  match j with
  | object fields => Entries.find? fields key
  | _ => none

def text? : Json → Option String
  | text s => some s
  | _ => none

def bool? : Json → Option Bool
  | bool b => some b
  | _ => none

mutual
/-- A measure that is larger for a value than for anything inside it. -/
def size : Json → Nat
  | null | bool _ | number _ | text _ => 1
  | array items => 1 + sizeItems items
  | object fields => 1 + sizeFields fields

def sizeItems : List Json → Nat
  | [] => 0
  | j :: rest => j.size + sizeItems rest

def sizeFields : List (String × Json) → Nat
  | [] => 0
  | (_, j) :: rest => j.size + sizeFields rest
end

theorem size_pos (j : Json) : 0 < j.size := by
  cases j <;> simp only [size] <;> omega

theorem size_le_sizeFields {key : String} {j : Json} {fields : List (String × Json)}
    (h : Entries.find? fields key = some j) : j.size ≤ sizeFields fields := by
  induction fields with
  | nil => simp at h
  | cons pair rest ih =>
    obtain ⟨k, v⟩ := pair
    by_cases hk : k = key
    · have : v = j := by simpa [Entries.find?, hk] using h
      subst this
      simp [sizeFields]
    · have := ih (by simpa [Entries.find?, hk] using h)
      simp only [sizeFields]
      omega

end Json

end ActionFlow
