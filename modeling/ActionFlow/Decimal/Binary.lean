/-!
# Doubles as exact numbers

A finite double is a whole number of units, where the unit is a power of two.  `Dyadic.ofFloat`
reads mantissa and exponent off the bit pattern; everything that needs the exact value of a double
(its integer part, its shortest decimal text) starts there.
-/
namespace ActionFlow

/-- The exact value of a finite double: `mantissa * 2 ^ exponent`, with a sign. -/
structure Dyadic where
  /-- Whether the sign bit is set; zero has a sign too. -/
  negative : Bool
  mantissa : Nat
  exponent : Int
  deriving DecidableEq, Repr

namespace Dyadic

def ofFloat (x : Float) : Dyadic :=
  let bits := x.toBits.toNat
  let field : Nat := bits / Nat.pow 2 52 % Nat.pow 2 11
  let fraction : Nat := bits % Nat.pow 2 52
  ⟨bits / Nat.pow 2 63 = 1, if field = 0 then fraction else fraction + Nat.pow 2 52,
    if field = 0 then -1074 else (field : Int) - 1075⟩

def magnitude (d : Dyadic) : Nat :=
  if 0 ≤ d.exponent then d.mantissa * Nat.pow 2 d.exponent.toNat
  else d.mantissa / Nat.pow 2 (-d.exponent).toNat

def isIntegral (d : Dyadic) : Bool :=
  0 ≤ d.exponent || d.mantissa % Nat.pow 2 (-d.exponent).toNat = 0

def toInt? (d : Dyadic) : Option Int :=
  if d.isIntegral then some (if d.negative then -(d.magnitude : Int) else d.magnitude) else none

theorem toInt?_eq_none_iff (d : Dyadic) : d.toInt? = none ↔ d.isIntegral = false := by
  cases h : d.isIntegral <;> simp [toInt?, h]

end Dyadic

def minInt64 : Int := -9223372036854775808

def maxInt64 : Int := 9223372036854775807

def wordCount : Nat := 18446744073709551616

def clampInt64 (i : Int) : Int :=
  if i < minInt64 then minInt64 else if maxInt64 < i then maxInt64 else i

theorem minInt64_le_clampInt64 (i : Int) : minInt64 ≤ clampInt64 i := by
  simp only [clampInt64, minInt64, maxInt64]
  omega

theorem clampInt64_le_maxInt64 (i : Int) : clampInt64 i ≤ maxInt64 := by
  simp only [clampInt64, minInt64, maxInt64]
  omega

theorem clampInt64_eq_self {i : Int} (h : minInt64 ≤ i) (h' : i ≤ maxInt64) : clampInt64 i = i := by
  simp only [clampInt64]
  omega

/-- The integer of a double without a fractional part; beyond 64 bits it is the nearest one there
is. -/
def integerOfFloat? (x : Float) : Option Int :=
  (Dyadic.ofFloat x).toInt?.map clampInt64

end ActionFlow
