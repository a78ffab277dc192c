import ActionFlow.Decimal.Binary

/-!
# Shortest decimals

The decimal with the fewest digits that still reads back as a given double.  The reals that round
to a double form an interval around it, which holds its ends when the mantissa is even.  On the
grid of decimals with one digit, then with two, and so on, the two neighbours of the double are
tried; the first grid with a neighbour in the interval wins, of two hits the nearer, and of two
equally near ones the even one.
-/
namespace ActionFlow

/-- A decimal number `digits * 10 ^ exponent`. -/
structure Decimal where
  digits : Nat
  exponent : Int
  deriving DecidableEq, Repr

namespace Decimal

/-- Moves trailing zeros of the digits into the exponent; `limit` bounds their number. -/
def strip (limit : Nat) (d : Decimal) : Decimal :=
  match limit with
  | 0 => d
  | limit + 1 =>
    if d.digits ≠ 0 ∧ d.digits % 10 = 0 then strip limit ⟨d.digits / 10, d.exponent + 1⟩ else d

/-- A positive fraction with the half-widths of the interval that rounds to it, all over one
denominator. -/
structure Target where
  value : Nat
  below : Nat
  above : Nat
  denominator : Nat
  /-- Whether the ends belong to the interval. -/
  closed : Bool

namespace Target

/-- The interval of the reals that round to a positive double.  Below a power of two the doubles
are twice as close, except at the bottom of the range. -/
def ofDyadic (d : Dyadic) : Target :=
  let narrow := d.mantissa = Nat.pow 2 52 ∧ -1074 < d.exponent
  let scale := Nat.pow 2 (d.exponent - 2).toNat
  ⟨4 * d.mantissa * scale, (if narrow then 1 else 2) * scale, 2 * scale,
    Nat.pow 2 (2 - d.exponent).toNat, d.mantissa % 2 = 0⟩

def leading (t : Target) : Int :=
  if t.denominator ≤ t.value then ((Nat.toDigits 10 (t.value / t.denominator)).length : Int) - 1
  else -((Nat.toDigits 10 ((t.denominator - 1) / t.value)).length : Int)

def inUnits (t : Target) (k : Int) : Target :=
  let up := Nat.pow 10 (-k).toNat
  ⟨t.value * up, t.below * up, t.above * up, t.denominator * Nat.pow 10 k.toNat, t.closed⟩

def holds (t : Target) (n : Nat) : Bool :=
  let x := n * t.denominator
  if x ≤ t.value then
    if t.closed then t.value - x ≤ t.below else t.value - x < t.below
  else
    if t.closed then x - t.value ≤ t.above else x - t.value < t.above

def neighbour? (t : Target) : Option Nat :=
  let low := t.value / t.denominator
  let high := low + 1
  match t.holds low, t.holds high with
  | true, true =>
    let down := t.value - low * t.denominator
    let up := high * t.denominator - t.value
    some (if down < up then low else if up < down then high
      else if low % 2 = 0 then low else high)
  | true, false => some low
  | false, true => some high
  | false, false => none

/-- Tries the grids with `used + 1` digits, `used + 2` digits and so on, `left` of them. -/
def search (t : Target) (left used : Nat) : Decimal :=
  let k := t.leading - used
  match left with
  | 0 => ⟨t.value / t.denominator, 0⟩
  | left + 1 =>
    match (t.inUnits k).neighbour? with
    | some n => ⟨n, k⟩
    | none => search t left (used + 1)

end Target

/-- The shortest decimal that reads back as a positive double. -/
def shortest (d : Dyadic) : Decimal :=
  strip 20 ((Target.ofDyadic d).search 17 0)

/-! ### A neighbour is in the interval -/

theorem Target.holds_of_neighbour? {t : Target} {n : Nat} (h : t.neighbour? = some n) :
    t.holds n = true := by
  simp only [Target.neighbour?] at h
  split at h
  · next hl hh =>
    simp only [Option.some.injEq] at h
    subst h
    split
    · exact hl
    · split
      · exact hh
      · split
        · exact hl
        · exact hh
  · next hl _ => simp only [Option.some.injEq] at h; exact h ▸ hl
  · next hh => simp only [Option.some.injEq] at h; exact h ▸ hh
  · exact absurd h (by simp)

end Decimal

end ActionFlow
