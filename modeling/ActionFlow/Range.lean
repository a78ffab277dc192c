/-!
# Ranges of an iteration

The places of a list that an iteration visits, and in which direction.  Given places must lie in
the list.  With both bounds given they alone decide the direction; otherwise the flag does, and a
missing bound is the end of the list that fits the direction.
-/
namespace ActionFlow

structure Range where
  first : Nat
  last : Nat
  reverse : Bool
  deriving DecidableEq, Repr

namespace Range

/-- A given place, if it lies in a list of `length` items; else the place itself. -/
def place (length : Nat) (index : Int) : Except Int Nat :=
  if 0 ≤ index ∧ index < length then .ok index.toNat else .error index

def place? (length : Nat) : Option Int → Except Int (Option Nat)
  | none => .ok none
  | some index => (place length index).map some

def between (length : Nat) (first last : Option Nat) (reverse : Bool) : Range :=
  match first, last with
  | some first, some last => ⟨first, last, last < first⟩
  | first, last =>
    if reverse then ⟨first.getD (length - 1), last.getD 0, true⟩
    else ⟨first.getD 0, last.getD (length - 1), false⟩

/-- The range for a list of `length` items, or the first given place that lies outside of it. -/
def resolve (length : Nat) (first last : Option Int) (reverse : Bool) : Except Int Range := do
  let first ← place? length first
  let last ← place? length last
  .ok (between length first last reverse)

def ascending (low high : Nat) : List Nat :=
  (List.range (high + 1 - low)).map (low + ·)

def places (r : Range) : List Nat :=
  if r.reverse then (ascending r.last r.first).reverse else ascending r.first r.last

theorem place_eq_ok_iff {length : Nat} {index : Int} {n : Nat} :
    place length index = .ok n ↔ index = n ∧ n < length := by
  simp only [place]
  split
  · simp only [Except.ok.injEq]
    omega
  · simp only [reduceCtorEq, false_iff]
    omega

theorem mem_ascending {low high n : Nat} : n ∈ ascending low high ↔ low ≤ n ∧ n ≤ high := by
  simp only [ascending, List.mem_map, List.mem_range]
  constructor
  · rintro ⟨k, hk, rfl⟩
    omega
  · rintro ⟨h, h'⟩
    exact ⟨n - low, by omega, by omega⟩

theorem length_ascending (low high : Nat) : (ascending low high).length = high + 1 - low := by
  simp [ascending]

end Range

end ActionFlow
