import ActionFlow.Proofs.DirectReadings
import ActionFlow.Proofs.RoundedIntegers

/-!
# Numbers read as integers

A number gives the integer that it equals, and none if it equals none.  That is exact as long as the
integer is one of 64 bits: what a number beyond gives instead is the greatest or the least of these.
-/
namespace ActionFlow

/-! ### Doubles -/

section Doubles

variable {x : Float}

theorem integerOfFloat?_of_exactValue {k : Int} (h : exactValue x = k) :
    integerOfFloat? x = some (clampInt64 k) := by
  rw [integerOfFloat?, ((Dyadic.ofFloat x).toInt?_eq_some_iff k).mpr h, Option.map_some]

theorem integerOfFloat?_of_fraction (h : ∀ k : Int, exactValue x ≠ k) :
    integerOfFloat? x = none := by
  rw [integerOfFloat?]
  cases hint : (Dyadic.ofFloat x).toInt? with
  | none => rfl
  | some k => exact absurd (((Dyadic.ofFloat x).toInt?_eq_some_iff k).mp hint) (h k)

/-- The double of an integer beyond 64 bits gives the greatest integer. -/
theorem integerOfFloat?_ofInt {i : Int} (h : (Number.integer i).WellFormed)
    (hbeyond : maxInt64 < i) : integerOfFloat? (Float.ofInt i) = some (clampInt64 i) := by
  have hlarge : 2 ^ 63 ≤ i.natAbs := by
    simp only [maxInt64] at hbeyond
    omega
  have hpos : ¬ i < 0 := by
    simp only [maxInt64] at hbeyond
    omega
  have hsize := Number.natAbs_lt h
  obtain ⟨k, hvalue, hk⟩ := (roundsTo_ofNat hsize).two_pow_le hlarge
  have hexact : exactValue (Float.ofInt i) = (k : Int) := by
    rw [(exactValue_ofInt hsize).2, if_neg hpos, hvalue]
    push_cast
    rfl
  have hclamp : clampInt64 k = clampInt64 i := by
    simp only [clampInt64, minInt64, maxInt64] at hbeyond ⊢
    omega
  rw [integerOfFloat?_of_exactValue hexact, hclamp]

end Doubles

/-! ### Numbers -/

namespace Number

variable {n : Number}

theorem toInt64?_of_value (h : n.WellFormed) {k : Int} (hvalue : n.value = k) :
    n.toInt64? = some (clampInt64 k) := by
  cases n with
  | integer i =>
    have hik : i = k := by exact_mod_cast (show ((i : Int) : ℚ) = k from hvalue)
    subst hik
    rw [toInt64?]
    by_cases hwithin : i ≤ maxInt64
    · rw [if_pos hwithin, clampInt64_eq_self h.1 hwithin]
    · rw [if_neg hwithin]
      exact integerOfFloat?_ofInt h (Int.not_le.mp hwithin)
  | double x => exact integerOfFloat?_of_exactValue hvalue

theorem toInt64?_of_fraction (h : ∀ k : Int, n.value ≠ k) : n.toInt64? = none := by
  cases n with
  | integer i => exact absurd rfl (h i)
  | double x => exact integerOfFloat?_of_fraction h

/-- The number equals the integer, which is one of 64 bits. -/
def Means (n : Number) (i : Int) : Prop := n.value = i ∧ minInt64 ≤ i ∧ i ≤ maxInt64

/-- The number counts as the integer that it means and, if it means none, as no integer, both by
itself and where a provider of it is read as an integer. -/
structure ReadExactly (n : Number) (p : Provider) (ctx : Context) : Prop where
  view : ∀ i, (Value.number n).int64? = some i ↔ n.Means i
  typed : ∀ i, p.resolveAs Conversion.integer ctx = .ok i ↔ n.Means i
  mismatch : (∀ i, ¬ n.Means i) →
    p.resolveAs Conversion.integer ctx = .fail (.typeMismatch "integer" "number")

end Number

section Readings

variable {n : Number} {p : Provider} {ctx : Context}

theorem resolveAs_integer (hp : p.resolve ctx = .ok (.number n)) :
    p.resolveAs Conversion.integer ctx =
      match n.toInt64? with
      | some i => .ok i
      | none => .fail (.typeMismatch "integer" "number") := by
  have hconvert : Conversion.integer.convert? (.number n) = n.toInt64? := rfl
  rw [Provider.resolveAs, hp]
  show Conversion.integer.apply (.number n) = _
  rw [Conversion.apply, hconvert]
  cases n.toInt64? <;> rfl

theorem resolveAs_integer_of_value (h : n.WellFormed) (hp : p.resolve ctx = .ok (.number n))
    {k : Int} (hvalue : n.value = k) :
    p.resolveAs Conversion.integer ctx = .ok (clampInt64 k) := by
  rw [resolveAs_integer hp, Number.toInt64?_of_value h hvalue]

theorem Number.toInt64?_eq_some_iff (h : n.WellFormed)
    (hrange : ∀ k : Int, n.value = k → minInt64 ≤ k ∧ k ≤ maxInt64) (i : Int) :
    n.toInt64? = some i ↔ n.Means i := by
  by_cases hint : ∃ k : Int, n.value = k
  · obtain ⟨k, hk⟩ := hint
    obtain ⟨hlow, hhigh⟩ := hrange k hk
    rw [Number.toInt64?_of_value h hk, clampInt64_eq_self hlow hhigh, Option.some_inj]
    constructor
    · intro hki
      subst hki
      exact ⟨hk, hlow, hhigh⟩
    · intro hmeans
      exact_mod_cast hk.symm.trans hmeans.1
  · have hfraction : ∀ k : Int, n.value ≠ k := fun k hk => hint ⟨k, hk⟩
    rw [Number.toInt64?_of_fraction hfraction]
    exact ⟨nofun, fun hmeans => absurd hmeans.1 (hfraction i)⟩

theorem Number.readExactly_of_range (h : n.WellFormed) (hp : p.resolve ctx = .ok (.number n))
    (hrange : ∀ k : Int, n.value = k → minInt64 ≤ k ∧ k ≤ maxInt64) : n.ReadExactly p ctx := by
  have hview := Number.toInt64?_eq_some_iff h hrange
  refine ⟨hview, fun i => ?_, fun hnone => ?_⟩
  · rw [resolveAs_integer hp, ← hview]
    cases n.toInt64? with
    | none => exact ⟨nofun, nofun⟩
    | some j => exact ⟨fun heq => congrArg some (Except.ok.inj heq),
        fun heq => congrArg Except.ok (Option.some.inj heq)⟩
  · rw [resolveAs_integer hp]
    cases hint : n.toInt64? with
    | none => rfl
    | some j => exact absurd ((hview j).mp hint) (hnone j)

/-- A number is read exactly unless it equals an integer beyond 64 bits, which is read as the
greatest or the least integer there is. -/
theorem integer_reading_exact_iff (h : n.WellFormed) (hp : p.resolve ctx = .ok (.number n)) :
    (n.ReadExactly p ctx ↔ ∀ k : Int, n.value = k → minInt64 ≤ k ∧ k ≤ maxInt64) ∧
      ∀ k : Int, n.value = k → p.resolveAs Conversion.integer ctx = .ok (clampInt64 k) := by
  refine ⟨⟨fun hexact k hk => ?_, Number.readExactly_of_range h hp⟩,
    fun k hk => resolveAs_integer_of_value h hp hk⟩
  obtain ⟨hvalue, hlow, hhigh⟩ := (hexact.typed _).mp (resolveAs_integer_of_value h hp hk)
  have hclamp : k = clampInt64 k := by exact_mod_cast hk.symm.trans hvalue
  rw [hclamp]
  exact ⟨hlow, hhigh⟩

/-- The greatest integer is read exactly. -/
theorem integer_reading_exact_greatest :
    let n : Number := .integer 9223372036854775807
    let p : Provider := .constant (.number n)
    let ctx := Context.start "r" "t" .null
    n.WellFormed ∧ p.resolve ctx = .ok (.number n) ∧ n.ReadExactly p ctx := by
  intro n p ctx
  have h : n.WellFormed := by decide
  have hp : p.resolve ctx = .ok (.number n) := by rw [Provider.resolve]
  refine ⟨h, hp, (integer_reading_exact_iff h hp).1.mpr fun k hk => ?_⟩
  have hvalue : ((9223372036854775807 : Int) : ℚ) = k := hk
  have heq : 9223372036854775807 = k := by exact_mod_cast hvalue
  subst heq
  decide

/-- The next one is not: it is read as the one before. -/
theorem integer_reading_inexact :
    let n : Number := .integer 9223372036854775808
    let p : Provider := .constant (.number n)
    let ctx := Context.start "r" "t" .null
    n.WellFormed ∧ p.resolve ctx = .ok (.number n) ∧
      p.resolveAs Conversion.integer ctx = .ok 9223372036854775807 ∧ ¬ n.ReadExactly p ctx := by
  intro n p ctx
  have h : n.WellFormed := by decide
  have hp : p.resolve ctx = .ok (.number n) := by rw [Provider.resolve]
  have hread : p.resolveAs Conversion.integer ctx = .ok 9223372036854775807 := by
    rw [resolveAs_integer hp]
    decide
  refine ⟨h, hp, hread, fun hexact => ?_⟩
  have hvalue : ((9223372036854775808 : Int) : ℚ) = (9223372036854775807 : Int) :=
    ((hexact.typed _).mp hread).1
  have heq : (9223372036854775808 : Int) = 9223372036854775807 := by exact_mod_cast hvalue
  omega

end Readings

end ActionFlow
