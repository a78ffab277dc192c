import ActionFlow.Decimal.Binary
import Mathlib.Algebra.Order.Field.Power
import Mathlib.Data.Nat.Cast.Field
import Mathlib.Data.Rat.Cast.Order
import Mathlib.Tactic.NormNum
import Mathlib.Tactic.Positivity
import Mathlib.Tactic.Ring

/-!
# The numbers that doubles stand for

A double is a whole number of units, where the unit is a power of two, and two doubles compare as
the numbers do that they stand for.  An infinity counts as the double that would come next after the
finite ones, so that every double has its place except NaN, which compares with nothing.
-/
namespace ActionFlow

open Float.Model (Format UnpackedFloat)
open Float.Model.UnpackedFloat (Sign unpackMantissa unpackExponent unpackSign)

namespace Dyadic

/-- What a dyadic amounts to, its sign aside. -/
def size (d : Dyadic) : ℚ := d.mantissa * 2 ^ d.exponent

/-- The number that a dyadic stands for. -/
def value (d : Dyadic) : ℚ := if d.negative then -d.size else d.size

/-- A mantissa of 53 bits, all of them used above the least exponent. -/
structure Canonical (d : Dyadic) : Prop where
  small : d.mantissa < 2 ^ 53
  full : 2 ^ 52 ≤ d.mantissa ∨ d.exponent = -1074
  least : -1074 ≤ d.exponent

/-! ### Unpacked doubles -/

/-- The unpacked forms of doubles other than NaN, with their parts. -/
inductive Unpacked : UnpackedFloat → Dyadic → Prop
  | zero (s : Sign) : Unpacked (.zero s) ⟨s == .negative, 0, -1074⟩
  | finite (s : Sign) {m : Nat} {e : Int} (pos : 0 < m)
      (canonical : Canonical ⟨s == .negative, m, e⟩) (most : e ≤ 971) :
      Unpacked (.finite s m e pos) ⟨s == .negative, m, e⟩
  | infinity (s : Sign) : Unpacked (.infinity s) ⟨s == .negative, 2 ^ 52, 972⟩

section Fields

variable (b : BitVec Format.binary64.numBits)

theorem toNat_unpackMantissa : (unpackMantissa b).toNat = b.toNat % 2 ^ 52 := by
  show (BitVec.cast _ (b.extractLsb 51 0)).toNat = _
  rw [BitVec.toNat_cast, BitVec.extractLsb_toNat, Nat.shiftRight_zero]

theorem toNat_unpackExponent : (unpackExponent b).toNat = b.toNat / 2 ^ 52 % 2 ^ 11 := by
  show (BitVec.cast _ (b.extractLsb 62 52)).toNat = _
  rw [BitVec.toNat_cast, BitVec.extractLsb_toNat, Nat.shiftRight_eq_div_pow]

theorem toNat_unpackSign : (unpackSign b).toNat = b.toNat / 2 ^ 63 := by
  have hbit : b.toNat / 2 ^ 63 < 2 := Nat.div_lt_of_lt_mul b.isLt
  show (BitVec.cast _ (b.extractLsb 63 63)).toNat = _
  rw [BitVec.toNat_cast, BitVec.extractLsb_toNat, Nat.shiftRight_eq_div_pow]
  exact Nat.mod_eq_of_lt hbit

theorem negative_ofBitVec (s : BitVec 1) :
    (Sign.ofBitVec s == .negative) = decide (s.toNat = 1) := by
  revert s
  decide

theorem unpackExponent_ne_top (h : (unpackExponent b).toNat < 2047) : unpackExponent b ≠ -1#_ := by
  intro htop
  have hval : (unpackExponent b).toNat = 2047 := by
    rw [htop]
    rfl
  omega

theorem finite_congr {s : Sign} {m n : Nat} {e k : Int} {hm : 0 < m} (hn : 0 < n) (h : m = n)
    (h' : e = k) : UnpackedFloat.finite s m e hm = .finite s n k hn := by
  subst h h'
  rfl

variable {b}

/-- Below the greatest exponent the fields give a mantissa and an exponent; the bit before the
fraction is set except at the least exponent. -/
theorem unpack_eq_finite (h : (unpackExponent b).toNat < 2047) {m : Nat} (pos : 0 < m)
    (hm : m = if (unpackExponent b).toNat = 0 then (unpackMantissa b).toNat
      else (unpackMantissa b).toNat + 2 ^ 52) {e : Int}
    (he : e = if (unpackExponent b).toNat = 0 then -1074
      else ((unpackExponent b).toNat : Int) - 1075) :
    UnpackedFloat.unpack Format.binary64 b =
      .finite (Sign.ofBitVec (unpackSign b)) m e pos := by
  unfold UnpackedFloat.unpack
  dsimp only
  rw [if_neg (unpackExponent_ne_top b h)]
  by_cases hbottom : unpackExponent b = 0#_
  · have hzero : (unpackExponent b).toNat = 0 := by
      rw [hbottom]
      rfl
    rw [if_pos hzero] at hm he
    have hfraction : unpackMantissa b ≠ 0#_ := by
      intro heq
      have hval : (unpackMantissa b).toNat = 0 := by
        rw [heq]
        rfl
      omega
    rw [if_pos hbottom, dif_neg hfraction]
    refine finite_congr pos hm.symm ?_
    rw [hzero, he]
    rfl
  · have hnot : (unpackExponent b).toNat ≠ 0 := fun heq => hbottom (BitVec.eq_of_toNat_eq heq)
    rw [if_neg hnot] at hm he
    have himplicit : (1#1 ++ unpackMantissa b).toNat = (unpackMantissa b).toNat + 2 ^ 52 := by
      rw [BitVec.toNat_append, ← Nat.shiftLeft_add_eq_or_of_lt (BitVec.isLt _), Nat.add_comm]
      rfl
    rw [if_neg hbottom]
    refine finite_congr pos (himplicit.trans hm.symm) ?_
    rw [he]
    rfl

theorem unpack_eq_zero (he : (unpackExponent b).toNat = 0) (hm : (unpackMantissa b).toNat = 0) :
    UnpackedFloat.unpack Format.binary64 b = .zero (Sign.ofBitVec (unpackSign b)) := by
  have hbelow : (unpackExponent b).toNat < 2047 := by omega
  have hbottom : unpackExponent b = 0#_ := BitVec.eq_of_toNat_eq he
  have hfraction : unpackMantissa b = 0#_ := BitVec.eq_of_toNat_eq hm
  unfold UnpackedFloat.unpack
  dsimp only
  rw [if_neg (unpackExponent_ne_top b hbelow), if_pos hbottom, dif_pos hfraction]

/-- The greatest exponent is that of the infinities, and of NaN. -/
theorem unpack_eq_infinity (he : (unpackExponent b).toNat = 2047)
    (hnumber : (UnpackedFloat.unpack Format.binary64 b).isNaN = false) :
    UnpackedFloat.unpack Format.binary64 b = .infinity (Sign.ofBitVec (unpackSign b)) ∧
      (unpackMantissa b).toNat = 0 := by
  have htop : unpackExponent b = -1#_ := BitVec.eq_of_toNat_eq he
  unfold UnpackedFloat.unpack at hnumber ⊢
  dsimp only at hnumber ⊢
  rw [if_pos htop] at hnumber ⊢
  by_cases hfraction : unpackMantissa b = 0#_
  · rw [if_pos hfraction, hfraction]
    exact ⟨rfl, rfl⟩
  · rw [if_neg hfraction] at hnumber
    cases hnumber

end Fields

/-- The parts that are read off the bits of a double are those of its unpacked form. -/
theorem unpacked_ofFloat {x : Float} (h : x.isNaN = false) :
    Unpacked x.toModel.unpack (ofFloat x) := by
  let b : BitVec Format.binary64.numBits := x.toModel.toBits.toBitVec
  have hread : ofFloat x = ⟨Sign.ofBitVec (unpackSign b) == .negative,
      if (unpackExponent b).toNat = 0 then (unpackMantissa b).toNat
        else (unpackMantissa b).toNat + 2 ^ 52,
      if (unpackExponent b).toNat = 0 then -1074
        else ((unpackExponent b).toNat : Int) - 1075⟩ := by
    rw [negative_ofBitVec, toNat_unpackSign, toNat_unpackExponent, toNat_unpackMantissa]
    rfl
  have hmantissa : (unpackMantissa b).toNat < 2 ^ 52 := (unpackMantissa b).isLt
  have hexponent : (unpackExponent b).toNat < 2048 := (unpackExponent b).isLt
  show Unpacked (UnpackedFloat.unpack Format.binary64 b) _
  rw [hread]
  -- zeros have the fields of numbers below the least one, so they are told apart first
  by_cases hbelow : (unpackExponent b).toNat < 2047
  · by_cases hzero : (unpackExponent b).toNat = 0 ∧ (unpackMantissa b).toNat = 0
    · rw [if_pos hzero.1, if_pos hzero.1, unpack_eq_zero hzero.1 hzero.2, hzero.2]
      exact .zero _
    · have hpos : 0 < if (unpackExponent b).toNat = 0 then (unpackMantissa b).toNat
          else (unpackMantissa b).toNat + 2 ^ 52 := by
        split <;> omega
      rw [unpack_eq_finite hbelow hpos rfl rfl]
      refine .finite _ hpos ?_ (by split <;> omega)
      constructor <;> dsimp only <;> split <;> omega
  · have he : (unpackExponent b).toNat = 2047 := by omega
    obtain ⟨hunpack, hm⟩ := unpack_eq_infinity he h
    rw [hunpack, he, hm]
    exact .infinity _

theorem Unpacked.canonical {u : UnpackedFloat} {d : Dyadic} (h : Unpacked u d) : d.Canonical := by
  cases h with
  | zero s => exact ⟨by norm_num, .inr rfl, le_refl _⟩
  | finite s pos canonical most => exact canonical
  | infinity s => exact ⟨by norm_num, .inl (le_refl _), by norm_num⟩

/-! ### Sizes -/

theorem size_nonneg (d : Dyadic) : 0 ≤ d.size := by
  rw [size]
  positivity

theorem size_pos {d : Dyadic} (h : 0 < d.mantissa) : 0 < d.size := by
  have hmantissa : (0 : ℚ) < d.mantissa := by exact_mod_cast h
  have hunit : (0 : ℚ) < 2 ^ d.exponent := by positivity
  exact mul_pos hmantissa hunit

theorem abs_value (d : Dyadic) : |d.value| = d.size := by
  rw [value]
  split
  · rw [abs_neg, abs_of_nonneg d.size_nonneg]
  · exact abs_of_nonneg d.size_nonneg

theorem size_lt_of_exponent_lt {c d : Dyadic} (hc : c.Canonical) (hd : d.Canonical)
    (h : c.exponent < d.exponent) : c.size < d.size := by
  have hfull : 2 ^ 52 ≤ d.mantissa := by
    refine hd.full.resolve_right fun heq => ?_
    have hleast := hc.least
    omega
  have hsmall : (c.mantissa : ℚ) < 2 ^ 53 := by exact_mod_cast hc.small
  have hlarge : (2 : ℚ) ^ 52 ≤ d.mantissa := by exact_mod_cast hfull
  have hstep : (2 : ℚ) ^ (c.exponent + 1) ≤ 2 ^ d.exponent :=
    zpow_le_zpow_right₀ (by norm_num) (by omega)
  have hunit : (0 : ℚ) < 2 ^ c.exponent := by positivity
  calc
    c.size < 2 ^ 53 * 2 ^ c.exponent := mul_lt_mul_of_pos_right hsmall hunit
    _ = 2 ^ 52 * 2 ^ (c.exponent + 1) := by
      rw [zpow_add_one₀ (by norm_num)]
      ring
    _ ≤ 2 ^ 52 * 2 ^ d.exponent := mul_le_mul_of_nonneg_left hstep (by norm_num)
    _ ≤ d.size := mul_le_mul_of_nonneg_right hlarge (by positivity)

/-- Sizes compare by exponent first and then by mantissa. -/
theorem compare_size {c d : Dyadic} (hc : c.Canonical) (hd : d.Canonical) :
    compare c.size d.size =
      (compare c.exponent d.exponent).then (compare c.mantissa d.mantissa) := by
  rcases lt_trichotomy c.exponent d.exponent with h | h | h
  · rw [compare_lt_iff_lt.mpr h, compare_lt_iff_lt.mpr (size_lt_of_exponent_lt hc hd h)]
    rfl
  · have hunit : (0 : ℚ) < 2 ^ d.exponent := by positivity
    rw [compare_eq_iff_eq.mpr h, size, size, h]
    show _ = compare c.mantissa d.mantissa
    rcases lt_trichotomy c.mantissa d.mantissa with hm | hm | hm
    · have hcast : (c.mantissa : ℚ) < d.mantissa := by exact_mod_cast hm
      rw [compare_lt_iff_lt.mpr hm, compare_lt_iff_lt]
      exact mul_lt_mul_of_pos_right hcast hunit
    · rw [hm, compare_eq_iff_eq.mpr rfl, compare_eq_iff_eq.mpr rfl]
    · have hcast : (d.mantissa : ℚ) < c.mantissa := by exact_mod_cast hm
      rw [compare_gt_iff_gt.mpr hm, compare_gt_iff_gt]
      exact mul_lt_mul_of_pos_right hcast hunit
  · rw [compare_gt_iff_gt.mpr h, compare_gt_iff_gt.mpr (size_lt_of_exponent_lt hd hc h)]
    rfl

/-- Everything finite stays below the infinities. -/
theorem Unpacked.abs_value_lt {u : UnpackedFloat} {d : Dyadic} (h : Unpacked u d)
    (hfinite : u.isFinite = true) (s : Sign) :
    |d.value| < size ⟨s == .negative, 2 ^ 52, 972⟩ := by
  have hexponent : d.exponent < 972 := by
    cases h with
    | zero s => norm_num
    | finite s pos canonical most => exact Int.lt_add_one_of_le most
    | infinity s => cases hfinite
  rw [abs_value]
  exact size_lt_of_exponent_lt h.canonical (Unpacked.infinity s).canonical hexponent

/-! ### Comparisons -/

theorem compare_neg_neg (a b : ℚ) : compare (-a) (-b) = (compare a b).swap := by
  rcases lt_trichotomy a b with h | h | h
  · rw [compare_lt_iff_lt.mpr h]
    exact compare_gt_iff_gt.mpr (neg_lt_neg h)
  · rw [compare_eq_iff_eq.mpr h]
    exact compare_eq_iff_eq.mpr (congrArg _ h)
  · rw [compare_gt_iff_gt.mpr h]
    exact compare_lt_iff_lt.mpr (neg_lt_neg h)

section Compare

variable {u v : UnpackedFloat} {c d : Dyadic}

theorem compare_swap (u v : UnpackedFloat) : u.compare v = (v.compare u).map Ordering.swap := by
  cases u with
  | notANumber => cases v <;> rfl
  | infinity s =>
    cases v with
    | infinity t => cases s <;> cases t <;> rfl
    | notANumber | zero _ | finite _ _ _ _ => cases s <;> rfl
  | zero s =>
    cases v with
    | infinity t => cases t <;> rfl
    | finite t n k pos => cases t <;> rfl
    | notANumber | zero _ => rfl
  | finite s m e pos =>
    cases v with
    | notANumber => rfl
    | infinity t => cases s <;> cases t <;> rfl
    | zero t => cases s <;> rfl
    | finite t n k pos =>
      have hswap : (compare e k).then (compare m n) =
          ((compare k e).then (compare n m)).swap := by
        rw [Ordering.swap_then, Int.compare_swap, Nat.compare_swap]
      cases s <;> cases t
      · exact congrArg some (congrArg Ordering.swap hswap)
      · rfl
      · rfl
      · exact congrArg some hswap

theorem compare_value_swap (h : v.compare u = some (compare d.value c.value)) :
    u.compare v = some (compare c.value d.value) := by
  rw [compare_swap, h]
  exact congrArg some Std.OrientedCmp.eq_swap.symm

theorem value_zero (s : Sign) : value ⟨s == .negative, 0, -1074⟩ = 0 := by
  cases s <;> norm_num [value, size]

theorem compare_infinity (s t : Sign) :
    (UnpackedFloat.infinity s).compare (.infinity t) =
      some (compare (value ⟨s == .negative, 2 ^ 52, 972⟩)
        (value ⟨t == .negative, 2 ^ 52, 972⟩)) := by
  have hsize : 0 < size ⟨s == .negative, 2 ^ 52, 972⟩ := size_pos (by norm_num)
  cases s <;> cases t
  · exact congrArg some (compare_eq_iff_eq.mpr rfl).symm
  · exact congrArg some (compare_lt_iff_lt.mpr (neg_lt_self hsize)).symm
  · exact congrArg some (compare_gt_iff_gt.mpr (neg_lt_self hsize)).symm
  · exact congrArg some (compare_eq_iff_eq.mpr rfl).symm

theorem compare_infinity_finite (s : Sign) (hv : Unpacked v d) (hfinite : v.isFinite = true) :
    (UnpackedFloat.infinity s).compare v =
      some (compare (value ⟨s == .negative, 2 ^ 52, 972⟩) d.value) := by
  have hbetween := abs_lt.mp (hv.abs_value_lt hfinite s)
  cases s with
  | negative =>
    refine Eq.trans ?_ (congrArg some (compare_lt_iff_lt.mpr hbetween.1).symm)
    cases hv with
    | zero t => rfl
    | finite t pos canonical most => rfl
    | infinity t => cases hfinite
  | positive =>
    refine Eq.trans ?_ (congrArg some (compare_gt_iff_gt.mpr hbetween.2).symm)
    cases hv with
    | zero t => rfl
    | finite t pos canonical most => rfl
    | infinity t => cases hfinite

theorem compare_finite_zero (s t : Sign) {m : Nat} {e : Int} (pos : 0 < m) :
    (UnpackedFloat.finite s m e pos).compare (.zero t) =
      some (compare (value ⟨s == .negative, m, e⟩) (value ⟨t == .negative, 0, -1074⟩)) := by
  have hsize : 0 < size ⟨s == .negative, m, e⟩ := size_pos pos
  rw [value_zero]
  cases s with
  | negative => exact congrArg some (compare_lt_iff_lt.mpr (neg_neg_of_pos hsize)).symm
  | positive => exact congrArg some (compare_gt_iff_gt.mpr hsize).symm

theorem compare_finite (s t : Sign) {m n : Nat} {e k : Int} (hm : 0 < m) (hn : 0 < n)
    (hc : Canonical ⟨s == .negative, m, e⟩) (hd : Canonical ⟨t == .negative, n, k⟩) :
    (UnpackedFloat.finite s m e hm).compare (.finite t n k hn) =
      some (compare (value ⟨s == .negative, m, e⟩) (value ⟨t == .negative, n, k⟩)) := by
  have hcompare := compare_size hc hd
  have hs : 0 < size ⟨s == .negative, m, e⟩ := size_pos hm
  have ht : 0 < size ⟨t == .negative, n, k⟩ := size_pos hn
  cases s <;> cases t
  · refine congrArg some (Eq.trans ?_ (compare_neg_neg _ _).symm)
    exact congrArg Ordering.swap hcompare.symm
  · exact congrArg some (compare_lt_iff_lt.mpr ((neg_neg_of_pos hs).trans ht)).symm
  · exact congrArg some (compare_gt_iff_gt.mpr ((neg_neg_of_pos ht).trans hs)).symm
  · exact congrArg some hcompare.symm

/-- Unpacked doubles compare as the numbers that they stand for. -/
theorem compare_unpacked (hu : Unpacked u c) (hv : Unpacked v d) :
    u.compare v = some (compare c.value d.value) := by
  cases hu with
  | zero s =>
    cases hv with
    | zero t =>
      rw [value_zero, value_zero, compare_eq_iff_eq.mpr rfl]
      rfl
    | finite t pos _ _ => exact compare_value_swap (compare_finite_zero t s pos)
    | infinity t => exact compare_value_swap (compare_infinity_finite t (.zero s) rfl)
  | finite s pos canonical most =>
    cases hv with
    | zero t => exact compare_finite_zero s t pos
    | finite t hn hd _ => exact compare_finite s t pos hn canonical hd
    | infinity t =>
      exact compare_value_swap (compare_infinity_finite t (.finite s pos canonical most) rfl)
  | infinity s =>
    cases hv with
    | zero t => exact compare_infinity_finite s (.zero t) rfl
    | finite t pos canonical most =>
      exact compare_infinity_finite s (.finite t pos canonical most) rfl
    | infinity t => exact compare_infinity s t

end Compare

/-! ### Integers -/

theorem size_eq_magnitude {d : Dyadic} (h : d.isIntegral = true) : d.size = d.magnitude := by
  rw [isIntegral, Bool.or_eq_true, decide_eq_true_eq, decide_eq_true_eq] at h
  rw [size, magnitude]
  by_cases he : 0 ≤ d.exponent
  · have hunit : (2 : ℚ) ^ d.exponent = 2 ^ d.exponent.toNat := by
      rw [← zpow_natCast, Int.toNat_of_nonneg he]
    rw [if_pos he, hunit, Nat.pow_eq]
    push_cast
    rfl
  · have hunit : (2 : ℚ) ^ d.exponent = (2 ^ (-d.exponent).toNat)⁻¹ := by
      rw [← zpow_natCast, Int.toNat_of_nonneg (by omega), zpow_neg, inv_inv]
    have hdvd : 2 ^ (-d.exponent).toNat ∣ d.mantissa :=
      Nat.dvd_of_mod_eq_zero (h.resolve_left he)
    rw [if_neg he, hunit, ← div_eq_mul_inv, Nat.pow_eq, Nat.cast_div hdvd (by positivity)]
    push_cast
    rfl

theorem isIntegral_of_size {d : Dyadic} {n : Nat} (h : d.size = n) : d.isIntegral = true := by
  rw [isIntegral, Bool.or_eq_true, decide_eq_true_eq, decide_eq_true_eq]
  by_cases he : 0 ≤ d.exponent
  · exact .inl he
  · have hunit : (2 : ℚ) ^ d.exponent * 2 ^ (-d.exponent).toNat = 1 := by
      rw [← zpow_natCast, Int.toNat_of_nonneg (by omega), ← zpow_add₀ (by norm_num),
        add_neg_cancel, zpow_zero]
    have hcast : (d.mantissa : ℚ) = n * 2 ^ (-d.exponent).toNat := by
      rw [← h, size, mul_assoc, hunit, mul_one]
    have hmantissa : d.mantissa = n * 2 ^ (-d.exponent).toNat := by exact_mod_cast hcast
    rw [hmantissa]
    exact .inr (Nat.mul_mod_left _ _)

/-- A dyadic has an integer if its value is one, and that one. -/
theorem toInt?_eq_some_iff (d : Dyadic) (k : Int) : d.toInt? = some k ↔ d.value = k := by
  constructor
  · intro h
    rw [toInt?] at h
    split at h
    · rename_i hintegral
      rw [← Option.some.inj h, value, size_eq_magnitude hintegral]
      split <;> simp
    · cases h
  · intro h
    have hsize : d.size = k.natAbs := by rw [← abs_value, h, Nat.cast_natAbs, Int.cast_abs]
    have hintegral := isIntegral_of_size hsize
    rw [value, size_eq_magnitude hintegral] at h
    rw [toInt?, if_pos hintegral]
    congr 1
    by_cases hn : d.negative = true
    · rw [if_pos hn] at h ⊢
      exact_mod_cast h
    · rw [if_neg hn] at h ⊢
      exact_mod_cast h

end Dyadic

/-! ### Doubles -/

/-- The number that a double stands for. -/
def exactValue (x : Float) : ℚ := (Dyadic.ofFloat x).value

section Doubles

variable {x y : Float}

theorem compare_eq_compare_exactValue (hx : x.isNaN = false) (hy : y.isNaN = false) :
    x.toModel.unpack.compare y.toModel.unpack = some (compare (exactValue x) (exactValue y)) :=
  Dyadic.compare_unpacked (Dyadic.unpacked_ofFloat hx) (Dyadic.unpacked_ofFloat hy)

theorem unpack_of_isNaN (h : x.isNaN = true) : x.toModel.unpack = .notANumber := by
  have hx : x.toModel.unpack.isNaN = true := h
  cases hu : x.toModel.unpack with
  | notANumber => rfl
  | infinity s | zero s | finite s m e pos =>
    rw [hu] at hx
    cases hx

theorem compare_eq_none_of_isNaN (h : x.isNaN = true ∨ y.isNaN = true) :
    x.toModel.unpack.compare y.toModel.unpack = none := by
  rcases h with h | h
  · rw [unpack_of_isNaN h]
    rfl
  · rw [Dyadic.compare_swap, unpack_of_isNaN h]
    rfl

theorem lt_iff_compare : x < y ↔ x.toModel.unpack.compare y.toModel.unpack = some .lt := by
  show decide ((x.toModel.unpack.compare y.toModel.unpack == some .lt) = true) = true ↔ _
  rw [decide_eq_true_iff, beq_iff_eq]

theorem beq_iff_compare :
    (x == y) = true ↔ x.toModel.unpack.compare y.toModel.unpack = some .eq := by
  show (x.toModel.unpack.compare y.toModel.unpack == some .eq) = true ↔ _
  rw [beq_iff_eq]

theorem le_iff_compare :
    x ≤ y ↔ ∃ o, x.toModel.unpack.compare y.toModel.unpack = some o ∧ o.isLE = true := by
  show decide ((x.toModel.unpack.compare y.toModel.unpack).any (·.isLE) = true) = true ↔ _
  rw [decide_eq_true_iff, Option.any_eq_true]

theorem beq_iff_exactValue (hx : x.isNaN = false) (hy : y.isNaN = false) :
    (x == y) = true ↔ exactValue x = exactValue y := by
  rw [beq_iff_compare, compare_eq_compare_exactValue hx hy, Option.some_inj, compare_eq_iff_eq]

theorem isNaN_of_isFinite (h : x.isFinite = true) : x.isNaN = false := by
  have hfinite : x.toModel.unpack.isFinite = true := h
  show x.toModel.unpack.isNaN = false
  cases hu : x.toModel.unpack with
  | notANumber =>
    rw [hu] at hfinite
    cases hfinite
  | infinity s | zero s | finite s m e pos => rfl

end Doubles

end ActionFlow
