import ActionFlow.Json.Basic
import ActionFlow.Proofs.ExactDoubles

/-!
# Integers as doubles

The double of an integer is exact while the integer is a multiple of the distance that doubles of
its size have, hence up to 53 bits and for every integer that is the value of some double.  Any
other integer is moved to a multiple next to it.
-/
namespace ActionFlow

open Float.Model (Format UnpackedFloat totalExponent)
open Float.Model.UnpackedFloat (Sign packComponents unpackMantissa unpackExponent unpackSign
  ExtendedMantissa shiftToTargetExponent roundWithAccuracy)

/-! ### Packing -/

namespace Dyadic

variable {u : UnpackedFloat} {c d : Dyadic}

theorem Unpacked.unique (hc : Unpacked u c) (hd : Unpacked u d) : c = d := by
  cases hc <;> cases hd <;> rfl

section Fields

variable (s : Sign) (e : BitVec Format.binary64.exponentBits)
  (m : BitVec Format.binary64.mantissaBitsWithoutImplicit)

theorem toNat_packComponents :
    (packComponents Format.binary64 s e m).toNat =
      (s.toBitVec.toNat * 2 ^ 11 + e.toNat) * 2 ^ 52 + m.toNat := by
  have hhead : (s.toBitVec ++ e).toNat = s.toBitVec.toNat * 2 ^ 11 + e.toNat := by
    rw [BitVec.toNat_append, ← Nat.shiftLeft_add_eq_or_of_lt e.isLt, Nat.shiftLeft_eq]
  show (s.toBitVec ++ e ++ m).toNat = _
  rw [BitVec.toNat_append, ← Nat.shiftLeft_add_eq_or_of_lt m.isLt, Nat.shiftLeft_eq, hhead]

theorem unpackSign_packComponents :
    unpackSign (packComponents Format.binary64 s e m) = s.toBitVec := by
  have he : e.toNat < 2048 := e.isLt
  have hm : m.toNat < 2 ^ 52 := m.isLt
  apply BitVec.eq_of_toNat_eq
  rw [toNat_unpackSign, toNat_packComponents]
  omega

theorem ofBitVec_toBitVec : Sign.ofBitVec s.toBitVec = s := by
  cases s <;> rfl

end Fields

/-- What unpacking gives for a biased exponent and a fraction that are not those of an infinity, a
NaN or a zero. -/
theorem unpack_packComponents (s : Sign) {k n : Nat} (hk : k < 2047) (hn : n < 2 ^ 52) {m : Nat}
    (pos : 0 < m) (hm : m = if k = 0 then n else n + 2 ^ 52) {e : Int}
    (he : e = if k = 0 then -1074 else (k : Int) - 1075) :
    UnpackedFloat.unpack Format.binary64
      (packComponents Format.binary64 s (BitVec.ofNat _ k) (BitVec.ofNat _ n)) =
        .finite s m e pos := by
  let b := packComponents Format.binary64 s (BitVec.ofNat _ k) (BitVec.ofNat _ n)
  have hfield : (unpackExponent b).toNat = k := by
    rw [UnpackedFloat.unpackExponent_packComponents]
    exact Nat.mod_eq_of_lt (hk.trans (by decide))
  have hfraction : (unpackMantissa b).toNat = n := by
    rw [UnpackedFloat.unpackMantissa_packComponents]
    exact Nat.mod_eq_of_lt hn
  have hsign : Sign.ofBitVec (unpackSign b) = s := by
    rw [unpackSign_packComponents, ofBitVec_toBitVec]
  rw [← hfield] at hk
  rw [← hfield, ← hfraction] at hm
  rw [← hfield] at he
  have hunpack := unpack_eq_finite hk pos hm he
  rwa [hsign] at hunpack

theorem pack_finite (s : Sign) {m : Nat} {e : Int} (pos : 0 < m) (hleast : -1074 ≤ e)
    (hmost : e ≤ 971) : UnpackedFloat.pack Format.binary64 (.finite s m e pos) =
      if m.log2 + 1 = 53 then
        packComponents Format.binary64 s (BitVec.ofNat _ (e + 1075).toNat) (BitVec.ofNat _ m)
      else packComponents Format.binary64 s (BitVec.ofNat _ 0) (BitVec.ofNat _ m) := by
  have hbias : e + Format.binary64.exponentBias + Format.binary64.mantissaBitsWithoutImplicit =
      e + 1075 := by
    show e + 1023 + 52 = _
    omega
  have hbelow : ¬ 2 ^ Format.binary64.exponentBits ≤ (e + 1075).toNat + 1 := by
    show ¬ 2048 ≤ _
    omega
  rw [← hbias] at hbelow ⊢
  exact if_neg hbelow

/-- Doubles survive packing. -/
theorem unpack_pack (h : Unpacked u d) :
    UnpackedFloat.unpack Format.binary64 (UnpackedFloat.pack Format.binary64 u) = u := by
  cases h with
  | zero s => cases s <;> rfl
  | infinity s => cases s <;> rfl
  | @finite s m e pos canonical most =>
    obtain ⟨hsmall, hfull, hleast⟩ := canonical
    dsimp only at hsmall hfull hleast
    rw [pack_finite s pos hleast most]
    by_cases hnormal : 2 ^ 52 ≤ m
    · have hlog : m.log2 + 1 = 53 := by
        have hlow := (Nat.le_log2 pos.ne').mpr hnormal
        have hhigh := (Nat.log2_lt pos.ne').mpr hsmall
        omega
      have hfraction : BitVec.ofNat Format.binary64.mantissaBitsWithoutImplicit m =
          BitVec.ofNat _ (m - 2 ^ 52) := by
        have hwidth : Format.binary64.mantissaBitsWithoutImplicit = 52 := rfl
        apply BitVec.eq_of_toNat_eq
        rw [BitVec.toNat_ofNat, BitVec.toNat_ofNat, hwidth]
        omega
      have hfield : (e + 1075).toNat ≠ 0 := by omega
      rw [if_pos hlog, hfraction]
      refine unpack_packComponents s (by omega) (by omega) pos ?_ ?_
      · rw [if_neg hfield]
        omega
      · rw [if_neg hfield]
        omega
    · have hlog : ¬ m.log2 + 1 = 53 := by
        have hhigh := (Nat.log2_lt pos.ne').mpr (Nat.lt_of_not_le hnormal)
        omega
      rw [if_neg hlog]
      exact unpack_packComponents s (by omega) (Nat.lt_of_not_le hnormal) pos rfl
        (hfull.resolve_left hnormal)

theorem exactValue_pack (h : Unpacked u d) :
    (Float.ofModel (.pack u)).isNaN = false ∧ exactValue (.ofModel (.pack u)) = d.value := by
  have hunpack : (Float.ofModel (.pack u)).toModel.unpack = u := unpack_pack h
  have hnumber : (Float.ofModel (.pack u)).isNaN = false := by
    show (Float.ofModel (.pack u)).toModel.unpack.isNaN = false
    rw [hunpack]
    cases h <;> rfl
  have hread := unpacked_ofFloat hnumber
  rw [hunpack] at hread
  exact ⟨hnumber, congrArg value (hread.unique h)⟩

theorem Unpacked.neg (h : Unpacked u d) : ∃ c, Unpacked u.neg c ∧ c.value = -d.value := by
  cases h with
  | zero s =>
    refine ⟨_, .zero (-s), ?_⟩
    rw [value_zero, value_zero, neg_zero]
  | finite s pos canonical most =>
    refine ⟨_, .finite (-s) pos ⟨canonical.small, canonical.full, canonical.least⟩ most, ?_⟩
    cases s with
    | negative => exact (neg_neg _).symm
    | positive => rfl
  | infinity s =>
    refine ⟨_, .infinity (-s), ?_⟩
    cases s with
    | negative => exact (neg_neg _).symm
    | positive => rfl

end Dyadic

theorem exactValue_neg {x : Float} (h : x.isNaN = false) :
    (Float.neg x).isNaN = false ∧ exactValue (Float.neg x) = -exactValue x := by
  obtain ⟨c, hc, hvalue⟩ := (Dyadic.unpacked_ofFloat h).neg
  obtain ⟨hnumber, hpack⟩ := Dyadic.exactValue_pack hc
  exact ⟨hnumber, hpack.trans hvalue⟩

/-! ### Rounding -/

theorem log2_eq {m k : Nat} (hle : 2 ^ k ≤ m) (hlt : m < 2 ^ (k + 1)) : m.log2 = k := by
  have hpos := Nat.two_pow_pos k
  exact (Nat.log2_eq_iff (by omega)).mpr ⟨hle, hlt⟩

theorem log2_mul_two_pow {n : Nat} (h : 0 < n) (k : Nat) : (n * 2 ^ k).log2 = n.log2 + k := by
  have hle := Nat.log2_self_le h.ne'
  have hlt := Nat.lt_log2_self (n := n)
  apply log2_eq
  · rw [Nat.pow_add]
    exact Nat.mul_le_mul_right _ hle
  · rw [Nat.add_right_comm, Nat.pow_add]
    exact Nat.mul_lt_mul_of_pos_right hlt (by positivity)

theorem div_two_pow_between {m t : Nat} (hlog : m.log2 = 52 + t) :
    2 ^ 52 ≤ m / 2 ^ t ∧ m / 2 ^ t < 2 ^ 53 := by
  have hne : m ≠ 0 := by
    intro h
    rw [h, Nat.log2_zero] at hlog
    omega
  obtain ⟨hle, hlt⟩ := (Nat.log2_eq_iff hne).mp hlog
  constructor
  · rw [Nat.le_div_iff_mul_le (by positivity), ← Nat.pow_add]
    exact hle
  · rw [Nat.div_lt_iff_lt_mul (by positivity), ← Nat.pow_add, show 53 + t = 52 + t + 1 by omega]
    exact hlt

theorem targetExponent_eq (m : Nat) (e : Int) :
    Format.binary64.targetExponent (totalExponent m e) = max (m.log2 + e - 52) (-1074) := by
  show max ((m.log2 : Int) + 1 + e - 53) (-1074) = _
  omega

theorem mantissa_shiftRight (em : ExtendedMantissa) (t : Nat) :
    (em >>> t).mantissa = em.mantissa / 2 ^ t := by
  induction t with
  | zero => exact (Nat.div_one _).symm
  | succ t ih =>
    show (em >>> t).mantissa / 2 = _
    rw [ih, Nat.div_div_eq_div_mul, Nat.pow_succ]

/-- Shifting out zeros leaves nothing to round. -/
theorem shiftRight_of_dvd {m t : Nat} (h : 2 ^ t ∣ m) :
    (⟨m, false, false⟩ : ExtendedMantissa) >>> t = ⟨m / 2 ^ t, false, false⟩ := by
  induction t with
  | zero =>
    rw [Nat.pow_zero, Nat.div_one]
    rfl
  | succ t ih =>
    obtain ⟨q, hq⟩ := h
    have heven : m / 2 ^ t = 2 * q := by
      rw [hq, Nat.pow_succ, Nat.mul_assoc, Nat.mul_div_cancel_left _ (by positivity)]
    have hhalf : m / 2 ^ (t + 1) = q := by rw [hq, Nat.mul_div_cancel_left _ (by positivity)]
    have hdvd : 2 ^ t ∣ m := ⟨2 * q, by rw [hq, Nat.pow_succ, Nat.mul_assoc]⟩
    have hbit : (2 * q % 2 != 0) = false := by simp
    show ((⟨m, false, false⟩ : ExtendedMantissa) >>> t).shiftRightOne = _
    rw [ih hdvd, heven, hhalf]
    show (⟨2 * q / 2, 2 * q % 2 != 0, false || false⟩ : ExtendedMantissa) = _
    rw [hbit, Nat.mul_div_cancel_left _ Nat.two_pos, Bool.or_false]

theorem roundedMantissa_between (em : ExtendedMantissa) :
    em.mantissa ≤ em.roundedMantissa ∧ em.roundedMantissa ≤ em.mantissa + 1 := by
  obtain ⟨m, r, s⟩ := em
  cases r <;> cases s
  · exact ⟨le_refl m, Nat.le_succ m⟩
  · exact ⟨le_refl m, Nat.le_succ m⟩
  · show m ≤ m + m % 2 ∧ m + m % 2 ≤ m + 1
    omega
  · exact ⟨Nat.le_succ m, le_refl _⟩

theorem shiftToTargetExponent_exact {m t : Nat} {e : Int} (hlog : m.log2 = 52 + t)
    (hleast : -1074 ≤ e + t) :
    shiftToTargetExponent Format.binary64 m e .exact =
      ((⟨m, false, false⟩ : ExtendedMantissa) >>> t, e + t) := by
  have htarget : Format.binary64.targetExponent (totalExponent m e) - e = t := by
    rw [targetExponent_eq, hlog]
    omega
  unfold shiftToTargetExponent UnpackedFloat.shiftToExponent
  dsimp only
  rw [htarget]
  rfl

theorem roundWithAccuracy_eq (s : Sign) {m : Nat} {e e' e'' : Int} {em fin : ExtendedMantissa}
    (hfirst : shiftToTargetExponent Format.binary64 m e .exact = (em, e'))
    (hsecond : shiftToTargetExponent Format.binary64 em.roundedMantissa e' .exact = (fin, e''))
    (hpos : 0 < fin.mantissa) :
    roundWithAccuracy Format.binary64 s m e .exact = .finite s fin.mantissa e'' hpos := by
  unfold roundWithAccuracy
  rw [hfirst]
  dsimp only
  rw [hsecond]
  dsimp only
  rw [dif_neg hpos.ne']

theorem roundWithAccuracy_full (s : Sign) {m : Nat} {e : Int} (hlow : 2 ^ 52 ≤ m)
    (hhigh : m < 2 ^ 53) (hleast : -1074 ≤ e) (pos : 0 < m) :
    roundWithAccuracy Format.binary64 s m e .exact = .finite s m e pos := by
  have hlog : m.log2 = 52 + 0 := log2_eq hlow hhigh
  have hshift := shiftToTargetExponent_exact hlog (e := e) (by omega)
  rw [Int.natCast_zero, Int.add_zero] at hshift
  exact roundWithAccuracy_eq s hshift hshift pos

/-- A mantissa of more bits loses the last ones.  It goes up by one in the last place or not at all,
and not if the bits that it loses are zeros. -/
theorem roundWithAccuracy_long (s : Sign) {m t : Nat} {e : Int} (hlog : m.log2 = 52 + t)
    (hleast : -1074 ≤ e + t) (hmost : e + t ≤ 970) :
    ∃ (d : Dyadic) (r : Nat), Dyadic.Unpacked (roundWithAccuracy Format.binary64 s m e .exact) d ∧
      d.negative = (s == .negative) ∧ d.size = r * 2 ^ (e + t) ∧
      m / 2 ^ t ≤ r ∧ (2 ^ t ∣ m → r = m / 2 ^ t) := by
  obtain ⟨hlow, hhigh⟩ := div_two_pow_between hlog
  obtain ⟨hle, hsucc⟩ := roundedMantissa_between ((⟨m, false, false⟩ : ExtendedMantissa) >>> t)
  rw [mantissa_shiftRight] at hle hsucc
  dsimp only at hle hsucc
  have hexact : 2 ^ t ∣ m →
      ((⟨m, false, false⟩ : ExtendedMantissa) >>> t).roundedMantissa = m / 2 ^ t := by
    intro hdvd
    rw [shiftRight_of_dvd hdvd]
    rfl
  have hfirst := shiftToTargetExponent_exact hlog hleast
  generalize (⟨m, false, false⟩ : ExtendedMantissa) >>> t = em at hle hsucc hexact hfirst
  -- going up may carry into one bit more, and the bit lost then is a zero
  obtain ⟨k, hk, hlogr, q, hq⟩ : ∃ k, k ≤ 1 ∧ em.roundedMantissa.log2 = 52 + k ∧
      2 ^ k ∣ em.roundedMantissa := by
    by_cases hcarry : em.roundedMantissa < 2 ^ 53
    · exact ⟨0, Nat.zero_le 1, log2_eq (hlow.trans hle) hcarry, Nat.one_dvd _⟩
    · have htop : em.roundedMantissa = 2 ^ 53 := by omega
      rw [htop]
      exact ⟨1, le_refl 1, Nat.log2_two_pow, by norm_num⟩
  have hsecond := shiftToTargetExponent_exact hlogr (e := e + t) (by omega)
  have hshift : em.roundedMantissa / 2 ^ k = q := by
    rw [hq, Nat.mul_div_cancel_left _ (by positivity)]
  obtain ⟨hqlow, hqhigh⟩ := div_two_pow_between hlogr
  rw [shiftRight_of_dvd ⟨q, hq⟩, hshift] at hsecond
  rw [hshift] at hqlow hqhigh
  have hpos : 0 < q := by omega
  refine ⟨⟨s == .negative, q, e + t + k⟩, em.roundedMantissa, ?_, rfl, ?_, hle, hexact⟩
  · have hleast' : -1074 ≤ e + t + (k : Int) := by omega
    rw [roundWithAccuracy_eq s hfirst hsecond hpos]
    exact .finite s hpos ⟨hqhigh, .inl hqlow, hleast'⟩ (by omega)
  · have hcast : (em.roundedMantissa : ℚ) = 2 ^ k * q := by exact_mod_cast hq
    show (q : ℚ) * 2 ^ (e + t + (k : Int)) = _
    rw [hcast, zpow_add₀ (by norm_num), zpow_natCast]
    ring

/-! ### Natural numbers -/

/-- How far apart doubles of the size of `n` are; 1 where they are closer than integers. -/
def spacing (n : Nat) : Nat := 2 ^ (n.log2 - 52)

theorem spacing_pos (n : Nat) : 0 < spacing n := Nat.two_pow_pos _

theorem spacing_eq_one {n : Nat} (h : n < 2 ^ 53) : spacing n = 1 := by
  rcases Nat.eq_zero_or_pos n with hzero | hpos
  · rw [hzero]
    rfl
  · have hlog := (Nat.log2_lt hpos.ne').mpr h
    rw [spacing, show n.log2 - 52 = 0 by omega, Nat.pow_zero]

/-- A double next to `n` among the multiples of the spacing, and `n` itself if it is one. -/
structure RoundsTo (n : Nat) (x : Float) : Prop where
  isNumber : x.isNaN = false
  multiple : ∃ r : Nat, exactValue x = (r * spacing n : Nat) ∧ n / spacing n ≤ r ∧
    (spacing n ∣ n → r = n / spacing n)

namespace RoundsTo

variable {n : Nat} {x : Float}

theorem of_unpacked {u : UnpackedFloat} {d : Dyadic} {r : Nat} (hd : Dyadic.Unpacked u d)
    (hnegative : d.negative = false) (hsize : d.size = (r * spacing n : Nat))
    (hle : n / spacing n ≤ r) (hexact : spacing n ∣ n → r = n / spacing n) :
    RoundsTo n (.ofModel (.pack u)) := by
  obtain ⟨hnumber, hvalue⟩ := Dyadic.exactValue_pack hd
  refine ⟨hnumber, r, ?_, hle, hexact⟩
  rw [hvalue, Dyadic.value, hnegative, ← hsize]
  rfl

theorem exactValue_eq (h : RoundsTo n x) (hdvd : spacing n ∣ n) : exactValue x = n := by
  obtain ⟨r, hvalue, -, hexact⟩ := h.multiple
  rw [hvalue, hexact hdvd, Nat.div_mul_cancel hdvd]

/-- Beyond 63 bits a natural number stays there. -/
theorem two_pow_le (h : RoundsTo n x) (hlarge : 2 ^ 63 ≤ n) :
    ∃ k : Nat, exactValue x = k ∧ 2 ^ 63 ≤ k := by
  obtain ⟨r, hvalue, hle, -⟩ := h.multiple
  have hlog : 63 ≤ n.log2 := (Nat.le_log2 (by omega)).mpr hlarge
  have hfull : 2 ^ 52 * spacing n ≤ n := by
    rw [spacing, ← Nat.pow_add, show 52 + (n.log2 - 52) = n.log2 by omega]
    exact Nat.log2_self_le (by omega)
  have hr : 2 ^ 52 ≤ r := le_trans ((Nat.le_div_iff_mul_le (spacing_pos n)).mpr hfull) hle
  have hspacing : 2 ^ 11 ≤ spacing n := Nat.pow_le_pow_right (by norm_num) (by omega)
  refine ⟨r * spacing n, hvalue, ?_⟩
  calc
    2 ^ 63 = 2 ^ 52 * 2 ^ 11 := by norm_num
    _ ≤ r * spacing n := Nat.mul_le_mul hr hspacing

theorem zero : RoundsTo 0 (Float.ofNat 0) := by
  have hparts : Dyadic.ofFloat (Float.ofNat 0) = ⟨false, 0, -1074⟩ := by decide
  refine ⟨by decide, 0, ?_, Nat.zero_le _, fun _ => rfl⟩
  rw [exactValue, hparts]
  norm_num [Dyadic.value, Dyadic.size]

end RoundsTo

section Small

variable {n : Nat} (hpos : 0 < n) (hsmall : n < 2 ^ 53)

include hpos hsmall

/-- A number of at most 53 bits fills the mantissa once zeros are written behind it. -/
theorem filled_between :
    2 ^ 52 ≤ n * 2 ^ (52 - n.log2) ∧ n * 2 ^ (52 - n.log2) < 2 ^ 53 := by
  have hlog := (Nat.log2_lt hpos.ne').mpr hsmall
  have hfull : (n * 2 ^ (52 - n.log2)).log2 = 52 := by
    rw [log2_mul_two_pow hpos]
    omega
  exact (Nat.log2_eq_iff (by positivity)).mp hfull

theorem unpacked_ofNat (pos : 0 < n * 2 ^ (52 - n.log2)) :
    UnpackedFloat.ofNat Format.binary64 n =
      .finite .positive (n * 2 ^ (52 - n.log2)) (-((52 - n.log2 : Nat) : Int)) pos := by
  have hlog := (Nat.log2_lt hpos.ne').mpr hsmall
  obtain ⟨hlow, hhigh⟩ := filled_between hpos hsmall
  have hgt : compare (n : Int) 0 = .gt := compare_gt_iff_gt.mpr (by exact_mod_cast hpos)
  have hamount :
      ((0 : Int) - Format.binary64.targetExponent (totalExponent n 0)).toNat = 52 - n.log2 := by
    rw [targetExponent_eq]
    omega
  have hfill : UnpackedFloat.decreaseExponent n 0
      (Format.binary64.targetExponent (totalExponent n 0)) =
        (n * 2 ^ (52 - n.log2), -((52 - n.log2 : Nat) : Int)) := by
    unfold UnpackedFloat.decreaseExponent
    dsimp only
    rw [hamount, Nat.shiftLeft_eq, Int.zero_sub]
  show UnpackedFloat.normalize Format.binary64 (n : Int) 0 .positive = _
  unfold UnpackedFloat.normalize UnpackedFloat.round
  rw [hgt]
  dsimp only
  rw [Int.toNat_natCast, hfill]
  dsimp only
  exact roundWithAccuracy_full .positive hlow hhigh (by omega) pos

/-- Small numbers are made into a double as a word, which then is multiplied by one. -/
theorem ofNat_of_small : Float.ofNat n = .ofModel (.pack (roundWithAccuracy Format.binary64
    .positive (n * 2 ^ (52 - n.log2) * 2 ^ 52) (-((52 - n.log2 : Nat) : Int) + -52) .exact)) := by
  obtain ⟨hlow, hhigh⟩ := filled_between hpos hsmall
  have pos : 0 < n * 2 ^ (52 - n.log2) := by positivity
  have hleast : -1074 ≤ -((52 - n.log2 : Nat) : Int) := by omega
  have hword : n.toUInt64.toFloat = .ofModel (.pack (UnpackedFloat.ofNat Format.binary64 n)) := by
    show Float.ofModel (.pack (UnpackedFloat.ofNat Format.binary64 n.toUInt64.toNat)) = _
    rw [show n.toUInt64.toNat = n from Nat.mod_eq_of_lt (by omega)]
  have hleft : n.toUInt64.toFloat.toModel.unpack = .finite .positive (n * 2 ^ (52 - n.log2))
      (-((52 - n.log2 : Nat) : Int)) pos := by
    rw [hword, unpacked_ofNat hpos hsmall pos]
    exact Dyadic.unpack_pack (.finite .positive pos ⟨hhigh, .inl hlow, hleast⟩ (by omega))
  have hone : (Float.ofBits 0x3FF0000000000000).toModel.unpack =
      .finite .positive (2 ^ 52) (-52) (by decide) := rfl
  show Float.ofScientific n false 0 = _
  unfold Float.ofScientific
  rw [dif_pos ⟨hsmall, by decide⟩]
  show n.toUInt64.toFloat * Float.ofBits 0x3FF0000000000000 = _
  show Float.ofModel (.pack (UnpackedFloat.mul Format.binary64 n.toUInt64.toFloat.toModel.unpack
    (Float.ofBits 0x3FF0000000000000).toModel.unpack)) = _
  rw [hleft, hone]
  rfl

theorem roundsTo_ofNat_of_small : RoundsTo n (Float.ofNat n) := by
  have hlog := (Nat.log2_lt hpos.ne').mpr hsmall
  have hspacing := spacing_eq_one hsmall
  have hbits : (n * 2 ^ (52 - n.log2) * 2 ^ 52).log2 = 52 + 52 := by
    rw [log2_mul_two_pow (by positivity), log2_mul_two_pow hpos]
    omega
  obtain ⟨d, r, hd, hnegative, hsize, -, hexact⟩ :=
    roundWithAccuracy_long .positive (e := -((52 - n.log2 : Nat) : Int) + -52) hbits (by omega)
      (by omega)
  have hr : r = n * 2 ^ (52 - n.log2) :=
    (hexact (Nat.dvd_mul_left _ _)).trans (Nat.mul_div_cancel _ (by positivity))
  have hexponent : -((52 - n.log2 : Nat) : Int) + -52 + (52 : Nat) =
      -((52 - n.log2 : Nat) : Int) := by omega
  rw [ofNat_of_small hpos hsmall]
  refine RoundsTo.of_unpacked (r := n) hd hnegative ?_ ?_ ?_
  · rw [hsize, hexponent, hspacing, hr, Nat.mul_one, zpow_neg, zpow_natCast, Nat.cast_mul,
      Nat.cast_pow, Nat.cast_ofNat]
    exact mul_inv_cancel_right₀ (by positivity) _
  · rw [hspacing, Nat.div_one]
  · intro _
    rw [hspacing, Nat.div_one]

end Small

theorem ofNat_of_large {n : Nat} (hlarge : 2 ^ 53 ≤ n) : Float.ofNat n = .ofModel (.pack
    (roundWithAccuracy Format.binary64 .positive (n * 2 ^ 53) (-53) .exact)) := by
  have hpos : 0 < n := by omega
  have hrange : (2 : Int) ^ Format.binary64.exponentBits = 2048 := rfl
  show Float.ofScientific n false 0 = _
  unfold Float.ofScientific
  rw [dif_neg (by omega)]
  show Float.ofModel (.pack (UnpackedFloat.ofScientific Format.binary64 n 0)) = _
  unfold UnpackedFloat.ofScientific
  rw [dif_neg hpos.ne', if_neg (by decide), hrange, if_neg (by omega), if_pos (le_refl 0)]
  show Float.ofModel (.pack (roundWithAccuracy Format.binary64 .positive (n <<< 53 * 1) (-53)
    .exact)) = _
  rw [Nat.shiftLeft_eq, Nat.mul_one]

theorem roundsTo_ofNat_of_large {n : Nat} (hlarge : 2 ^ 53 ≤ n) (h : n < 2 ^ 64) :
    RoundsTo n (Float.ofNat n) := by
  have hpos : 0 < n := by omega
  have hlog : 53 ≤ n.log2 := (Nat.le_log2 hpos.ne').mpr hlarge
  have hlog' : n.log2 < 64 := (Nat.log2_lt hpos.ne').mpr h
  have hbits : (n * 2 ^ 53).log2 = 52 + (n.log2 + 1) := by
    rw [log2_mul_two_pow hpos]
    omega
  obtain ⟨d, r, hd, hnegative, hsize, hle, hexact⟩ :=
    roundWithAccuracy_long .positive (e := -53) hbits (by omega) (by omega)
  have hplaces : 2 ^ (n.log2 + 1) = spacing n * 2 ^ 53 := by
    rw [spacing, ← Nat.pow_add, show n.log2 - 52 + 53 = n.log2 + 1 by omega]
  have hexponent : -53 + ((n.log2 + 1 : Nat) : Int) = (n.log2 - 52 : Nat) := by omega
  rw [hplaces, Nat.mul_div_mul_right _ _ (by positivity)] at hle hexact
  rw [ofNat_of_large hlarge]
  refine RoundsTo.of_unpacked hd hnegative ?_ hle fun hdvd => hexact ?_
  · rw [hsize, hexponent, zpow_natCast, spacing]
    push_cast
    rfl
  · exact Nat.mul_dvd_mul_right hdvd _

theorem roundsTo_ofNat {n : Nat} (h : n < 2 ^ 64) : RoundsTo n (Float.ofNat n) := by
  rcases Nat.eq_zero_or_pos n with hzero | hpos
  · rw [hzero]
    exact RoundsTo.zero
  · by_cases hsmall : n < 2 ^ 53
    · exact roundsTo_ofNat_of_small hpos hsmall
    · exact roundsTo_ofNat_of_large (Nat.le_of_not_lt hsmall) h

theorem Dyadic.Canonical.spacing_dvd {d : Dyadic} (h : d.Canonical) {n : Nat}
    (hsize : d.size = n) : spacing n ∣ n := by
  by_cases hsmall : n < 2 ^ 53
  · rw [spacing_eq_one hsmall]
    exact Nat.one_dvd n
  · -- without a positive exponent the mantissa alone would be too small for `n`
    have hexponent : 0 < d.exponent := by
      by_contra hle
      have hunit : (2 : ℚ) ^ d.exponent ≤ 1 := zpow_le_one_of_nonpos₀ (by norm_num) (by omega)
      have hbound : d.size ≤ d.mantissa := mul_le_of_le_one_right (by positivity) hunit
      have hmantissa : n ≤ d.mantissa := by
        rw [hsize] at hbound
        exact_mod_cast hbound
      have hcanonical := h.small
      omega
    have hfull : 2 ^ 52 ≤ d.mantissa := h.full.resolve_right (by omega)
    have hn : n = d.mantissa * 2 ^ d.exponent.toNat := by
      have hunit : (2 : ℚ) ^ d.exponent = 2 ^ d.exponent.toNat := by
        rw [← zpow_natCast, Int.toNat_of_nonneg hexponent.le]
      rw [size, hunit] at hsize
      exact_mod_cast hsize.symm
    have hlog : n.log2 - 52 = d.exponent.toNat := by
      rw [hn, log2_mul_two_pow (by omega), log2_eq hfull h.small]
      omega
    rw [spacing, hlog, hn]
    exact Nat.dvd_mul_left _ _

/-! ### Integers -/

section Integers

variable {i : Int} (h : i.natAbs < 2 ^ 64)

include h

theorem exactValue_ofInt : (Float.ofInt i).isNaN = false ∧ exactValue (Float.ofInt i) =
    if i < 0 then -exactValue (Float.ofNat i.natAbs) else exactValue (Float.ofNat i.natAbs) := by
  cases i with
  | ofNat n =>
    have hnot : ¬ Int.ofNat n < 0 := Int.not_lt.mpr (Int.natCast_nonneg n)
    exact ⟨(roundsTo_ofNat h).isNumber, (if_neg hnot).symm⟩
  | negSucc n =>
    obtain ⟨hnumber, hvalue⟩ := exactValue_neg (roundsTo_ofNat h).isNumber
    exact ⟨hnumber, hvalue.trans (if_pos (Int.negSucc_lt_zero n)).symm⟩

theorem exactValue_ofInt_eq (hdvd : spacing i.natAbs ∣ i.natAbs) :
    exactValue (Float.ofInt i) = i := by
  rw [(exactValue_ofInt h).2, (roundsTo_ofNat h).exactValue_eq hdvd, Nat.cast_natAbs, Int.cast_abs]
  by_cases hneg : i < 0
  · rw [if_pos hneg, abs_of_neg (by exact_mod_cast hneg), neg_neg]
  · rw [if_neg hneg, abs_of_nonneg (by exact_mod_cast Int.not_lt.mp hneg)]

end Integers

/-- An integer that is the value of a double is the value of its own. -/
theorem exactValue_ofInt_of_exactValue {x : Float} (hx : x.isNaN = false) {i : Int}
    (h : i.natAbs < 2 ^ 64) (hvalue : exactValue x = i) : exactValue (Float.ofInt i) = i := by
  have hsize : (Dyadic.ofFloat x).size = i.natAbs := by
    rw [← Dyadic.abs_value, ← exactValue, hvalue, Nat.cast_natAbs, Int.cast_abs]
  exact exactValue_ofInt_eq h ((Dyadic.unpacked_ofFloat hx).canonical.spacing_dvd hsize)

/-! ### Numbers -/

namespace Number

/-- The number that is meant, whichever kind it is written as. -/
def value : Number → ℚ
  | integer i => i
  | double x => exactValue x

/-- The number that its double stands for. -/
def rounded (n : Number) : ℚ := exactValue n.toFloat

theorem natAbs_lt {i : Int} (h : (integer i).WellFormed) : i.natAbs < 2 ^ 64 := by
  obtain ⟨hlow, hhigh⟩ := h
  simp only [minInt64, wordCount] at hlow hhigh
  omega

theorem isNaN_toFloat {n : Number} (h : n.WellFormed) : n.toFloat.isNaN = false := by
  cases n with
  | integer i => exact (exactValue_ofInt (natAbs_lt h)).1
  | double x => exact isNaN_of_isFinite h

theorem rounded_eq_value {i : Int} {x : Float} (hi : (integer i).WellFormed)
    (hx : (double x).WellFormed) (h : (integer i).value = (double x).value) :
    (integer i).rounded = (integer i).value :=
  exactValue_ofInt_of_exactValue (isNaN_of_isFinite hx) (natAbs_lt hi) h.symm

/-- Equal numbers have equal doubles. -/
theorem rounded_eq_of_value_eq {m n : Number} (hm : m.WellFormed) (hn : n.WellFormed)
    (h : m.value = n.value) : m.rounded = n.rounded := by
  cases m with
  | integer i =>
    cases n with
    | integer j =>
      have hij : i = j := by exact_mod_cast (show ((i : Int) : ℚ) = j from h)
      rw [hij]
    | double y => exact (rounded_eq_value hm hn h).trans h
  | double x =>
    cases n with
    | integer j => exact h.trans (rounded_eq_value hn hm h.symm).symm
    | double y => exact h

end Number

end ActionFlow
