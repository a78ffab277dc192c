import ActionFlow.Proofs.Equality
import ActionFlow.Proofs.RoundedIntegers
import ActionFlow.Value.Conversion

/-!
# Values that count as NaN

Digits are read as a double that is a number, whatever their exponent.  What is read as NaN is the
word for it and nothing else, so that a value counts as NaN only if it is a text of that word.
-/
namespace ActionFlow

open Float.Model (Format UnpackedFloat)
open Float.Model.UnpackedFloat (Sign Accuracy packComponents unpackMantissa unpackExponent
  roundWithAccuracy)

/-! ### Arithmetic -/

namespace Dyadic

variable {u : UnpackedFloat}

theorem isNaN_dite {c : Prop} [Decidable c] {f : c → UnpackedFloat} {g : ¬ c → UnpackedFloat}
    (hf : ∀ h, (f h).isNaN = false) (hg : ∀ h, (g h).isNaN = false) :
    (dite c f g).isNaN = false := by
  by_cases h : c
  · rw [dif_pos h, hf]
  · rw [dif_neg h, hg]

theorem isNaN_ite {c : Prop} [Decidable c] {v : UnpackedFloat} (hu : u.isNaN = false)
    (hv : v.isNaN = false) : (ite c u v).isNaN = false :=
  isNaN_dite (fun _ => hu) fun _ => hv

theorem isNaN_unpack {b : BitVec Format.binary64.numBits} (h : (unpackExponent b).toNat < 2047) :
    (UnpackedFloat.unpack Format.binary64 b).isNaN = false := by
  unfold UnpackedFloat.unpack
  dsimp only
  rw [if_neg (unpackExponent_ne_top b h)]
  exact isNaN_ite (isNaN_dite (fun _ => rfl) fun _ => rfl) rfl

/-- Only NaN is packed as NaN. -/
theorem isNaN_pack (h : u.isNaN = false) : (Float.ofModel (.pack u)).isNaN = false := by
  show (UnpackedFloat.unpack Format.binary64 (UnpackedFloat.pack Format.binary64 u)).isNaN = false
  cases u with
  | notANumber => cases h
  | infinity s => cases s <;> rfl
  | zero s => cases s <;> rfl
  | finite s m e pos =>
    let k := (e + 1023 + 52).toNat
    have hfield : ∀ j n, j < 2047 → (unpackExponent
        (packComponents Format.binary64 s (BitVec.ofNat _ j) (BitVec.ofNat _ n))).toNat < 2047 := by
      intro j n hj
      rw [UnpackedFloat.unpackExponent_packComponents]
      exact (Nat.mod_le j _).trans_lt hj
    have hpack : UnpackedFloat.pack Format.binary64 (.finite s m e pos) =
        if 2048 ≤ k + 1 then UnpackedFloat.packedInfinity Format.binary64 s
        else if m.log2 + 1 = 53 then
          packComponents Format.binary64 s (BitVec.ofNat _ k) (BitVec.ofNat _ m)
        else packComponents Format.binary64 s (BitVec.ofNat _ 0) (BitVec.ofNat _ m) := rfl
    rw [hpack]
    split
    · cases s <;> rfl
    · split
      · exact isNaN_unpack (hfield k m (by omega))
      · exact isNaN_unpack (hfield 0 m (by omega))

theorem isNaN_roundWithAccuracy (s : Sign) (m : Nat) (e : Int) (a : Accuracy) :
    (roundWithAccuracy Format.binary64 s m e a).isNaN = false :=
  isNaN_dite (fun _ => rfl) fun _ => rfl

theorem isNaN_mul_finite (h : u.isNaN = false) (s : Sign) {m : Nat} (e : Int) (pos : 0 < m) :
    (UnpackedFloat.mul Format.binary64 u (.finite s m e pos)).isNaN = false := by
  cases u with
  | notANumber => cases h
  | infinity t | zero t => rfl
  | finite t n k _ => exact isNaN_roundWithAccuracy _ _ _ _

theorem isNaN_div_finite (h : u.isNaN = false) (s : Sign) {m : Nat} (e : Int) (pos : 0 < m) :
    (UnpackedFloat.div Format.binary64 u (.finite s m e pos)).isNaN = false := by
  cases u with
  | notANumber => cases h
  | infinity t | zero t => rfl
  | finite t n k _ => exact isNaN_roundWithAccuracy _ _ _ _

theorem isNaN_ofNat (n : Nat) : (UnpackedFloat.ofNat Format.binary64 n).isNaN = false := by
  unfold UnpackedFloat.ofNat UnpackedFloat.ofInt UnpackedFloat.normalize
  split
  · exact isNaN_roundWithAccuracy _ _ _ _
  · rfl
  · exact isNaN_roundWithAccuracy _ _ _ _

theorem isNaN_ofScientific (m : Nat) (e : Int) :
    (UnpackedFloat.ofScientific Format.binary64 m e).isNaN = false :=
  isNaN_dite (fun _ => rfl) fun _ => isNaN_ite rfl (isNaN_ite rfl
    (isNaN_ite (isNaN_mul_finite rfl _ _ _) (isNaN_div_finite rfl _ _ _)))

end Dyadic

theorem unpack_powerOfTen {i : Nat} (h : i < Float.exactlyRepresentablePowersOfTen.size) :
    ∃ s m e pos, Float.exactlyRepresentablePowersOfTen[i].toModel.unpack = .finite s m e pos := by
  have hfinite : ∀ i : Fin 23, (match Float.exactlyRepresentablePowersOfTen[i].toModel.unpack with
      | .finite _ _ _ _ => true
      | _ => false) = true := by
    decide
  have hi := hfinite ⟨i, h⟩
  cases hunpack : Float.exactlyRepresentablePowersOfTen[i].toModel.unpack with
  | finite s m e pos => exact ⟨s, m, e, pos, rfl⟩
  | notANumber | infinity s | zero s =>
    have hnot := hunpack ▸ hi
    cases hnot

theorem isNaN_ofScientific (digits : Nat) (smaller : Bool) (exponent : Nat) :
    (Float.ofScientific digits smaller exponent).isNaN = false := by
  unfold Float.ofScientific
  -- few digits are scaled by one operation on doubles, many are rounded from the exact number
  split
  · rename_i hsmall
    have hword : digits.toUInt64.toFloat.toModel.unpack.isNaN = false :=
      Dyadic.isNaN_pack (Dyadic.isNaN_ofNat _)
    obtain ⟨s, m, e, pos, hpower⟩ := unpack_powerOfTen (Nat.lt_succ_of_le hsmall.2)
    dsimp only
    split
    · have hdiv := Dyadic.isNaN_div_finite hword s e pos
      rw [← hpower] at hdiv
      exact Dyadic.isNaN_pack hdiv
    · have hmul := Dyadic.isNaN_mul_finite hword s e pos
      rw [← hpower] at hmul
      exact Dyadic.isNaN_pack hmul
  · exact Dyadic.isNaN_pack (Dyadic.isNaN_ofScientific _ _)

theorem isNaN_neg (x : Float) : (Float.neg x).isNaN = x.isNaN := by
  cases h : x.isNaN with
  | false => exact (exactValue_neg h).1
  | true =>
    show (Float.ofModel (.pack x.toModel.unpack.neg)).isNaN = true
    rw [unpack_of_isNaN h]
    rfl

/-! ### Texts -/

namespace Decimal

/-- The texts for NaN: the word for it, in letters of either case, with a sign or without. -/
inductive SpellsNaN : List Char → Prop
  | unsigned {cs : List Char} (word : cs.map Char.toLower = "nan".toList) : SpellsNaN cs
  | signed {sign : Char} {cs : List Char} (mark : sign = '-' ∨ sign = '+')
      (word : cs.map Char.toLower = "nan".toList) : SpellsNaN (sign :: cs)

theorem isNaN_nearest (digits : Nat) (exponent : Int) :
    (nearest digits exponent).isNaN = false := by
  unfold nearest
  dsimp only
  split
  · decide
  · split
    · decide
    · exact isNaN_ofScientific _ _ _

variable {cs : List Char} {x : Float}

theorem isNaN_of_readMagnitude? (h : readMagnitude? cs = some x) : x.isNaN = false := by
  -- with a point or without, what is read has this form
  have hparts : ∀ whole fraction rest, (if whole = [] ∧ fraction = [] then none else
      (readExponent? rest).bind fun exponent => some (nearest (digitsValue 0 (whole ++ fraction))
        (exponent - fraction.length))) = some x → x.isNaN = false := by
    intro whole fraction rest h
    split at h
    · cases h
    · obtain ⟨exponent, -, hx⟩ := Option.bind_eq_some_iff.mp h
      rw [← Option.some.inj hx]
      exact isNaN_nearest _ _
  unfold readMagnitude? at h
  dsimp only at h
  split at h
  · exact hparts _ _ _ h
  · exact hparts _ _ _ h

theorem isNaN_of_readWord? (h : readWord? cs = some x) :
    x.isNaN = true ↔ cs.map Char.toLower = "nan".toList := by
  unfold readWord? at h
  dsimp only at h
  rw [← String.toList_ofList (l := cs.map Char.toLower), String.toList_inj]
  split at h
  · rename_i hinfinite
    have hword : String.ofList (cs.map Char.toLower) ≠ "nan" := by
      intro hnan
      rw [hnan] at hinfinite
      exact absurd hinfinite (by decide)
    cases h
    exact ⟨fun hnumber => absurd hnumber (by decide), fun hnan => absurd hnan hword⟩
  · split at h
    · rename_i hnan
      cases h
      exact ⟨fun _ => hnan, fun _ => by decide⟩
    · cases h

theorem toLower_of_isDigit {c : Char} (h : c.isDigit = true) : c.toLower = c := by
  simp only [Char.isDigit, Bool.and_eq_true, decide_eq_true_eq] at h
  refine dif_neg fun hupper => ?_
  have hle : 'A'.val ≤ '9'.val := UInt32.le_trans hupper.1 h.2
  exact absurd hle (by decide)

theorem readMagnitude?_of_word (h : cs.map Char.toLower = "nan".toList) :
    readMagnitude? cs = none := by
  cases cs with
  | nil => cases h
  | cons c rest =>
    have hlower : c.toLower = 'n' := (List.cons.inj h).1
    have hdigit : c.isDigit = false := by
      by_contra hdigit
      rw [toLower_of_isDigit (Bool.eq_true_of_not_eq_false hdigit)] at hlower
      rw [hlower] at hdigit
      exact hdigit (by decide)
    have hpoint : c ≠ '.' := by
      intro hpoint
      rw [hpoint] at hlower
      exact absurd hlower (by decide)
    -- so no digit comes first and no point, and there is nothing to read
    unfold readMagnitude?
    rw [List.takeWhile_cons_of_neg (by simp [hdigit]),
      List.dropWhile_cons_of_neg (by simp [hdigit])]
    dsimp only
    split
    · rename_i tail heq
      exact absurd (List.cons.inj heq).1 hpoint
    · rfl

theorem isNaN_of_readUnsigned (h : (readMagnitude? cs).or (readWord? cs) = some x) :
    x.isNaN = true ↔ cs.map Char.toLower = "nan".toList := by
  cases hmagnitude : readMagnitude? cs with
  | none =>
    rw [hmagnitude, Option.none_or] at h
    exact isNaN_of_readWord? h
  | some y =>
    rw [hmagnitude, Option.some_or] at h
    rw [← Option.some.inj h, isNaN_of_readMagnitude? hmagnitude]
    refine ⟨nofun, fun hword => ?_⟩
    rw [readMagnitude?_of_word hword] at hmagnitude
    cases hmagnitude

theorem spellsNaN_cons_iff {sign : Char} (mark : sign = '-' ∨ sign = '+') :
    SpellsNaN (sign :: cs) ↔ cs.map Char.toLower = "nan".toList := by
  constructor
  · intro h
    cases h with
    | unsigned word =>
      have hlower : sign.toLower = 'n' := (List.cons.inj word).1
      rcases mark with mark | mark
      · rw [mark] at hlower
        exact absurd hlower (by decide)
      · rw [mark] at hlower
        exact absurd hlower (by decide)
    | signed _ word => exact word
  · exact .signed mark

/-- What is read as NaN is the word for it. -/
theorem isNaN_of_readFloat? {s : String} (h : readFloat? s = some x) :
    x.isNaN = true ↔ SpellsNaN s.toList := by
  unfold readFloat? at h
  dsimp only at h
  split at h
  · rename_i rest hs
    obtain ⟨y, hy, hx⟩ := Option.map_eq_some_iff.mp h
    rw [← hx, isNaN_neg, hs, spellsNaN_cons_iff (.inl rfl)]
    exact isNaN_of_readUnsigned hy
  · rename_i rest hs
    rw [hs, spellsNaN_cons_iff (.inr rfl)]
    exact isNaN_of_readUnsigned h
  · rename_i hminus hplus
    rw [isNaN_of_readUnsigned h]
    refine ⟨.unsigned, fun hspells => ?_⟩
    generalize s.toList = cs at hminus hplus hspells
    cases hspells with
    | unsigned word => exact word
    | signed mark word =>
      rcases mark with mark | mark
      · exact absurd (congrArg (· :: _) mark) (hminus _)
      · exact absurd (congrArg (· :: _) mark) (hplus _)

end Decimal

/-! ### Values -/

theorem Conversion.convert?_double_text (s : String) :
    Conversion.double.convert? (.text s) = Decimal.readFloat? (Text.trim s) := by
  rw [Conversion.double]

namespace Value

/-- The value is a text for NaN, blanks around it aside. -/
def SpellsNaN (v : Value) : Prop := ∃ s, v = text s ∧ Decimal.SpellsNaN (Text.trim s).toList

/-- A value counts as NaN if it spells NaN, and as a number otherwise. -/
theorem isNaN_of_convert? {v : Value} (hv : v.WellFormed) {x : Float}
    (h : Conversion.double.convert? v = some x) : x.isNaN = true ↔ v.SpellsNaN := by
  cases v with
  | text s =>
    rw [Conversion.convert?_double_text] at h
    rw [Decimal.isNaN_of_readFloat? h, SpellsNaN]
    constructor
    · exact fun hspells => ⟨s, rfl, hspells⟩
    · rintro ⟨_, ⟨⟩, hspells⟩
      exact hspells
  | number n =>
    have hx : n.toFloat = x := Option.some.inj h
    rw [← hx, Number.isNaN_toFloat hv]
    exact ⟨nofun, nofun⟩
  | null | bool _ | array _ | object _ | binary _ | file _ _ => cases h

end Value

end ActionFlow
