import ActionFlow.Proofs.Magnitudes
import ActionFlow.Value.Lookup

/-!
# Equality of values

On the values of a run, `Value.same` is an equivalence.  Values are the same if they match by
magnitude and no integer meets a double; both of these go through the values part by part.  Values
that are the same have the same parts, so that nothing that is looked up tells them apart.
-/
namespace ActionFlow

/-! ### Kinds of numbers -/

namespace Number.OfTwoKinds

variable {m n : Number}

theorem symm (h : OfTwoKinds m n) : OfTwoKinds n m := by
  cases h with
  | integer_double i x => exact .double_integer x i
  | double_integer x i => exact .integer_double i x

/-- Of two numbers of different kinds, any third one differs from one in its kind. -/
theorem split (h : OfTwoKinds m n) (k : Number) : OfTwoKinds m k ∨ OfTwoKinds k n := by
  cases h with
  | integer_double i x =>
    cases k with
    | integer j => exact .inr (.integer_double j x)
    | double y => exact .inl (.integer_double i y)
  | double_integer x i =>
    cases k with
    | integer j => exact .inl (.double_integer x j)
    | double y => exact .inr (.double_integer y i)

end Number.OfTwoKinds

namespace Value

variable {u v w : Value}

/-! ### Values that match -/

theorem Matches.symm (h : v.Matches w) : w.Matches v := by
  induction h with
  | null => exact .null
  | bool b => exact .bool b
  | number amount => exact .number amount.symm
  | text s => exact .text s
  | array length _ ih => exact .array length.symm fun i x y hx hy => ih i y x hy hx
  | object keys _ ih => exact .object keys.symm fun k x y hx hy => ih k y x hy hx
  | binary content => exact .binary content
  | file name content => exact .file name content

/-- What stands in two lists of one length at a place. -/
theorem exists_getElem? {α β : Type} {xs : List α} {ys : List β} (h : xs.length = ys.length)
    {i : Nat} {x : α} (hx : xs[i]? = some x) : ∃ y, ys[i]? = some y := by
  obtain ⟨hi, -⟩ := List.getElem?_eq_some_iff.mp hx
  exact ⟨ys[i], List.getElem?_eq_getElem (h ▸ hi)⟩

theorem Matches.trans (h : u.Matches v) (h' : v.Matches w) : u.Matches w := by
  induction h generalizing w with
  | null | bool | text | binary | file => exact h'
  | number amount =>
    cases h' with
    | number amount' => exact .number (amount.trans amount')
  | array length _ ih =>
    cases h' with
    | array length' items' =>
      refine .array (length.trans length') fun i x z hx hz => ?_
      obtain ⟨y, hy⟩ := exists_getElem? length hx
      exact ih i x y hx hy (items' i y z hy hz)
  | object keys _ ih =>
    cases h' with
    | object keys' fields' =>
      refine .object (keys.trans keys') fun k x z hx hz => ?_
      obtain ⟨y, hy⟩ := Entries.exists_find?_of_perm keys hx
      exact ih k x y hx hy (fields' k y z hy hz)

/-! ### Integers that meet doubles -/

theorem Mixed.symm (h : v.Mixed w) : w.Mixed v := by
  induction h with
  | number kinds => exact .number kinds.symm
  | item left right _ ih => exact .item right left ih
  | field left right _ ih => exact .field right left ih

/-- A value that matches the first of two shows one of them what they show each other. -/
theorem Mixed.split (h : u.Mixed w) (hv : u.Matches v) : u.Mixed v ∨ v.Mixed w := by
  induction h generalizing v with
  | number kinds =>
    cases hv with
    | @number _ k _ => exact (kinds.split k).imp .number .number
  | item left right _ ih =>
    cases hv with
    | array length items =>
      obtain ⟨z, hz⟩ := exists_getElem? length left
      exact (ih (items _ _ _ left hz)).imp (.item left hz) (.item hz right)
  | field left right _ ih =>
    cases hv with
    | object keys fields =>
      obtain ⟨z, hz⟩ := Entries.exists_find?_of_perm keys left
      exact (ih (fields _ _ _ left hz)).imp (.field left hz) (.field hz right)

/-! ### The equivalence -/

theorem same_symm (hv : v.WellFormed) (hw : w.WellFormed) (h : v.same w = true) :
    w.same v = true := by
  rw [same_iff_matches hv hw] at h
  rw [same_iff_matches hw hv]
  exact ⟨h.1.symm, fun mixed => h.2 mixed.symm⟩

theorem same_trans (hu : u.WellFormed) (hv : v.WellFormed) (hw : w.WellFormed)
    (h : u.same v = true) (h' : v.same w = true) : u.same w = true := by
  rw [same_iff_matches hu hv] at h
  rw [same_iff_matches hv hw] at h'
  rw [same_iff_matches hu hw]
  exact ⟨h.1.trans h'.1, fun mixed => (mixed.split h.1).elim h.2 h'.2⟩

/-! ### Parts of values that are the same -/

theorem WellFormed.child? {segment : String} {part : Value} (h : v.WellFormed)
    (hpart : v.child? segment = some part) : part.WellFormed := by
  cases v with
  | null | bool | number | text | binary => cases hpart
  | array items =>
    obtain ⟨i, -, hi⟩ := Option.bind_eq_some_iff.mp hpart
    rw [WellFormed, itemsWellFormed_iff] at h
    exact h part (List.mem_of_getElem? hi)
  | object fields => exact (wellFormed_object_iff.mp h).2 segment part hpart
  | file name content =>
    rw [Value.child?, fileField?] at hpart
    split at hpart
    · cases hpart
      trivial
    · split at hpart
      · cases hpart
        trivial
      · cases hpart

/-- Both are absent, or both are there and the same. -/
def SamePart : Option Value → Option Value → Prop := Option.Rel fun x y => x.same y = true

namespace SamePart

variable {a b : Option Value}

theorem self (h : ∀ v, a = some v → v.WellFormed) : SamePart a a := by
  cases a with
  | none => exact .none
  | some v => exact .some (same_self v (h v rfl))

theorem of_none_iff (hnone : a = none ↔ b = none)
    (hsome : ∀ x y, a = some x → b = some y → x.same y = true) : SamePart a b := by
  cases a with
  | none =>
    rw [hnone.mp rfl]
    exact .none
  | some x =>
    cases b with
    | none => cases hnone.mpr rfl
    | some y => exact .some (hsome x y rfl rfl)

theorem bind {f : Value → Option Value} (h : SamePart a b)
    (hf : ∀ x y, a = some x → b = some y → x.same y = true → SamePart (f x) (f y)) :
    SamePart (a.bind f) (b.bind f) := by
  cases h with
  | none => exact .none
  | some hsame => exact hf _ _ rfl rfl hsame

end SamePart

theorem samePart_child? (hv : v.WellFormed) (hw : w.WellFormed) (h : v.same w = true)
    (segment : String) : SamePart (v.child? segment) (w.child? segment) := by
  cases matches_of_same v w hv hw h with
  | null | bool | text | binary | file => exact .self fun _ hpart => hv.child? hpart
  | number => exact .none
  | @array xs ys =>
    rw [same, sameItems_iff] at h
    show SamePart ((Decimal.readIndex? segment).bind fun i => xs[i]?)
      ((Decimal.readIndex? segment).bind fun i => ys[i]?)
    cases Decimal.readIndex? segment with
    | none => exact .none
    | some i =>
      refine .of_none_iff ?_ (h.2 i)
      rw [Option.bind_some, Option.bind_some, List.getElem?_eq_none_iff,
        List.getElem?_eq_none_iff, h.1]
  | @object xs ys =>
    obtain ⟨hkeys, hfields⟩ := (same_object_iff hv).mp h
    exact .of_none_iff (Entries.find?_eq_none_of_perm hkeys segment) (hfields segment)

theorem samePart_lookup (hv : v.WellFormed) (hw : w.WellFormed) (h : v.same w = true)
    (segments : List String) : SamePart (v.lookup segments) (w.lookup segments) := by
  induction segments generalizing v w with
  | nil =>
    rw [lookup_nil, lookup_nil]
    exact .some h
  | cons segment rest ih =>
    rw [lookup_cons, lookup_cons]
    refine (samePart_child? hv hw h segment).bind fun x y hx hy hsame => ?_
    exact ih (hv.child? hx) (hw.child? hy) hsame

/-- Two values are the same if they match part by part, objects whatever the order of their keys,
and no integer meets a double.  That is an equivalence, and what segments lead to in values that are
the same is absent from both or the same. -/
theorem same_equivalence (hu : u.WellFormed) (hv : v.WellFormed) (hw : w.WellFormed) :
    (u.same v = true ↔ u.Matches v ∧ ¬ u.Mixed v) ∧
      u.same u = true ∧
      (u.same v = true → v.same u = true) ∧
      (u.same v = true → v.same w = true → u.same w = true) ∧
      (u.same v = true → ∀ segments, SamePart (u.lookup segments) (v.lookup segments)) :=
  ⟨same_iff_matches hu hv, same_self u hu, same_symm hu hv, same_trans hu hv hw,
    samePart_lookup hu hv⟩

/-- A file and a zero in an object, in one order of the keys or the other. -/
def parcel (zero : Float) : Entries Value :=
  [("file", file "a.txt" [104, 105]), ("list", array [number (.double zero), null])]

theorem wellFormed_parcel {zero : Float} (h : zero.isFinite = true) {fields : Entries Value}
    (hfields : fields.Perm (parcel zero)) : (object fields).WellFormed := by
  rw [WellFormed, fieldsWellFormed_iff]
  have hkeys : ["file", "list"].Nodup := by decide
  refine ⟨(hfields.map Prod.fst).nodup_iff.mpr hkeys, fun p hp => ?_⟩
  have hp : p ∈ parcel zero := hfields.mem_iff.mp hp
  rcases List.mem_cons.mp hp with rfl | hp
  · trivial
  · rw [List.mem_singleton.mp hp]
    exact ⟨h, trivial, trivial⟩

theorem same_equivalence_reordered :
    (object (parcel 0.0)).WellFormed ∧ (object (parcel (-0.0)).reverse).WellFormed ∧
      (object (parcel (-0.0))).WellFormed ∧
      (object (parcel 0.0)).same (object (parcel (-0.0)).reverse) = true ∧
      (object (parcel (-0.0)).reverse).same (object (parcel 0.0)) = true ∧
      (object (parcel 0.0)).same (object (parcel (-0.0))) = true ∧
      SamePart ((object (parcel 0.0)).lookup ["list", "0"])
        ((object (parcel (-0.0)).reverse).lookup ["list", "0"]) := by
  have hfirst : (object (parcel 0.0)).WellFormed := wellFormed_parcel (by decide) (.refl _)
  have hsecond : (object (parcel (-0.0)).reverse).WellFormed :=
    wellFormed_parcel (by decide) (List.reverse_perm _)
  have hthird : (object (parcel (-0.0))).WellFormed := wellFormed_parcel (by decide) (.refl _)
  have hsame : (object (parcel 0.0)).same (object (parcel (-0.0)).reverse) = true := by decide
  have hnext : (object (parcel (-0.0)).reverse).same (object (parcel (-0.0))) = true := by decide
  obtain ⟨-, -, hsymm, htrans, hlookup⟩ := same_equivalence hfirst hsecond hthird
  exact ⟨hfirst, hsecond, hthird, hsame, hsymm hsame, htrans hsame hnext, hlookup hsame _⟩

end Value

end ActionFlow
