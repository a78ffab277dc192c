import ActionFlow.Proofs.Equality
import ActionFlow.Proofs.RoundedIntegers
import ActionFlow.Provider.Basic

/-!
# Equality by magnitude

Two values match if they are equal part by part, where numbers are equal by what they amount to and
objects whatever the order of their keys.  A comparison of two values finds that out, except where
two numbers have one double between them, and where an integer and a double meet inside of lists or
objects.
-/
namespace ActionFlow

/-! ### Numbers -/

namespace Number

variable {m n : Number}

/-- An integer on one side and a double on the other. -/
inductive OfTwoKinds : Number → Number → Prop
  | integer_double (i : Int) (x : Float) : OfTwoKinds (integer i) (double x)
  | double_integer (x : Float) (i : Int) : OfTwoKinds (double x) (integer i)

/-- Numbers are the same if they are of one kind and amount to the same. -/
theorem same_iff (hm : m.WellFormed) (hn : n.WellFormed) :
    m.same n = true ↔ m.value = n.value ∧ ¬ OfTwoKinds m n := by
  cases m with
  | integer i =>
    cases n with
    | integer j =>
      rw [same, beq_iff_eq]
      constructor
      · intro h
        subst h
        exact ⟨rfl, nofun⟩
      · intro h
        exact_mod_cast (show ((i : Int) : ℚ) = j from h.1)
    | double y =>
      show false = true ↔ _
      exact ⟨nofun, fun h => absurd (.integer_double i y) h.2⟩
  | double x =>
    cases n with
    | integer j =>
      show false = true ↔ _
      exact ⟨nofun, fun h => absurd (.double_integer x j) h.2⟩
    | double y =>
      rw [same, beq_iff_exactValue (isNaN_of_isFinite hm) (isNaN_of_isFinite hn)]
      exact ⟨fun h => ⟨h, nofun⟩, fun h => h.1⟩

theorem beq_toFloat_iff (hm : m.WellFormed) (hn : n.WellFormed) :
    (m.toFloat == n.toFloat) = true ↔ m.rounded = n.rounded :=
  beq_iff_exactValue (isNaN_toFloat hm) (isNaN_toFloat hn)

theorem rounded_integer {i : Int} (h : (integer i).WellFormed) (hsmall : i.natAbs ≤ 2 ^ 53) :
    (integer i).rounded = (integer i).value := by
  refine exactValue_ofInt_eq (natAbs_lt h) ?_
  rcases Nat.lt_or_eq_of_le hsmall with hlt | heq
  · rw [spacing_eq_one hlt]
    exact Nat.one_dvd _
  · rw [heq, spacing, Nat.log2_two_pow]
    exact ⟨2 ^ 52, by norm_num⟩

theorem exists_beyond (hm : m.WellFormed) (hn : n.WellFormed) (h : m.rounded = n.rounded)
    (hapart : m.value ≠ n.value) :
    ∃ i : Int, 2 ^ 53 < i.natAbs ∧ (m = integer i ∨ n = integer i) := by
  by_contra hnone
  -- without such an integer both numbers are what their doubles stand for
  have hexact : ∀ k : Number, k.WellFormed → k = m ∨ k = n → k.rounded = k.value := by
    intro k hk hmn
    cases k with
    | double x => rfl
    | integer i =>
      refine rounded_integer hk (Nat.le_of_not_lt fun hlarge => hnone ⟨i, hlarge, ?_⟩)
      exact hmn.imp Eq.symm Eq.symm
  exact hapart ((hexact m hm (.inl rfl)).symm.trans (h.trans (hexact n hn (.inr rfl))))

end Number

/-! ### Values -/

namespace Value

/-- Equality part by part, where numbers are equal if they amount to the same. -/
inductive Matches : Value → Value → Prop
  | null : Matches null null
  | bool (b : Bool) : Matches (bool b) (bool b)
  | number {m n : Number} (amount : m.value = n.value) : Matches (number m) (number n)
  | text (s : String) : Matches (text s) (text s)
  | array {xs ys : List Value} (length : xs.length = ys.length)
      (items : ∀ (i : Nat) x y, xs[i]? = some x → ys[i]? = some y → Matches x y) :
      Matches (array xs) (array ys)
  | object {xs ys : Entries Value} (keys : (Entries.keys xs).Perm (Entries.keys ys))
      (fields : ∀ k x y, Entries.find? xs k = some x → Entries.find? ys k = some y → Matches x y) :
      Matches (object xs) (object ys)
  | binary (content : Bytes) : Matches (binary content) (binary content)
  | file (name : String) (content : Bytes) : Matches (file name content) (file name content)

/-- Somewhere in the two values an integer and a double are in the same place. -/
inductive Mixed : Value → Value → Prop
  | number {m n : Number} (kinds : m.OfTwoKinds n) : Mixed (number m) (number n)
  | item {xs ys : List Value} {i : Nat} {x y : Value} (left : xs[i]? = some x)
      (right : ys[i]? = some y) (mixed : Mixed x y) : Mixed (array xs) (array ys)
  | field {xs ys : Entries Value} {k : String} {x y : Value} (left : Entries.find? xs k = some x)
      (right : Entries.find? ys k = some y) (mixed : Mixed x y) : Mixed (object xs) (object ys)

theorem sameItems_iff {xs ys : List Value} : sameItems xs ys = true ↔
    xs.length = ys.length ∧
      ∀ (i : Nat) x y, xs[i]? = some x → ys[i]? = some y → x.same y = true := by
  induction xs generalizing ys with
  | nil =>
    cases ys with
    | nil => simp [sameItems]
    | cons y ys => simp [sameItems]
  | cons x xs ih =>
    cases ys with
    | nil => simp [sameItems]
    | cons y ys =>
      rw [sameItems, Bool.and_eq_true, ih]
      constructor
      · rintro ⟨hhead, hlength, hrest⟩
        refine ⟨congrArg (· + 1) hlength, fun i a b ha hb => ?_⟩
        cases i with
        | zero =>
          cases ha
          cases hb
          exact hhead
        | succ i => exact hrest i a b ha hb
      · rintro ⟨hlength, hitems⟩
        exact ⟨hitems 0 x y rfl rfl, Nat.succ.inj hlength, fun i a b => hitems (i + 1) a b⟩

theorem sameFields_find? {xs ys : Entries Value} (hn : (Entries.keys xs).Nodup) :
    sameFields xs ys = true ↔
      ∀ k x, Entries.find? xs k = some x →
        ∃ y, Entries.find? ys k = some y ∧ x.same y = true := by
  rw [sameFields_iff]
  constructor
  · exact fun h k x hx => h (k, x) (Entries.mem_of_find? hx)
  · exact fun h p hp => h p.1 p.2 (Entries.find?_of_mem hn hp)

theorem itemsWellFormed_iff {items : List Value} :
    ItemsWellFormed items ↔ ∀ v ∈ items, v.WellFormed := by
  induction items with
  | nil => simp [ItemsWellFormed]
  | cons v rest ih => rw [ItemsWellFormed, ih, List.forall_mem_cons]

theorem perm_keys_of_sameFields {xs ys : Entries Value} (hn : (Entries.keys xs).Nodup)
    (hlength : xs.length = ys.length) (h : sameFields xs ys = true) :
    (Entries.keys xs).Perm (Entries.keys ys) := by
  have hsub : Entries.keys xs ⊆ Entries.keys ys := by
    intro k hk
    obtain ⟨x, hx⟩ := Entries.exists_find? hk
    obtain ⟨y, hy, -⟩ := (sameFields_find? hn).mp h k x hx
    exact Entries.mem_keys_of_find? hy
  have hkeys : (Entries.keys xs).length = (Entries.keys ys).length := by
    rw [Entries.keys, Entries.keys, List.length_map, List.length_map, hlength]
  exact (List.subperm_of_subset hn hsub).perm_of_length_le hkeys.ge

/-- Objects are the same if they have the same keys in any order and the same value under each. -/
theorem same_object_iff {xs ys : Entries Value} (hxs : (object xs).WellFormed) :
    (object xs).same (object ys) = true ↔
      (Entries.keys xs).Perm (Entries.keys ys) ∧
        ∀ k x y, Entries.find? xs k = some x → Entries.find? ys k = some y → x.same y = true := by
  rw [wellFormed_object_iff] at hxs
  rw [same, Bool.and_eq_true, beq_iff_eq, sameFields_find? hxs.1]
  constructor
  · rintro ⟨hlength, hfields⟩
    refine ⟨perm_keys_of_sameFields hxs.1 hlength ((sameFields_find? hxs.1).mpr hfields), ?_⟩
    intro k x y hx hy
    obtain ⟨z, hz, hsame⟩ := hfields k x hx
    rw [hy] at hz
    exact Option.some.inj hz ▸ hsame
  · rintro ⟨hkeys, hfields⟩
    refine ⟨Entries.length_eq_of_perm hkeys, fun k x hx => ?_⟩
    obtain ⟨y, hy⟩ := Entries.exists_find?_of_perm hkeys hx
    exact ⟨y, hy, hfields k x y hx hy⟩

mutual
theorem matches_of_same (v w : Value) (hv : v.WellFormed) (hw : w.WellFormed)
    (h : v.same w = true) : v.Matches w := by
  match v with
  | null =>
    cases w with
    | null => exact .null
    | _ => simp [same] at h
  | bool b =>
    cases w with
    | bool c =>
      rw [same, beq_iff_eq] at h
      exact h ▸ .bool b
    | _ => simp [same] at h
  | number m =>
    cases w with
    | number n =>
      rw [same] at h
      exact .number ((Number.same_iff hv hw).mp h).1
    | _ => simp [same] at h
  | text s =>
    cases w with
    | text t =>
      rw [same, beq_iff_eq] at h
      exact h ▸ .text s
    | _ => simp [same] at h
  | array xs =>
    cases w with
    | array ys =>
      rw [same] at h
      exact .array (sameItems_iff.mp h).1 (matches_of_sameItems xs ys hv hw h)
    | _ => simp [same] at h
  | object xs =>
    cases w with
    | object ys =>
      rw [same, Bool.and_eq_true, beq_iff_eq] at h
      rw [WellFormed] at hv
      have hys := (wellFormed_object_iff.mp hw).2
      refine .object (perm_keys_of_sameFields hv.1 h.1 h.2) fun k x y hx hy => ?_
      exact matches_of_sameFields xs ys hv.2 hys h.2 (k, x) (Entries.mem_of_find? hx) y hy
    | _ => simp [same] at h
  | binary content =>
    cases w with
    | binary other =>
      rw [same, beq_iff_eq] at h
      exact h ▸ .binary content
    | _ => simp [same] at h
  | file name content =>
    cases w with
    | file other bytes =>
      rw [same, Bool.and_eq_true, beq_iff_eq, beq_iff_eq] at h
      obtain ⟨hname, hcontent⟩ := h
      subst hname hcontent
      exact .file name content
    | _ => simp [same] at h

theorem matches_of_sameItems (xs ys : List Value) (hxs : ItemsWellFormed xs)
    (hys : ItemsWellFormed ys) (h : sameItems xs ys = true) :
    ∀ (i : Nat) x y, xs[i]? = some x → ys[i]? = some y → x.Matches y := by
  match xs, ys with
  | [], _ => exact nofun
  | _, [] => exact nofun
  | x :: xs, y :: ys =>
    rw [sameItems, Bool.and_eq_true] at h
    rw [ItemsWellFormed] at hxs hys
    intro i a b ha hb
    cases i with
    | zero =>
      cases ha
      cases hb
      exact matches_of_same x y hxs.1 hys.1 h.1
    | succ i => exact matches_of_sameItems xs ys hxs.2 hys.2 h.2 i a b ha hb

theorem matches_of_sameFields (xs : List (String × Value)) (ys : Entries Value)
    (hxs : FieldsWellFormed xs) (hys : ∀ k y, Entries.find? ys k = some y → y.WellFormed)
    (h : sameFields xs ys = true) :
    ∀ p ∈ xs, ∀ y, Entries.find? ys p.1 = some y → p.2.Matches y := by
  match xs with
  | [] => exact List.forall_mem_nil _
  | (key, x) :: rest =>
    rw [sameFields, Bool.and_eq_true] at h
    rw [FieldsWellFormed] at hxs
    refine List.forall_mem_cons.mpr ⟨fun y hy => ?_, matches_of_sameFields rest ys hxs.2 hys h.2⟩
    have hsame := h.1
    rw [hy] at hsame
    exact matches_of_same x y hxs.1 (hys key y hy) hsame
end

/-- Nothing that is the same has an integer where the other has a double. -/
theorem not_same_of_mixed {v w : Value} (h : v.Mixed w) (hv : v.WellFormed) : v.same w ≠ true := by
  induction h with
  | number kinds =>
    rw [same]
    cases kinds <;> exact Bool.false_ne_true
  | item left right _ ih =>
    intro hsame
    rw [same] at hsame
    rw [WellFormed, itemsWellFormed_iff] at hv
    exact ih (hv _ (List.mem_of_getElem? left)) ((sameItems_iff.mp hsame).2 _ _ _ left right)
  | field left right _ ih =>
    intro hsame
    rw [same, Bool.and_eq_true] at hsame
    rw [wellFormed_object_iff] at hv
    obtain ⟨y, hy, hxy⟩ := (sameFields_find? hv.1).mp hsame.2 _ _ left
    rw [right] at hy
    exact ih (hv.2 _ _ left) (Option.some.inj hy ▸ hxy)

theorem same_of_matches {v w : Value} (h : v.Matches w) (hv : v.WellFormed) (hw : w.WellFormed)
    (hmixed : ¬ v.Mixed w) : v.same w = true := by
  induction h with
  | null => rw [same]
  | bool b => rw [same, beq_self_eq_true]
  | number amount =>
    rw [same]
    exact (Number.same_iff hv hw).mpr ⟨amount, fun kinds => hmixed (.number kinds)⟩
  | text s => rw [same, beq_self_eq_true]
  | array length items ih =>
    rw [WellFormed, itemsWellFormed_iff] at hv hw
    rw [same, sameItems_iff]
    refine ⟨length, fun i x y hx hy => ?_⟩
    exact ih i x y hx hy (hv x (List.mem_of_getElem? hx)) (hw y (List.mem_of_getElem? hy))
      fun mixed => hmixed (.item hx hy mixed)
  | object keys fields ih =>
    rw [same_object_iff hv]
    rw [wellFormed_object_iff] at hv hw
    refine ⟨keys, fun k x y hx hy => ?_⟩
    exact ih k x y hx hy (hv.2 k x hx) (hw.2 k y hy) fun mixed => hmixed (.field hx hy mixed)
  | binary content => rw [same, beq_self_eq_true]
  | file name content => rw [same, beq_self_eq_true, beq_self_eq_true, Bool.and_true]

theorem same_iff_matches {v w : Value} (hv : v.WellFormed) (hw : w.WellFormed) :
    v.same w = true ↔ v.Matches w ∧ ¬ v.Mixed w := by
  constructor
  · exact fun h => ⟨matches_of_same v w hv hw h, fun mixed => not_same_of_mixed mixed hv h⟩
  · exact fun h => same_of_matches h.1 hv hw h.2

/-! ### Comparisons -/

/-- Where a comparison errs: on two numbers that share a double though they differ, and on two lists
or objects that match though an integer meets a double in them. -/
inductive Misjudged : Value → Value → Prop
  | numbers {m n : Number} (rounded : m.rounded = n.rounded) (apart : m.value ≠ n.value) :
      Misjudged (number m) (number n)
  | lists {xs ys : List Value} (matched : Matches (array xs) (array ys))
      (mixed : Mixed (array xs) (array ys)) : Misjudged (array xs) (array ys)
  | objects {xs ys : Entries Value} (matched : Matches (object xs) (object ys))
      (mixed : Mixed (object xs) (object ys)) : Misjudged (object xs) (object ys)

theorem misjudged_iff {v w : Value} (h : v.float? = none ∨ w.float? = none) :
    v.Misjudged w ↔ v.Matches w ∧ v.Mixed w := by
  constructor
  · intro hjudged
    cases hjudged with
    | numbers rounded apart => rcases h with h | h <;> cases h
    | lists matched mixed => exact ⟨matched, mixed⟩
    | objects matched mixed => exact ⟨matched, mixed⟩
  · rintro ⟨matched, mixed⟩
    cases mixed with
    | number kinds => rcases h with h | h <;> cases h
    | item left right mixed => exact .lists matched (.item left right mixed)
    | field left right mixed => exact .objects matched (.field left right mixed)

theorem equal_eq_same {v w : Value} (h : v.float? = none ∨ w.float? = none) :
    v.equal w = v.same w := by
  rw [equal]
  rcases h with h | h
  · rw [h]
  · rw [h]
    cases v.float? <;> rfl

theorem matches_number_iff {m n : Number} :
    (number m).Matches (number n) ↔ m.value = n.value := by
  constructor
  · intro h
    cases h with
    | number amount => exact amount
  · exact .number

theorem equal_numbers_right_iff {m n : Number} (hm : m.WellFormed) (hn : n.WellFormed) :
    ((number m).equal (number n) = true ↔ (number m).Matches (number n)) ↔
      ¬ (number m).Misjudged (number n) := by
  have hequal : (number m).equal (number n) = true ↔ m.rounded = n.rounded :=
    Number.beq_toFloat_iff hm hn
  have hrounded := Number.rounded_eq_of_value_eq hm hn
  rw [hequal, matches_number_iff]
  constructor
  · intro hiff hjudged
    cases hjudged with
    | numbers rounded apart => exact apart (hiff.mp rounded)
  · intro hjudged
    refine ⟨fun rounded => ?_, hrounded⟩
    by_contra apart
    exact hjudged (.numbers rounded apart)

theorem equal_right_iff {v w : Value} (hv : v.WellFormed) (hw : w.WellFormed) :
    (v.equal w = true ↔ v.Matches w) ↔ ¬ v.Misjudged w := by
  by_cases h : v.float? = none ∨ w.float? = none
  · rw [equal_eq_same h, same_iff_matches hv hw, misjudged_iff h]
    tauto
  · obtain ⟨hleft, hright⟩ := not_or.mp h
    cases v with
    | number m =>
      cases w with
      | number n => exact equal_numbers_right_iff hv hw
      | _ => exact absurd rfl hright
    | _ => exact absurd rfl hleft

/-- What a comparison errs on has an integer of more than 53 bits, or integers and doubles mixed. -/
theorem Misjudged.large_or_mixed {v w : Value} (h : v.Misjudged w) (hv : v.WellFormed)
    (hw : w.WellFormed) :
    v.Mixed w ∨ ∃ i : Int, 2 ^ 53 < i.natAbs ∧ (v = .integer i ∨ w = .integer i) := by
  cases h with
  | numbers rounded apart =>
    obtain ⟨i, hlarge, hi⟩ := Number.exists_beyond hv hw rounded apart
    exact .inr ⟨i, hlarge, hi.imp (congrArg number) (congrArg number)⟩
  | lists matched mixed => exact .inl mixed
  | objects matched mixed => exact .inl mixed

end Value

section Conditions

variable {left right : Provider} {ctx : Context} {v w : Value}

theorem Condition.resolve_equal (hleft : left.resolve ctx = .ok v)
    (hright : right.resolve ctx = .ok w) :
    (Condition.equal left right).resolve ctx = .ok (v.equal w) := by
  rw [Condition.resolve, hleft, hright]
  rfl

/-- An equality condition holds of matching values only and of all of them, but for those that it
misjudges, and these have an integer of more than 53 bits, or integers and doubles mixed. -/
theorem equal_condition_right_iff (hleft : left.resolve ctx = .ok v)
    (hright : right.resolve ctx = .ok w) (hv : v.WellFormed) (hw : w.WellFormed) :
    ∃ b, (Condition.equal left right).resolve ctx = .ok b ∧
      ((b = true ↔ v.Matches w) ↔ ¬ v.Misjudged w) ∧
      (v.Misjudged w →
        v.Mixed w ∨ ∃ i : Int, 2 ^ 53 < i.natAbs ∧ (v = .integer i ∨ w = .integer i)) := by
  exact ⟨v.equal w, Condition.resolve_equal hleft hright, Value.equal_right_iff hv hw,
    fun h => h.large_or_mixed hv hw⟩

theorem equal_condition_right_reordered :
    let v : Value := .object [("a", .array [.integer 1, .null]), ("b", .text "x")]
    let w : Value := .object [("b", .text "x"), ("a", .array [.integer 1, .null])]
    let ctx := Context.start "r" "t" .null
    v.WellFormed ∧ w.WellFormed ∧
      ∃ b, (Condition.equal (.constant v) (.constant w)).resolve ctx = .ok b ∧
        (b = true ↔ v.Matches w) := by
  intro v w ctx
  have hone : (Number.integer 1).WellFormed := by decide
  have hv : v.WellFormed := ⟨by decide, ⟨hone, trivial, trivial⟩, trivial, trivial⟩
  have hw : w.WellFormed := ⟨by decide, trivial, ⟨hone, trivial, trivial⟩, trivial⟩
  have hsame : v.same w = true := by cbv
  have hleft : (Provider.constant v).resolve ctx = .ok v := by rw [Provider.resolve]
  have hright : (Provider.constant w).resolve ctx = .ok w := by rw [Provider.resolve]
  obtain ⟨b, hb, hjudged, -⟩ := equal_condition_right_iff hleft hright hv hw
  refine ⟨hv, hw, b, hb, hjudged.mpr fun h => ?_⟩
  exact Value.not_same_of_mixed ((Value.misjudged_iff (.inl rfl)).mp h).2 hv hsame

/-- A list of the integer 1 does not equal a list of the double 1, and the first two integers that
share a double equal each other. -/
theorem equal_condition_misjudges :
    let ctx := Context.start "r" "t" .null
    let one : Value := .array [.integer 1]
    let other : Value := .array [.number (.double 1.0)]
    one.Matches other ∧
      (Condition.equal (.constant one) (.constant other)).resolve ctx = .ok false ∧
      ¬ (Value.integer 9007199254740993).Matches (.integer 9007199254740992) ∧
      (Condition.equal (.constant (.integer 9007199254740993))
        (.constant (.integer 9007199254740992))).resolve ctx = .ok true := by
  intro ctx one other
  have hconstant : ∀ v, (Provider.constant v).resolve ctx = .ok v := by
    intro v
    rw [Provider.resolve]
  have hunit : (Number.double 1.0).value = 1 := by
    have hparts : Dyadic.ofFloat 1.0 = ⟨false, 2 ^ 52, -52⟩ := by decide
    show exactValue 1.0 = 1
    rw [exactValue, hparts]
    norm_num [Dyadic.value, Dyadic.size]
  refine ⟨.array rfl fun i x y hx hy => ?_, ?_, ?_, ?_⟩
  · cases i with
    | zero =>
      cases hx
      cases hy
      refine .number ?_
      rw [hunit]
      exact Int.cast_one
    | succ i => cases hx
  · have hequal : one.equal other = false := by
      rw [Value.equal_eq_same (.inl rfl)]
      rfl
    rw [Condition.resolve_equal (hconstant one) (hconstant other), hequal]
  · intro h
    have hvalue : ((9007199254740993 : Int) : ℚ) = (9007199254740992 : Int) :=
      Value.matches_number_iff.mp h
    have heq : (9007199254740993 : Int) = 9007199254740992 := by exact_mod_cast hvalue
    omega
  · have hequal : (Value.integer 9007199254740993).equal (.integer 9007199254740992) = true := by
      show (Float.ofInt 9007199254740993 == Float.ofInt 9007199254740992) = true
      decide
    rw [Condition.resolve_equal (hconstant _) (hconstant _), hequal]

end Conditions

end ActionFlow
