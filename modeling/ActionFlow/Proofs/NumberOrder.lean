import ActionFlow.Proofs.Forms
import ActionFlow.Proofs.SpelledDoubles

/-!
# The order of compared numbers

The comparisons of two operands follow the order of the numbers that the operands count as, so that
exactly one of less, equal and greater holds.  An operand may count as NaN, which only a text for it
does; then none of the comparisons holds.
-/
namespace ActionFlow

/-! ### Operators -/

namespace NumberOperator

/-- Whether the operator holds of numbers of which the first compares so with the second. -/
def accepts (op : NumberOperator) (o : Ordering) : Bool :=
  match op with
  | greaterThan => o.isGT
  | greaterThanOrEqual => o.isGE
  | lessThan => o.isLT
  | lessThanOrEqual => o.isLE
  | equal => o.isEq

section Holds

variable {x y : Float}

theorem holds_of_compare {o : Ordering} (h : x.toModel.unpack.compare y.toModel.unpack = some o)
    (op : NumberOperator) : op.holds x y = op.accepts o := by
  -- two operators look at the operands the other way round
  have hswap : y.toModel.unpack.compare x.toModel.unpack = some o.swap := by
    rw [Dyadic.compare_swap, h]
    rfl
  rw [Bool.eq_iff_iff]
  cases op with
  | greaterThan =>
    show decide (y < x) = true ↔ _
    rw [decide_eq_true_iff, lt_iff_compare, hswap]
    cases o <;> decide
  | greaterThanOrEqual =>
    show decide (y ≤ x) = true ↔ _
    rw [decide_eq_true_iff, le_iff_compare, hswap]
    cases o <;> decide
  | lessThan =>
    show decide (x < y) = true ↔ _
    rw [decide_eq_true_iff, lt_iff_compare, h]
    cases o <;> decide
  | lessThanOrEqual =>
    show decide (x ≤ y) = true ↔ _
    rw [decide_eq_true_iff, le_iff_compare, h]
    cases o <;> decide
  | equal =>
    show (x == y) = true ↔ _
    rw [beq_iff_compare, h]
    cases o <;> decide

theorem holds_of_numbers (hx : x.isNaN = false) (hy : y.isNaN = false) (op : NumberOperator) :
    op.holds x y = op.accepts (compare (exactValue x) (exactValue y)) :=
  holds_of_compare (compare_eq_compare_exactValue hx hy) op

theorem holds_of_isNaN (h : x.isNaN = true ∨ y.isNaN = true) (op : NumberOperator) :
    op.holds x y = false := by
  have hnone := compare_eq_none_of_isNaN h
  have hnone' := compare_eq_none_of_isNaN h.symm
  cases op with
  | greaterThan =>
    refine decide_eq_false fun hlt => ?_
    rw [lt_iff_compare, hnone'] at hlt
    cases hlt
  | greaterThanOrEqual =>
    refine decide_eq_false fun hle => ?_
    rw [le_iff_compare, hnone'] at hle
    obtain ⟨o, ⟨⟩, -⟩ := hle
  | lessThan =>
    refine decide_eq_false fun hlt => ?_
    rw [lt_iff_compare, hnone] at hlt
    cases hlt
  | lessThanOrEqual =>
    refine decide_eq_false fun hle => ?_
    rw [le_iff_compare, hnone] at hle
    obtain ⟨o, ⟨⟩, -⟩ := hle
  | equal =>
    refine Bool.eq_false_iff.mpr fun heq => ?_
    have hcompare := beq_iff_compare.mp heq
    rw [hnone] at hcompare
    cases hcompare

end Holds

end NumberOperator

/-! ### Comparisons -/

/-- The configuration that compares two operands. -/
def comparison (op : NumberOperator) (left right : Json) : Json :=
  (Form.compare op).on (.object [("left", left), ("right", right)])

/-- The configuration is that of a condition with this result. -/
def Condition.Gives (config : Json) (ctx : Context) (b : Bool) : Prop :=
  ∃ c, Condition.ofJson config = .ok c ∧ c.resolve ctx = .ok b

/-- The configuration resolves to a value that counts as the double. -/
def Operand (config : Json) (ctx : Context) (v : Value) (x : Float) : Prop :=
  ∃ p, Provider.ofJson config = .ok p ∧ p.resolve ctx = .ok v ∧
    Conversion.double.convert? v = some x

theorem Operand.isNaN_iff {config : Json} {ctx : Context} {v : Value} {x : Float}
    (h : Operand config ctx v x) (hv : v.WellFormed) : x.isNaN = true ↔ v.SpellsNaN := by
  obtain ⟨p, -, -, hconvert⟩ := h
  exact Value.isNaN_of_convert? hv hconvert

theorem Operand.number (n : Number) (ctx : Context) :
    Operand (.number n) ctx (.number n) n.toFloat := by
  refine ⟨.constant (.number n), ?_, by rw [Provider.resolve], rfl⟩
  rw [Provider.ofJson_of_literal rfl]
  rfl

theorem Operand.text {s : String} {x : Float} (h : Decimal.readFloat? (Text.trim s) = some x)
    (ctx : Context) : Operand (.text s) ctx (.text s) x := by
  rw [← Conversion.convert?_double_text] at h
  refine ⟨.constant (.text s), ?_, by rw [Provider.resolve], h⟩
  rw [Provider.ofJson_of_literal rfl]
  rfl

section Comparisons

variable {left right : Json} {ctx : Context} {v w : Value} {x y : Float}

theorem gives_comparison_iff (hleft : Operand left ctx v x) (hright : Operand right ctx w y)
    (op : NumberOperator) (b : Bool) :
    Condition.Gives (comparison op left right) ctx b ↔ op.holds x y = b := by
  obtain ⟨p, hp, hv, hx⟩ := hleft
  obtain ⟨q, hq, hw, hy⟩ := hright
  have hread : Condition.ofJson (comparison op left right) = .ok (.compare op p q) := by
    rw [comparison, Condition.ofJson_of_invokes (Form.invokes_on _ _), Condition.ofCall,
      Provider.ofFields_eq_mapValues, Form.operandsOf, Form.needed, Form.needed,
      Entries.find?_mapValues, Entries.find?_mapValues]
    show (Provider.ofJson left >>= fun l => Provider.ofJson right >>= fun r =>
      Except.ok (Condition.compare op l r)) = _
    rw [hp, hq]
    rfl
  have hresolve : (Condition.compare op p q).resolve ctx = .ok (op.holds x y) := by
    rw [Condition.resolve, hv, hw]
    show (Conversion.double.apply v >>= fun l => Conversion.double.apply w >>= fun r =>
      Except.ok (op.holds l r)) = _
    rw [Conversion.apply, Conversion.apply, hx, hy]
    rfl
  constructor
  · rintro ⟨c, hc, hb⟩
    rw [hread] at hc
    cases hc
    rw [hresolve] at hb
    exact Except.ok.inj hb
  · rintro rfl
    exact ⟨_, hread, hresolve⟩

/-- The laws of a total order, on the results of the comparisons of two operands. -/
structure OrderLaws (left right : Json) (ctx : Context) : Prop where
  one : ∃! op, op ∈ [NumberOperator.lessThan, .equal, .greaterThan] ∧
    Condition.Gives (comparison op left right) ctx true
  atMost : ∀ b, Condition.Gives (comparison .lessThanOrEqual left right) ctx b ↔
    Condition.Gives (comparison .greaterThan left right) ctx !b
  atLeast : ∀ b, Condition.Gives (comparison .greaterThanOrEqual left right) ctx b ↔
    Condition.Gives (comparison .lessThan left right) ctx !b
  swapped : ∀ b, (Condition.Gives (comparison .lessThan left right) ctx b ↔
      Condition.Gives (comparison .greaterThan right left) ctx b) ∧
    (Condition.Gives (comparison .greaterThan left right) ctx b ↔
      Condition.Gives (comparison .lessThan right left) ctx b)

theorem NumberOperator.existsUnique_accepts (o : Ordering) :
    ∃! op, op ∈ [lessThan, equal, greaterThan] ∧ accepts op o = true := by
  have hone : ∀ op, op ∈ [lessThan, equal, greaterThan] ∧ accepts op o = true →
      op = match o with
        | .lt => lessThan
        | .eq => equal
        | .gt => greaterThan := by
    intro op h
    cases o <;> cases op <;> revert h <;> decide
  refine ⟨_, ?_, hone⟩
  cases o <;> decide

theorem gives_comparison_of_numbers (hleft : Operand left ctx v x) (hright : Operand right ctx w y)
    (hx : x.isNaN = false) (hy : y.isNaN = false) (op : NumberOperator) (b : Bool) :
    Condition.Gives (comparison op left right) ctx b ↔
      op.accepts (compare (exactValue x) (exactValue y)) = b := by
  rw [gives_comparison_iff hleft hright, NumberOperator.holds_of_numbers hx hy]

theorem orderLaws_of_numbers (hleft : Operand left ctx v x) (hright : Operand right ctx w y)
    (hx : x.isNaN = false) (hy : y.isNaN = false) : OrderLaws left right ctx := by
  have hthere := gives_comparison_of_numbers hleft hright hx hy
  have hback := gives_comparison_of_numbers hright hleft hy hx
  have hswap : compare (exactValue y) (exactValue x) =
    (compare (exactValue x) (exactValue y)).swap := Std.OrientedCmp.eq_swap
  refine ⟨?_, fun b => ?_, fun b => ?_, fun b => ⟨?_, ?_⟩⟩
  · simp only [hthere]
    exact NumberOperator.existsUnique_accepts _
  · rw [hthere, hthere]
    cases compare (exactValue x) (exactValue y) <;> cases b <;> decide
  · rw [hthere, hthere]
    cases compare (exactValue x) (exactValue y) <;> cases b <;> decide
  · rw [hthere, hback, hswap]
    cases compare (exactValue x) (exactValue y) <;> rfl
  · rw [hthere, hback, hswap]
    cases compare (exactValue x) (exactValue y) <;> rfl

theorem gives_false_of_isNaN (hleft : Operand left ctx v x) (hright : Operand right ctx w y)
    (h : x.isNaN = true ∨ y.isNaN = true) (op : NumberOperator) :
    Condition.Gives (comparison op left right) ctx false := by
  rw [gives_comparison_iff hleft hright]
  exact NumberOperator.holds_of_isNaN h op

theorem not_orderLaws_of_gives_false (hleft : Operand left ctx v x)
    (hright : Operand right ctx w y)
    (h : ∀ op, Condition.Gives (comparison op left right) ctx false) :
    ¬ OrderLaws left right ctx := by
  intro hlaws
  obtain ⟨op, ⟨-, htrue⟩, -⟩ := hlaws.one
  rw [gives_comparison_iff hleft hright] at htrue
  have hfalse := (gives_comparison_iff hleft hright op false).mp (h op)
  rw [hfalse] at htrue
  cases htrue

/-- Comparisons are those of a total order unless an operand spells NaN: then they are those of the
numbers that the operands stand for, and otherwise none of them holds. -/
theorem number_comparisons_ordered_iff (hleft : Operand left ctx v x)
    (hright : Operand right ctx w y) (hv : v.WellFormed) (hw : w.WellFormed) :
    (OrderLaws left right ctx ↔ ¬ v.SpellsNaN ∧ ¬ w.SpellsNaN) ∧
      (¬ v.SpellsNaN ∧ ¬ w.SpellsNaN → ∀ op, Condition.Gives (comparison op left right) ctx
        (op.accepts (compare (exactValue x) (exactValue y)))) ∧
      (v.SpellsNaN ∨ w.SpellsNaN → ∀ op, Condition.Gives (comparison op left right) ctx false) := by
  rw [← hleft.isNaN_iff hv, ← hright.isNaN_iff hw]
  have hnan := gives_false_of_isNaN hleft hright
  refine ⟨⟨fun hlaws => ?_, fun h => ?_⟩, fun h op => ?_, hnan⟩
  · exact not_or.mp fun h => not_orderLaws_of_gives_false hleft hright (hnan h) hlaws
  · exact orderLaws_of_numbers hleft hright (Bool.eq_false_iff.mpr h.1)
      (Bool.eq_false_iff.mpr h.2)
  · exact (gives_comparison_of_numbers hleft hright (Bool.eq_false_iff.mpr h.1)
      (Bool.eq_false_iff.mpr h.2) op _).mpr rfl

/-- A text and an integer are ordered as the numbers are. -/
theorem number_comparisons_ordered_text :
    let left : Json := .text " 2.5 "
    let right : Json := .number (.integer 10)
    let ctx := Context.start "r" "t" .null
    Operand left ctx (.text " 2.5 ") 2.5 ∧ Operand right ctx (.integer 10) (Float.ofInt 10) ∧
      OrderLaws left right ctx := by
  intro left right ctx
  have hleft : Operand left ctx (.text " 2.5 ") 2.5 := Operand.text (by decide +kernel) ctx
  have hright : Operand right ctx (.integer 10) (Float.ofInt 10) := Operand.number _ ctx
  have hnumber : ∀ v x config, Operand config ctx v x → v.WellFormed → x.isNaN = false →
      ¬ v.SpellsNaN := by
    intro v x config h hv hx hspells
    rw [← h.isNaN_iff hv, hx] at hspells
    cases hspells
  have hten : (Number.integer 10).WellFormed := by decide
  refine ⟨hleft, hright, (number_comparisons_ordered_iff hleft hright trivial hten).1.mpr ⟨?_, ?_⟩⟩
  · exact hnumber _ _ _ hleft trivial (by decide)
  · exact hnumber _ _ _ hright hten (by decide)

/-- Of a text for NaN and the integer 1 none is less than the other, nor are they equal. -/
theorem number_comparisons_unordered :
    let left : Json := .text "nan"
    let right : Json := .number (.integer 1)
    let ctx := Context.start "r" "t" .null
    (∀ op, Condition.Gives (comparison op left right) ctx false) ∧
      ¬ OrderLaws left right ctx := by
  intro left right ctx
  have hleft : Operand left ctx (.text "nan") (0 / 0) := Operand.text (by decide +kernel) ctx
  have hright : Operand right ctx (.integer 1) (Float.ofInt 1) := Operand.number _ ctx
  have hfalse := gives_false_of_isNaN hleft hright (.inl (by decide))
  exact ⟨hfalse, not_orderLaws_of_gives_false hleft hright hfalse⟩

end Comparisons

end ActionFlow
