/-!
# Operators of conditions

The comparisons of two texts and of two numbers that conditions are made of.  Numbers are doubles,
so that a comparison with one that is no number is false.
-/
namespace ActionFlow

inductive TextOperator where
  | startsWith
  | endsWith
  | contains
  | equals
  deriving DecidableEq, Repr

namespace TextOperator

def occursIn (part : List Char) : List Char → Bool
  | [] => part.isEmpty
  | c :: rest => part.isPrefixOf (c :: rest) || occursIn part rest

def holds (op : TextOperator) (text value : String) : Bool :=
  match op with
  | startsWith => value.toList.isPrefixOf text.toList
  | endsWith => value.toList.isSuffixOf text.toList
  | contains => occursIn value.toList text.toList
  | equals => text == value

theorem occursIn_iff {part cs : List Char} :
    occursIn part cs = true ↔ ∃ before after, cs = before ++ part ++ after := by
  induction cs with
  | nil => simp [occursIn]
  | cons c rest ih =>
    rw [occursIn, Bool.or_eq_true, List.isPrefixOf_iff_prefix, ih]
    constructor
    · rintro (⟨after, h⟩ | ⟨before, after, h⟩)
      · exact ⟨[], after, by simp [h]⟩
      · exact ⟨c :: before, after, by simp [h]⟩
    · rintro ⟨before, after, h⟩
      cases before with
      | nil => exact Or.inl ⟨after, by simpa using h.symm⟩
      | cons b before =>
        refine Or.inr ⟨before, after, ?_⟩
        simpa using (List.cons.inj h).2

end TextOperator

inductive NumberOperator where
  | greaterThan
  | greaterThanOrEqual
  | lessThan
  | lessThanOrEqual
  | equal
  deriving DecidableEq, Repr

namespace NumberOperator

def all : List NumberOperator :=
  [greaterThan, greaterThanOrEqual, lessThan, lessThanOrEqual, equal]

def holds (op : NumberOperator) (left right : Float) : Bool :=
  match op with
  | greaterThan => right < left
  | greaterThanOrEqual => right ≤ left
  | lessThan => left < right
  | lessThanOrEqual => left ≤ right
  | equal => left == right

end NumberOperator

end ActionFlow
