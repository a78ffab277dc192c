import Mathlib.Data.List.Chain
import Mathlib.Data.List.Nodup
import Mathlib.Data.List.Range
import ActionFlow.Action.Iteration
import ActionFlow.Document.Size

/-!
# Places of a range

Which bounds of an iteration are refused, and which places a range visits: it goes one step at a
time from its first place to its last, the way its direction says, and never leaves the list.
-/
namespace ActionFlow

namespace Range

/-! ### Given places -/

/-- The place lies outside a list of so many items. -/
def Outside (length : Nat) (index : Int) : Prop := index < 0 ∨ length ≤ index

instance (length : Nat) (index : Int) : Decidable (Outside length index) :=
  inferInstanceAs (Decidable (_ ∨ _))

variable {length : Nat} {first last : Option Int} {reverse : Bool} {r : Range}

theorem place?_eq_error_iff {index : Option Int} {i : Int} :
    place? length index = .error i ↔ index = some i ∧ Outside length i := by
  cases index with
  | none => simp [place?]
  | some j =>
    simp only [place?, place, Outside, Option.some.injEq]
    split
    · simp only [Except.map, reduceCtorEq, false_iff]
      omega
    · simp only [Except.map, Except.error.injEq]
      omega

theorem eq_of_place?_eq_ok {index : Option Int} {place : Option Nat}
    (h : place? length index = .ok place) :
    index = place.map Nat.cast ∧ ∀ n ∈ place, n < length := by
  cases index with
  | none =>
    cases h
    exact ⟨rfl, nofun⟩
  | some j =>
    obtain ⟨n, hn, rfl⟩ := map_eq_ok_iff.mp h
    obtain ⟨rfl, hlt⟩ := place_eq_ok_iff.mp hn
    refine ⟨rfl, ?_⟩
    rintro _ ⟨⟩
    exact hlt

theorem not_outside_of_place? {index : Option Int} {place : Option Nat}
    (h : place? length index = .ok place) : ∀ i ∈ index, ¬ Outside length i := by
  intro i hi ho
  rw [place?_eq_error_iff.mpr ⟨hi, ho⟩] at h
  cases h

theorem resolve_eq_error_iff {i : Int} :
    resolve length first last reverse = .error i ↔
      (first = some i ∧ Outside length i) ∨
        (∀ j ∈ first, ¬ Outside length j) ∧ last = some i ∧ Outside length i := by
  unfold resolve
  cases hf : place? length first with
  | error j =>
    obtain ⟨rfl, hj⟩ := place?_eq_error_iff.mp hf
    constructor
    · rintro ⟨⟩
      exact Or.inl ⟨rfl, hj⟩
    · rintro (⟨⟨⟩, -⟩ | ⟨hin, -⟩)
      · rfl
      · exact absurd hj (hin j rfl)
  | ok f =>
    have hin := not_outside_of_place? hf
    have hrefused : ¬ (first = some i ∧ Outside length i) := fun h => hin i h.1 h.2
    rw [← @place?_eq_error_iff length last i]
    cases hl : place? length last with
    | error j =>
      constructor
      · rintro ⟨⟩
        exact Or.inr ⟨hin, rfl⟩
      · rintro (h | ⟨-, ⟨⟩⟩)
        · exact absurd h hrefused
        · rfl
    | ok l =>
      constructor
      · rintro ⟨⟩
      · rintro (h | ⟨-, ⟨⟩⟩)
        exact absurd h hrefused

/-! ### Places in order -/

variable {low high : Nat}

theorem ascending_eq_range' (low high : Nat) :
    ascending low high = List.range' low (high + 1 - low) := by
  rw [ascending, List.range'_eq_map_range]

theorem head?_ascending (h : low ≤ high) : (ascending low high).head? = some low := by
  have hne : high + 1 - low ≠ 0 := by omega
  rw [ascending_eq_range', List.head?_range', if_neg hne]

theorem getLast?_ascending (h : low ≤ high) : (ascending low high).getLast? = some high := by
  have hne : high + 1 - low ≠ 0 := by omega
  have hlast : low + (high + 1 - low) - 1 = high := by omega
  rw [ascending_eq_range', List.getLast?_range', if_neg hne, hlast]

theorem isChain_ascending (low high : Nat) :
    (ascending low high).IsChain fun a b => b = a + 1 := by
  rw [ascending_eq_range']
  exact List.isChain_range' low _ 1

theorem nodup_ascending (low high : Nat) : (ascending low high).Nodup := by
  rw [ascending_eq_range']
  exact List.nodup_range'

theorem ascending_whole (h : 0 < length) : ascending 0 (length - 1) = List.range length := by
  have hlength : length - 1 + 1 - 0 = length := by omega
  rw [ascending_eq_range', hlength, List.range_eq_range']

/-- The places run from the first of the range to its last, one step at a time the way it is
directed, and all lie in a list of so many items. -/
structure Sweeps (r : Range) (length : Nat) : Prop where
  starts : r.places.head? = some r.first
  ends : r.places.getLast? = some r.last
  inside : ∀ n ∈ r.places, n < length
  steps : r.places.IsChain fun a b => if r.reverse then a = b + 1 else b = a + 1
  once : r.places.Nodup

theorem sweeps_descending {first last : Nat} (h : last ≤ first) (hlength : first < length) :
    (⟨first, last, true⟩ : Range).Sweeps length where
  starts := by
    show (ascending last first).reverse.head? = some first
    rw [List.head?_reverse, getLast?_ascending h]
  ends := by
    show (ascending last first).reverse.getLast? = some last
    rw [List.getLast?_reverse, head?_ascending h]
  inside := by
    intro n hn
    have hmem : last ≤ n ∧ n ≤ first := mem_ascending.mp (List.mem_reverse.mp hn)
    omega
  steps := by
    show (ascending last first).reverse.IsChain fun a b => a = b + 1
    rw [List.isChain_reverse]
    exact isChain_ascending last first
  once := List.nodup_reverse.mpr (nodup_ascending last first)

theorem sweeps_ascending {first last : Nat} (h : first ≤ last) (hlength : last < length) :
    (⟨first, last, false⟩ : Range).Sweeps length where
  starts := head?_ascending h
  ends := getLast?_ascending h
  inside := by
    intro n hn
    have hmem : first ≤ n ∧ n ≤ last := mem_ascending.mp hn
    omega
  steps := isChain_ascending first last
  once := nodup_ascending first last

/-- With at least one item in the list, every pair of bounds in it makes a range that sweeps. -/
theorem sweeps_between {f l : Option Nat} (hlength : 0 < length) (hf : ∀ n ∈ f, n < length)
    (hl : ∀ n ∈ l, n < length) : (between length f l reverse).Sweeps length := by
  have hend : length - 1 < length := by omega
  cases f with
  | none =>
    cases l with
    | none =>
      cases reverse with
      | false => exact sweeps_ascending (Nat.zero_le _) hend
      | true => exact sweeps_descending (Nat.zero_le _) hend
    | some b =>
      have hb : b < length := hl b rfl
      have hle : b ≤ length - 1 := by omega
      cases reverse with
      | false => exact sweeps_ascending (Nat.zero_le b) hb
      | true => exact sweeps_descending hle hend
  | some a =>
    have ha : a < length := hf a rfl
    cases l with
    | none =>
      have hle : a ≤ length - 1 := by omega
      cases reverse with
      | false => exact sweeps_ascending hle hend
      | true => exact sweeps_descending (Nat.zero_le a) ha
    | some b =>
      have hb : b < length := hl b rfl
      show (⟨a, b, decide (b < a)⟩ : Range).Sweeps length
      by_cases hba : b < a
      · rw [decide_eq_true hba]
        exact sweeps_descending (by omega) ha
      · rw [decide_eq_false hba]
        exact sweeps_ascending (by omega) hb

theorem sweeps_of_resolve (hlength : 0 < length)
    (hr : resolve length first last reverse = .ok r) : r.Sweeps length := by
  obtain ⟨f, hf, hr⟩ := bind_eq_ok_iff.mp hr
  obtain ⟨l, hl, hr⟩ := bind_eq_ok_iff.mp hr
  cases hr
  obtain ⟨-, hfirst⟩ := eq_of_place?_eq_ok hf
  obtain ⟨-, hlast⟩ := eq_of_place?_eq_ok hl
  exact sweeps_between hlength hfirst hlast

/-! ### Resolved ranges -/

/-- The direction that two bounds decide, or else the flag. -/
def turned : Option Int → Option Int → Bool → Bool
  | some first, some last, _ => last < first
  | _, _, reverse => reverse

/-- What decides a range: its direction, and each bound as it is given or else the end of the list
that fits the direction. -/
structure Bounds (r : Range) (length : Nat) (first last : Option Int) (reverse : Bool) : Prop where
  reverse : r.reverse = turned first last reverse
  first : (r.first : Int) = first.getD (if r.reverse then length - 1 else 0)
  last : (r.last : Int) = last.getD (if r.reverse then 0 else length - 1)

theorem bounds_between (hlength : 0 < length) (f l : Option Nat) (reverse : Bool) :
    (between length f l reverse).Bounds length (f.map Nat.cast) (l.map Nat.cast) reverse := by
  have hcast : ((length - 1 : Nat) : Int) = length - 1 := by omega
  cases f <;> cases l <;> cases reverse <;> constructor <;> simp [between, turned, hcast]

/-- With at least one item in the list, a range is refused exactly for the first given place that
lies outside of the list.  Any other range sweeps the list between its bounds, and without bounds
it visits all of the list once. -/
theorem resolve_sweeps {length : Nat} (hlength : 0 < length) (first last : Option Int)
    (reverse : Bool) :
    (∀ i, resolve length first last reverse = .error i ↔
      (first = some i ∧ Outside length i) ∨
        (∀ j ∈ first, ¬ Outside length j) ∧ last = some i ∧ Outside length i) ∧
    (∀ r, resolve length first last reverse = .ok r →
      r.Sweeps length ∧ r.Bounds length first last reverse) ∧
    ∃ r, resolve length none none reverse = .ok r ∧
      r.places = if reverse then (List.range length).reverse else List.range length := by
  refine ⟨fun i => resolve_eq_error_iff, fun r hr => ?_, _, rfl, ?_⟩
  · obtain ⟨f, hf, hr⟩ := bind_eq_ok_iff.mp hr
    obtain ⟨l, hl, hr⟩ := bind_eq_ok_iff.mp hr
    cases hr
    obtain ⟨rfl, hfirst⟩ := eq_of_place?_eq_ok hf
    obtain ⟨rfl, hlast⟩ := eq_of_place?_eq_ok hl
    exact ⟨sweeps_between hlength hfirst hlast, bounds_between hlength f l reverse⟩
  · cases reverse with
    | false => exact ascending_whole hlength
    | true => exact congrArg List.reverse (ascending_whole hlength)

/-- Both bounds decide against the flag, and the first of two wrong bounds is reported. -/
theorem resolve_sweeps_backwards :
    0 < 5 ∧ resolve 5 (some 3) (some 1) false = .ok ⟨3, 1, true⟩ ∧
      (⟨3, 1, true⟩ : Range).Sweeps 5 ∧
      (⟨3, 1, true⟩ : Range).Bounds 5 (some 3) (some 1) false ∧
      resolve 5 (some 5) (some (-1)) true = .error 5 ∧
      resolve 5 (some 4) (some (-1)) true = .error (-1) := by
  have hlength : 0 < 5 := by decide
  have hback : resolve 5 (some 3) (some 1) false = .ok ⟨3, 1, true⟩ := by decide
  obtain ⟨hsweeps, hbounds⟩ := (resolve_sweeps hlength (some 3) (some 1) false).2.1 _ hback
  refine ⟨hlength, hback, hsweeps, hbounds, ?_, ?_⟩
  · rw [(resolve_sweeps hlength (some 5) (some (-1)) true).1]
    decide
  · rw [(resolve_sweeps hlength (some 4) (some (-1)) true).1]
    decide

end Range

namespace Loop

theorem mem_visited {items : List Value} {range : Range} {i : IterationItem}
    (h : i ∈ visited items range) : items[i.index]? = some i.item := by
  obtain ⟨index, -, he⟩ := List.mem_filterMap.mp h
  obtain ⟨item, hitem, rfl⟩ := Option.map_eq_some_iff.mp he
  exact hitem

theorem index_filterMap {items : List Value} {places : List Nat}
    (h : ∀ n ∈ places, n < items.length) :
    (places.filterMap fun i => items[i]?.map (IterationItem.mk i)).map IterationItem.index =
      places := by
  induction places with
  | nil => rfl
  | cons n rest ih =>
    obtain ⟨hn, hrest⟩ := List.forall_mem_cons.mp h
    have hitem : items[n]?.map (IterationItem.mk n) = some ⟨n, items[n]⟩ := by
      rw [List.getElem?_eq_getElem hn, Option.map_some]
    simp only [List.filterMap_cons, hitem, List.map_cons, ih hrest]

/-- An iteration visits an item at every place of a range that sweeps its list. -/
theorem index_visited {items : List Value} {range : Range} (h : range.Sweeps items.length) :
    (visited items range).map IterationItem.index = range.places :=
  index_filterMap h.inside

end Loop

end ActionFlow
