import ActionFlow.Proofs.DirectReadings

/-!
# Conditions that are joined

`all` passes over the conditions that hold and `any` over those that do not; the first result of
another kind decides, be it a truth value or an error, and what comes after it never counts.  So the
two forms are dual to each other under negation, and either of them may be split into parts.
-/
namespace ActionFlow

/-! ### Results in a row -/

/-- Results that are passed over while they are `neutral`: the first other one decides. -/
def decideBy (neutral : Bool) (results : List (Resolution Bool)) : Resolution Bool :=
  (results.find? fun r => r ≠ .ok neutral).getD (.ok neutral)

section Results

variable {neutral : Bool} {r : Resolution Bool} {results : List (Resolution Bool)}

theorem decideBy_nil : decideBy neutral [] = .ok neutral := rfl

theorem decideBy_cons_neutral :
    decideBy neutral (.ok neutral :: results) = decideBy neutral results := by
  rw [decideBy, List.find?_cons_of_neg (by simp), decideBy]

theorem decideBy_cons_of_ne (h : r ≠ .ok neutral) : decideBy neutral (r :: results) = r := by
  rw [decideBy, List.find?_cons_of_pos (by simpa using h), Option.getD_some]

/-- One result and then the others, as a run comes by them. -/
theorem decideBy_cons (neutral : Bool) (r : Resolution Bool) (results : List (Resolution Bool)) :
    decideBy neutral (r :: results) =
      r >>= fun b => if b = neutral then decideBy neutral results else .ok b := by
  cases r with
  | error stop => exact decideBy_cons_of_ne nofun
  | ok b =>
    show _ = if b = neutral then decideBy neutral results else .ok b
    by_cases h : b = neutral
    · rw [if_pos h, h, decideBy_cons_neutral]
    · rw [if_neg h]
      exact decideBy_cons_of_ne fun heq => h (Except.ok.inj heq)

theorem map_not_eq_ok_iff : r.map not = .ok (!neutral) ↔ r = .ok neutral := by
  cases r with
  | error stop => exact ⟨nofun, nofun⟩
  | ok b => simp [Except.map]

/-- The negation of what is decided is decided by the negations, at the same place. -/
theorem map_not_decideBy (neutral : Bool) (results : List (Resolution Bool)) :
    (decideBy neutral results).map not = decideBy (!neutral) (results.map (Except.map not)) := by
  have hsame : ((fun r => decide (r ≠ .ok !neutral)) ∘ Except.map not) =
      fun r : Resolution Bool => decide (r ≠ .ok neutral) := by
    funext r
    simp only [Function.comp_apply, ne_eq, map_not_eq_ok_iff]
  rw [decideBy, decideBy, List.find?_map, hsame]
  cases results.find? fun r => r ≠ .ok neutral <;> rfl

theorem decideBy_append (neutral : Bool) (xs ys : List (Resolution Bool)) :
    decideBy neutral (xs ++ ys) = decideBy neutral [decideBy neutral xs, decideBy neutral ys] := by
  have hlast : decideBy neutral [decideBy neutral ys] = decideBy neutral ys := by
    by_cases h : decideBy neutral ys = .ok neutral
    · rw [h, decideBy_cons_neutral, decideBy_nil]
    · exact decideBy_cons_of_ne h
  cases hfind : xs.find? fun r => r ≠ .ok neutral with
  | none =>
    have hxs : decideBy neutral xs = .ok neutral := by rw [decideBy, hfind, Option.getD_none]
    rw [hxs, decideBy_cons_neutral, hlast, decideBy, List.find?_append, hfind, Option.none_or,
      decideBy]
  | some r =>
    have hr : r ≠ .ok neutral := by simpa using List.find?_some hfind
    have hxs : decideBy neutral xs = r := by rw [decideBy, hfind, Option.getD_some]
    rw [hxs, decideBy_cons_of_ne hr, decideBy, List.find?_append, hfind, Option.some_or,
      Option.getD_some]

end Results

/-! ### Resolving -/

/-- The conditions joined by the form that passes over `neutral` results. -/
def Condition.joined (neutral : Bool) (conditions : List Condition) : Condition :=
  if neutral then .all conditions else .any conditions

theorem Condition.resolveAll_eq_decideBy (ctx : Context) (conditions : List Condition) :
    Condition.resolveAll ctx conditions = decideBy true (conditions.map (·.resolve ctx)) := by
  induction conditions with
  | nil =>
    rw [Condition.resolveAll]
    rfl
  | cons c rest ih =>
    rw [Condition.resolveAll, List.map_cons, decideBy_cons, ih]
    congr 1
    funext b
    cases b <;> rfl

theorem Condition.resolveAny_eq_decideBy (ctx : Context) (conditions : List Condition) :
    Condition.resolveAny ctx conditions = decideBy false (conditions.map (·.resolve ctx)) := by
  induction conditions with
  | nil =>
    rw [Condition.resolveAny]
    rfl
  | cons c rest ih =>
    rw [Condition.resolveAny, List.map_cons, decideBy_cons, ih]
    congr 1
    funext b
    cases b <;> rfl

theorem Condition.resolve_joined (neutral : Bool) (conditions : List Condition) (ctx : Context) :
    (Condition.joined neutral conditions).resolve ctx =
      decideBy neutral (conditions.map (·.resolve ctx)) := by
  cases neutral with
  | false =>
    show (Condition.any conditions).resolve ctx = _
    rw [Condition.resolve, Condition.resolveAny_eq_decideBy]
  | true =>
    show (Condition.all conditions).resolve ctx = _
    rw [Condition.resolve, Condition.resolveAll_eq_decideBy]

theorem Condition.resolve_negation (c : Condition) (ctx : Context) :
    (Condition.negation c).resolve ctx = (c.resolve ctx).map not := by
  rw [Condition.resolve]
  cases c.resolve ctx <;> rfl

/-! ### Reading -/

namespace Form

/-- The form that passes over `neutral` results. -/
def joining (neutral : Bool) : Form := if neutral then all else any

end Form

theorem Condition.ofJson_negation (config : Json) :
    Condition.ofJson (Form.negation.on config) = (Condition.ofJson config).map .negation := by
  rw [Condition.ofJson_of_invokes (Form.invokes_on .negation config), Condition.ofCall]

theorem Condition.ofJson_joining (neutral : Bool) (configs : List Json) :
    Condition.ofJson ((Form.joining neutral).on (.array configs)) =
      (configs.mapM Condition.ofJson).map (Condition.joined neutral) := by
  rw [Condition.ofJson_of_invokes (Form.invokes_on _ _), ← Condition.ofItems_eq_mapM]
  cases neutral with
  | false =>
    show Condition.ofCall .any (.array configs) = _
    rw [Condition.ofCall]
    rfl
  | true =>
    show Condition.ofCall .all (.array configs) = _
    rw [Condition.ofCall]
    rfl

theorem Condition.mapM_ofJson_negations (configs : List Json) :
    (configs.map Form.negation.on).mapM Condition.ofJson =
      (configs.mapM Condition.ofJson).map (List.map .negation) := by
  induction configs with
  | nil => rfl
  | cons config rest ih =>
    rw [List.map_cons, List.mapM_cons, List.mapM_cons, ih, Condition.ofJson_negation]
    cases Condition.ofJson config with
    | error e => rfl
    | ok c => cases rest.mapM Condition.ofJson <;> rfl

/-! ### Laws -/

/-- Two configurations of conditions that are refused with the same error or resolve alike. -/
def Condition.Interchangeable (a b : Json) : Prop :=
  Agree (fun c d => ∀ ctx, c.resolve ctx = d.resolve ctx) (Condition.ofJson a)
    (Condition.ofJson b)

/-- The configuration joins the given ones: it is refused with the error of the first of them that
is refused, and the first of their results that is not `neutral` decides. -/
def Condition.Joins (neutral : Bool) (configs : List Json) (config : Json) : Prop :=
  Agree (fun c conditions => ∀ ctx,
      c.resolve ctx = decideBy neutral (conditions.map (·.resolve ctx)))
    (Condition.ofJson config) (configs.mapM Condition.ofJson)

namespace Condition

theorem joins_joining (neutral : Bool) (configs : List Json) :
    Joins neutral configs ((Form.joining neutral).on (.array configs)) := by
  rw [Joins, ofJson_joining]
  exact agree_map_left (fun conditions ctx => resolve_joined neutral conditions ctx) _

theorem interchangeable_negation (neutral : Bool) (configs : List Json) :
    Interchangeable (Form.negation.on ((Form.joining neutral).on (.array configs)))
      ((Form.joining !neutral).on (.array (configs.map Form.negation.on))) := by
  rw [Interchangeable, ofJson_negation, ofJson_joining, ofJson_joining, mapM_ofJson_negations]
  cases configs.mapM ofJson with
  | error e => exact .failed e
  | ok conditions =>
    refine .succeeded fun ctx => ?_
    have hnegations : (conditions.map negation).map (·.resolve ctx) =
        (conditions.map (·.resolve ctx)).map (Except.map not) := by
      rw [List.map_map, List.map_map]
      exact List.map_congr_left fun c _ => resolve_negation c ctx
    rw [resolve_negation, resolve_joined, resolve_joined, hnegations, map_not_decideBy]

theorem interchangeable_append (neutral : Bool) (xs ys : List Json) :
    Interchangeable ((Form.joining neutral).on (.array (xs ++ ys)))
      ((Form.joining neutral).on (.array
        [(Form.joining neutral).on (.array xs), (Form.joining neutral).on (.array ys)])) := by
  rw [Interchangeable, ofJson_joining, ofJson_joining, List.mapM_append]
  simp only [List.mapM_cons, List.mapM_nil, ofJson_joining]
  cases xs.mapM ofJson with
  | error e => exact .failed e
  | ok first =>
    cases ys.mapM ofJson with
    | error e => exact .failed e
    | ok second =>
      refine .succeeded fun ctx => ?_
      simp only [resolve_joined, List.map_append, List.map_cons, List.map_nil]
      exact decideBy_append _ _ _

end Condition

/-- Negation exchanges `all` and `any`, and either of them may be split into parts, with the same
refusals, the same truth values and the same errors: the first condition that decides ends both. -/
theorem joined_conditions_dual (configs xs ys : List Json) :
    Condition.Interchangeable (Form.negation.on (Form.all.on (.array configs)))
        (Form.any.on (.array (configs.map Form.negation.on))) ∧
      Condition.Interchangeable (Form.negation.on (Form.any.on (.array configs)))
        (Form.all.on (.array (configs.map Form.negation.on))) ∧
      Condition.Interchangeable (Form.all.on (.array (xs ++ ys)))
        (Form.all.on (.array [Form.all.on (.array xs), Form.all.on (.array ys)])) ∧
      Condition.Interchangeable (Form.any.on (.array (xs ++ ys)))
        (Form.any.on (.array [Form.any.on (.array xs), Form.any.on (.array ys)])) ∧
      Condition.Joins true configs (Form.all.on (.array configs)) ∧
      Condition.Joins false configs (Form.any.on (.array configs)) :=
  ⟨Condition.interchangeable_negation true configs,
    Condition.interchangeable_negation false configs,
    Condition.interchangeable_append true xs ys, Condition.interchangeable_append false xs ys,
    Condition.joins_joining true configs, Condition.joins_joining false configs⟩

end ActionFlow
