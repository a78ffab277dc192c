import ActionFlow.Proofs.DistinctKeys
import ActionFlow.Proofs.ReadingRule

/-!
# Orderly definitions

What is read of a definition has distinct keys in every value, and no setting under the name of a
declared field, whatever the document repeats.
-/
namespace ActionFlow

namespace ErrorConditionDefinition

structure KeysDistinct (e : ErrorConditionDefinition) : Prop where
  condition : e.condition.KeysDistinct
  error : e.error.KeysDistinct

structure Partial.KeysDistinct (p : Partial) : Prop where
  condition : ∀ j ∈ p.condition, j.KeysDistinct
  error : ∀ j ∈ p.error, j.KeysDistinct

theorem keysDistinct_readField {origin : Origin} {p q : Partial} {name : String} {d : Draft}
    (h : p.KeysDistinct) (hq : readField origin p name d = .ok q) : q.KeysDistinct := by
  simp only [readField] at hq
  split at hq <;> simp only [bind_eq_ok_iff, Except.ok.injEq] at hq
  case h_1 =>
    obtain ⟨slot, hslot, rfl⟩ := hq
    obtain ⟨j, hj, rfl⟩ := ActionDefinition.once_eq_ok hslot
    refine ⟨?_, h.error⟩
    rintro _ ⟨⟩
    exact Draft.keysDistinct_readAny hj
  case h_2 =>
    obtain ⟨slot, hslot, rfl⟩ := hq
    obtain ⟨j, hj, rfl⟩ := ActionDefinition.once_eq_ok hslot
    refine ⟨h.condition, ?_⟩
    rintro _ ⟨⟩
    exact Draft.keysDistinct_readAny hj
  case h_3 =>
    obtain ⟨_, _, rfl⟩ := hq
    exact h

theorem keysDistinct_read {origin : Origin} {d : Draft} {e : ErrorConditionDefinition}
    (h : read origin d = .ok e) : e.KeysDistinct := by
  cases d with
  | object fields stop =>
    simp only [read, bind_eq_ok_iff] at h
    obtain ⟨inner, _, p, hp, _, _, ho⟩ := h
    have hstart : Partial.KeysDistinct {} := by constructor <;> rintro _ ⟨⟩
    have hkeys : p.KeysDistinct :=
      Draft.readFields_keeps (D := fun _ => True)
        (fun _ _ _ _ _ hs hq => keysDistinct_readField hs hq) (fun _ _ => trivial) hstart hp
    simp only [ofPartial, bind_eq_ok_iff, Draft.require_eq_ok_iff, Except.ok.injEq] at ho
    obtain ⟨condition, hcondition, error, herror, rfl⟩ := ho
    exact ⟨hkeys.condition condition hcondition, hkeys.error error herror⟩
  | array items stop =>
    simp only [read, bind_eq_ok_iff, Except.ok.injEq] at h
    obtain ⟨inner, _, _, _, condition, hcondition, _, _, error, herror, _, _, rfl⟩ := h
    obtain ⟨_, hcondition⟩ := Draft.readPlace_eq_ok hcondition
    obtain ⟨_, herror⟩ := Draft.readPlace_eq_ok herror
    exact ⟨Draft.keysDistinct_readAny hcondition, Draft.keysDistinct_readAny herror⟩
  | null | bool | number | text | plain | broken => cases h

end ErrorConditionDefinition

namespace ActionDefinition

/-- The names that fields of an action have when they are not settings. -/
def declared : List String :=
  ["type", "name", "alias", "description", "asynchronous", "runCondition",
    "beforeRunErrorConditions", "afterRunErrorConditions", "errorActions"]

/-- Settings with distinct keys at every depth, none of which is the name of a declared field. -/
structure SettingsOrderly (settings : Entries Json) : Prop extends
    Json.FieldsDistinct settings where
  undeclared : ∀ name ∈ Entries.keys settings, name ∉ declared

/-- Keys are distinct everywhere in the action and in its error actions, at every depth. -/
inductive Orderly : ActionDefinition → Prop
  | node {d : ActionDefinition} (runCondition : ∀ j ∈ d.runCondition, j.KeysDistinct)
      (before : ∀ e ∈ d.before, e.KeysDistinct) (after : ∀ e ∈ d.after, e.KeysDistinct)
      (recovery : ∀ b ∈ d.errorActions, Orderly b) (settings : SettingsOrderly d.settings) :
      Orderly d

structure Partial.Orderly (p : Partial) : Prop where
  runCondition : ∀ j ∈ p.runCondition.getD none, j.KeysDistinct
  before : ∀ e ∈ p.before.getD [], e.KeysDistinct
  after : ∀ e ∈ p.after.getD [], e.KeysDistinct
  recovery : ∀ b ∈ p.errorActions.getD [], b.Orderly
  settings : SettingsOrderly p.settings

theorem orderly_empty : Partial.Orderly {} where
  runCondition := nofun
  before := nofun
  after := nofun
  recovery := nofun
  settings := ⟨Json.fieldsDistinct_nil, nofun⟩

theorem orderly_ofPartial {p : Partial} {d : ActionDefinition} (h : p.Orderly)
    (hd : ofPartial p = .ok d) : d.Orderly := by
  simp only [ofPartial, bind_eq_ok_iff, Except.ok.injEq] at hd
  obtain ⟨_, _, _, _, rfl⟩ := hd
  exact .node h.runCondition h.before h.after h.recovery h.settings

theorem SettingsOrderly.put {settings : Entries Json} (h : SettingsOrderly settings) {name : String}
    {j : Json} (hname : name ∉ declared) (hj : j.KeysDistinct) :
    SettingsOrderly (Entries.put settings name j) where
  toFieldsDistinct := h.toFieldsDistinct.put name hj
  undeclared := by
    intro other hother
    rcases Entries.mem_keys_put.mp hother with rfl | hother
    · exact hname
    · exact h.undeclared other hother

theorem keysDistinct_readConditions {origin : Origin} {d : Draft}
    {conditions : List ErrorConditionDefinition} (h : readConditions origin d = .ok conditions) :
    ∀ e ∈ conditions, e.KeysDistinct :=
  Draft.forall_mem_readList (fun _ _ _ => ErrorConditionDefinition.keysDistinct_read) h

theorem orderly_readField {origin : Origin} {p q : Partial} {name : String} {d : Draft}
    (hname : name ≠ "errorActions") (h : p.Orderly) (hq : readField origin p name d = .ok q) :
    q.Orderly := by
  simp only [readField] at hq
  split at hq <;> simp only [bind_eq_ok_iff, Except.ok.injEq] at hq
  case h_6 =>
    obtain ⟨slot, hslot, rfl⟩ := hq
    obtain ⟨condition, hcondition, rfl⟩ := once_eq_ok hslot
    have hread := Draft.forall_mem_readOptional (fun _ _ => Draft.keysDistinct_readAny) hcondition
    exact { h with runCondition := hread }
  case h_7 =>
    obtain ⟨slot, hslot, rfl⟩ := hq
    obtain ⟨conditions, hconditions, rfl⟩ := once_eq_ok hslot
    exact { h with before := keysDistinct_readConditions hconditions }
  case h_8 =>
    obtain ⟨slot, hslot, rfl⟩ := hq
    obtain ⟨conditions, hconditions, rfl⟩ := once_eq_ok hslot
    exact { h with after := keysDistinct_readConditions hconditions }
  case h_9 =>
    obtain ⟨value, hvalue, rfl⟩ := hq
    have hundeclared : name ∉ declared := by
      simp only [declared, List.mem_cons, List.not_mem_nil, or_false, not_or]
      and_intros <;> assumption
    exact { h with settings := h.settings.put hundeclared (Draft.keysDistinct_readSetting hvalue) }
  all_goals
    obtain ⟨_, _, rfl⟩ := hq
    exact { h with }

theorem orderly_rule : ReadingRule (fun _ => True) Partial.Orderly Orderly where
  items _ _ _ := trivial
  fields _ _ _ := trivial
  start := orderly_empty
  field hname _ := orderly_readField hname
  recovery h hactions := { h with recovery := hactions }
  done := orderly_ofPartial

end ActionDefinition

end ActionFlow
