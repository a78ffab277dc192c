import ActionFlow.Definition.Reading
import ActionFlow.Document.Size

/-!
# Sizes of definitions

An action that is read from a draft is not larger than the draft, so that actions written in a
setting are smaller than the action whose setting it is.
-/
namespace ActionFlow.ActionDefinition

def Partial.size (p : Partial) : Nat :=
  Json.sizeFields p.settings + sizeItems (p.errorActions.getD [])

theorem size_ofPartial {p : Partial} {d : ActionDefinition} (h : ofPartial p = .ok d) :
    d.size = 1 + p.size := by
  simp only [ofPartial, bind_eq_ok_iff, Except.ok.injEq] at h
  obtain ⟨_, _, _, _, rfl⟩ := h
  simp only [size, Partial.size]
  omega

theorem once_eq_ok {α : Type} {slot : Option α} {name : String} {read : Except ReadError α}
    {result : Option α} (h : Draft.once slot name read = .ok result) :
    ∃ a, read = .ok a ∧ result = some a := by
  simp only [Draft.once] at h
  split at h
  · cases h
  · cases hr : read with
    | error e => simp [hr, Except.map] at h
    | ok a =>
      simp only [hr, Except.map, Except.ok.injEq] at h
      exact ⟨a, rfl, h.symm⟩

theorem size_readField_le {origin : Origin} {p q : Partial} {name : String} {d : Draft}
    (h : readField origin p name d = .ok q) : q.size ≤ p.size + d.size := by
  simp only [readField] at h
  split at h <;> simp only [bind_eq_ok_iff, Except.ok.injEq] at h
  case h_9 =>
    obtain ⟨value, hv, rfl⟩ := h
    have := Draft.size_readSetting_le hv
    have := Json.sizeFields_put_le p.settings name value
    simp only [Partial.size]
    omega
  all_goals
    obtain ⟨_, _, rfl⟩ := h
    simp only [Partial.size]
    omega

mutual
theorem size_read_le {origin : Origin} {d : Draft} {a : ActionDefinition}
    (h : read origin d = .ok a) : a.size ≤ d.size := by
  match d with
  | .object fields stop =>
    simp only [read, bind_eq_ok_iff] at h
    obtain ⟨inner, _, p, hp, _, _, ho⟩ := h
    have := size_readFields_le hp
    have := size_ofPartial ho
    simp only [Partial.size, Json.sizeFields, Option.getD_none, sizeItems] at *
    simp only [Draft.size]
    omega
  | .null | .bool _ | .number _ | .text _ | .plain _ | .array _ _ | .broken _ =>
    simp only [read] at h
    cases h

theorem size_readFields_le {origin : Origin} {p q : Partial} {fields : List (Draft × Draft)}
    (h : readFields origin p fields = .ok q) : q.size ≤ p.size + Draft.sizeFields fields := by
  match fields with
  | [] =>
    simp only [readFields, Except.ok.injEq] at h
    subst h
    simp [Draft.sizeFields]
  | (key, d) :: rest =>
    simp only [readFields, bind_eq_ok_iff] at h
    obtain ⟨name, _, h⟩ := h
    split at h
    · simp only [bind_eq_ok_iff] at h
      obtain ⟨slot, ho, hr⟩ := h
      obtain ⟨actions, ha, rfl⟩ := once_eq_ok ho
      have := sizeItems_readList_le ha
      have := size_readFields_le hr
      simp only [Partial.size, Option.getD_some, Draft.sizeFields] at *
      omega
    · simp only [bind_eq_ok_iff] at h
      obtain ⟨next, hf, hr⟩ := h
      have := size_readField_le hf
      have := size_readFields_le hr
      simp only [Draft.sizeFields]
      omega

theorem sizeItems_readList_le {origin : Origin} {d : Draft} {actions : List ActionDefinition}
    (h : readList origin d = .ok actions) : sizeItems actions ≤ d.size := by
  match d with
  | .array items stop =>
    simp only [readList, bind_eq_ok_iff, Except.ok.injEq] at h
    obtain ⟨inner, _, values, hv, _, _, rfl⟩ := h
    have := sizeItems_readItems_le hv
    simp only [Draft.size]
    omega
  | .plain s =>
    simp only [readList] at h
    split at h
    · cases h
      simp [sizeItems]
    · cases h
  | .null | .bool _ | .number _ | .text _ | .object _ _ | .broken _ =>
    simp only [readList] at h
    cases h

theorem sizeItems_readItems_le {origin : Origin} {items : List Draft}
    {actions : List ActionDefinition} (h : readItems origin items = .ok actions) :
    sizeItems actions ≤ Draft.sizeItems items := by
  match items with
  | [] =>
    simp only [readItems, Except.ok.injEq] at h
    subst h
    simp [sizeItems]
  | d :: rest =>
    simp only [readItems, bind_eq_ok_iff, Except.ok.injEq] at h
    obtain ⟨action, hd, actions, hr, rfl⟩ := h
    have := size_read_le hd
    have := sizeItems_readItems_le hr
    simp only [sizeItems, Draft.sizeItems]
    omega
end

theorem sizeItems_listOfJson_le {j : Json} {actions : List ActionDefinition}
    (h : listOfJson j = .ok actions) : sizeItems actions ≤ j.size := by
  have := sizeItems_readList_le h
  rwa [Draft.size_ofJson] at this

end ActionFlow.ActionDefinition
