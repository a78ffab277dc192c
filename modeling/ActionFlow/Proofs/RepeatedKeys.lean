import ActionFlow.Action.Basic

/-!
# Repeated keys

Siblings must have different keys, since their records lie under them.  The search for a repeated
key goes through the keys from the front and remembers those it has passed.  It finds nothing
exactly if all are different, and else the key whose repetition comes first.
-/
namespace ActionFlow

theorem repeatedKey?_eq_none_iff {seen keys : List String} :
    repeatedKey? seen keys = none ↔ keys.Nodup ∧ ∀ key ∈ keys, key ∉ seen := by
  induction keys generalizing seen with
  | nil => simp [repeatedKey?]
  | cons key rest ih =>
    by_cases h : key ∈ seen
    · simp [repeatedKey?, h]
    · simp only [repeatedKey?, h, if_false, ih, List.nodup_cons, List.mem_cons, not_or]
      constructor
      · rintro ⟨hrest, hnew⟩
        refine ⟨⟨fun hk => (hnew key hk).1 rfl, hrest⟩, ?_⟩
        rintro k (rfl | hk)
        · exact h
        · exact (hnew k hk).2
      · rintro ⟨⟨hkey, hrest⟩, hnew⟩
        refine ⟨hrest, fun k hk => ⟨?_, hnew k (.inr hk)⟩⟩
        rintro rfl
        exact hkey hk

/-- The keys passed before a search stops: all different, all new, and the next one is known. -/
structure Repeats (seen keys : List String) (key : String) (before after : List String) : Prop where
  split : keys = before ++ key :: after
  distinct : before.Nodup
  fresh : ∀ k ∈ before, k ∉ seen
  known : key ∈ seen ∨ key ∈ before

namespace Repeats

variable {seen keys before after : List String} {first key : String}

theorem here (rest : List String) (h : key ∈ seen) : Repeats seen (key :: rest) key [] rest :=
  ⟨rfl, List.nodup_nil, List.forall_mem_nil _, .inl h⟩

/-- The key that is passed counts as seen from then on. -/
theorem cons_iff (hfirst : first ∉ seen) :
    Repeats seen (first :: keys) key (first :: before) after ↔
      Repeats (first :: seen) keys key before after := by
  constructor
  · intro h
    obtain ⟨hnot, hdistinct⟩ := List.nodup_cons.mp h.distinct
    refine ⟨List.tail_eq_of_cons_eq h.split, hdistinct, fun k hk hseen => ?_, ?_⟩
    · rcases List.mem_cons.mp hseen with rfl | hseen
      · exact hnot hk
      · exact h.fresh k (List.mem_cons_of_mem _ hk) hseen
    · rcases h.known with hseen | hbefore
      · exact .inl (List.mem_cons_of_mem _ hseen)
      · rcases List.mem_cons.mp hbefore with rfl | hbefore
        · exact .inl List.mem_cons_self
        · exact .inr hbefore
  · intro h
    have hnot : first ∉ before := fun hmem => h.fresh first hmem List.mem_cons_self
    refine ⟨congrArg (first :: ·) h.split, List.nodup_cons.mpr ⟨hnot, h.distinct⟩, ?_, ?_⟩
    · refine List.forall_mem_cons.mpr ⟨hfirst, fun k hk hseen => ?_⟩
      exact h.fresh k hk (List.mem_cons_of_mem _ hseen)
    · rcases h.known with hseen | hbefore
      · rcases List.mem_cons.mp hseen with rfl | hseen
        · exact .inr List.mem_cons_self
        · exact .inl hseen
      · exact .inr (List.mem_cons_of_mem _ hbefore)

end Repeats

theorem repeatedKey?_eq_some_iff {seen keys : List String} {key : String} :
    repeatedKey? seen keys = some key ↔ ∃ before after, Repeats seen keys key before after := by
  induction keys generalizing seen with
  | nil =>
    refine ⟨nofun, ?_⟩
    rintro ⟨before, after, h⟩
    exact absurd h.split (by simp)
  | cons first rest ih =>
    by_cases hfirst : first ∈ seen
    · rw [repeatedKey?, if_pos hfirst, Option.some.injEq]
      constructor
      · rintro rfl
        exact ⟨[], rest, .here rest hfirst⟩
      · rintro ⟨before, after, h⟩
        cases before with
        | nil => exact List.head_eq_of_cons_eq h.split
        | cons k before =>
          obtain rfl := List.head_eq_of_cons_eq h.split
          exact absurd hfirst (h.fresh _ List.mem_cons_self)
    · rw [repeatedKey?, if_neg hfirst, ih]
      constructor
      · rintro ⟨before, after, h⟩
        exact ⟨first :: before, after, (Repeats.cons_iff hfirst).mpr h⟩
      · rintro ⟨before, after, h⟩
        cases before with
        | nil =>
          obtain rfl := List.head_eq_of_cons_eq h.split
          rcases h.known with hseen | hnil
          · exact absurd hseen hfirst
          · cases hnil
        | cons k before =>
          obtain rfl := List.head_eq_of_cons_eq h.split
          exact ⟨before, after, (Repeats.cons_iff hfirst).mp h⟩

/-! ### Places of the repetition -/

/-- The first place at which a key stands that has stood at an earlier place. -/
structure RepeatedAt (keys : List String) (key : String) (i j : Nat) : Prop where
  order : i < j
  earlier : keys[i]? = some key
  later : keys[j]? = some key
  distinct : (keys.take j).Nodup

theorem exists_repeats_iff {keys : List String} {key : String} :
    (∃ before after, Repeats [] keys key before after) ↔ ∃ i j, RepeatedAt keys key i j := by
  constructor
  · rintro ⟨before, after, rfl, hdistinct, -, hknown⟩
    have hmem : key ∈ before := hknown.resolve_left List.not_mem_nil
    obtain ⟨i, hi, hkey⟩ := List.mem_iff_getElem.mp hmem
    refine ⟨i, before.length, hi, ?_, ?_, ?_⟩
    · rw [List.getElem?_append_left hi, List.getElem?_eq_getElem hi, hkey]
    · rw [List.getElem?_append_right (Nat.le_refl _), Nat.sub_self, List.getElem?_cons_zero]
    · rw [List.take_left']
      · exact hdistinct
      · rfl
  · rintro ⟨i, j, h⟩
    obtain ⟨hj, hkey⟩ := List.getElem?_eq_some_iff.mp h.later
    refine ⟨keys.take j, keys.drop (j + 1), ?_, h.distinct, fun _ _ => List.not_mem_nil, .inr ?_⟩
    · rw [← hkey, List.getElem_cons_drop, List.take_append_drop]
    · refine List.mem_of_getElem? (i := i) ?_
      rw [List.getElem?_take_of_lt h.order, h.earlier]

theorem duplicateKey?_eq_none_iff {actions : List Action} :
    duplicateKey? actions = none ↔ (actions.map Action.key).Nodup := by
  simp [duplicateKey?, repeatedKey?_eq_none_iff]

theorem duplicateKey?_eq_some_iff {actions : List Action} {key : String} :
    duplicateKey? actions = some key ↔ ∃ i j, RepeatedAt (actions.map Action.key) key i j := by
  rw [duplicateKey?, repeatedKey?_eq_some_iff, exists_repeats_iff]

/-- There is a duplicate key unless all keys are different.  It is the key that stands at two places
before the later of which no key is repeated, whatever the actions are apart from their keys. -/
theorem duplicateKey?_first_repetition :
    (∀ actions, duplicateKey? actions = none ↔ (actions.map Action.key).Nodup) ∧
    (∀ actions key, duplicateKey? actions = some key ↔
      ∃ i j, RepeatedAt (actions.map Action.key) key i j) ∧
    ∀ actions others : List Action, actions.map Action.key = others.map Action.key →
      duplicateKey? actions = duplicateKey? others := by
  refine ⟨fun _ => duplicateKey?_eq_none_iff, fun _ _ => duplicateKey?_eq_some_iff, ?_⟩
  intro actions others hkeys
  rw [duplicateKey?, duplicateKey?, hkeys]

/-- Empty groups under four keys: the outer key comes first, the inner one is repeated first. -/
def bracketed (parallel : Bool) : List Action :=
  ["outer", "inner", "inner", "outer"].map fun key =>
    ⟨{ name := "", key := key }, .group parallel [], []⟩

theorem duplicateKey?_first_repetition_bracketed :
    (∃ i j, RepeatedAt ((bracketed false).map Action.key) "inner" i j) ∧
      duplicateKey? (bracketed false) = some "inner" ∧
      (bracketed false).map Action.key = (bracketed true).map Action.key ∧
      duplicateKey? (bracketed false) = duplicateKey? (bracketed true) := by
  obtain ⟨-, hsome, hkeys⟩ := duplicateKey?_first_repetition
  have hplaces : ∃ i j, RepeatedAt ((bracketed false).map Action.key) "inner" i j :=
    ⟨1, 2, by decide, rfl, rfl, by decide⟩
  exact ⟨hplaces, (hsome _ _).mpr hplaces, rfl, hkeys _ _ rfl⟩

end ActionFlow
