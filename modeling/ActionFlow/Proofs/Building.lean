import ActionFlow.Definition.Build
import ActionFlow.Proofs.RepeatedKeys
import ActionFlow.Proofs.Tree
import Mathlib.Data.List.Forall2

/-!
# What building gives

`Built` says what an action that was built has of its definition, with the actions inside related to
theirs by any relation.  A relation that holds of an action as soon as it holds inside holds of
everything that is built, at every depth.
-/
namespace ActionFlow

/-- An action of which no more is written than it needs. -/
def ActionDefinition.minimal (type key : String) (settings : List (String × Json)) :
    ActionDefinition where
  type := type
  name := ""
  key := key
  description := none
  asynchronous := false
  runCondition := none
  before := []
  after := []
  errorActions := []
  settings := settings

namespace Registry

theorem distinct_eq_ok_iff {actions built : List Action} :
    distinct actions = .ok built ↔ built = actions ∧ (actions.map Action.key).Nodup := by
  rw [← duplicateKey?_eq_none_iff, distinct]
  cases duplicateKey? actions with
  | none => simp [eq_comm]
  | some key => simp

theorem checkKey_eq_ok_iff {d : ActionDefinition} :
    checkKey d = .ok () ↔ Text.isBlankText d.key = false := by
  unfold checkKey
  cases Text.isBlankText d.key <;> simp

def Builds (r : Registry) (d : ActionDefinition) (a : Action) : Prop := r.build d = .ok a

variable {r : Registry} {P Q : ActionDefinition → Action → Prop} {d : ActionDefinition}

/-! ### What is built of one definition -/

/-- What every action takes from its definition. -/
structure BuiltHead (d : ActionDefinition) (head : Head) : Prop where
  name : head.name = d.displayName
  key : head.key = d.key
  description : head.description = d.description
  asynchronous : head.asynchronous = d.asynchronous
  runCondition : optionally d.runCondition Condition.ofJson = .ok head.runCondition
  before : errorConditions d.before = .ok head.before
  after : errorConditions d.after = .ok head.after

/-- Actions that are built from definitions written side by side. -/
structure BuiltScope (P : ActionDefinition → Action → Prop) (definitions : List ActionDefinition)
    (actions : List Action) : Prop where
  each : List.Forall₂ P definitions actions
  distinct : (actions.map Action.key).Nodup

/-- What the factory of its type makes of a definition. -/
inductive BuiltKind (r : Registry) (P : ActionDefinition → Action → Prop) (d : ActionDefinition) :
    Kind Action → Prop
  | group {children : List ActionDefinition} {actions : List Action} {parallel : Bool}
      (factory : Entries.find? r.factories d.type = some .group)
      (written : d.childActions "actions" = .ok children) (inside : BuiltScope P children actions)
      (flag : d.flag "parallel" = .ok parallel) : BuiltKind r P d (.group parallel actions)
  | iterate {children : List ActionDefinition} {actions : List Action} {l : Loop}
      (factory : Entries.find? r.factories d.type = some .iterate)
      (written : d.childActions "actions" = .ok children) (inside : BuiltScope P children actions)
      (loop : Registry.loop d = .ok l) : BuiltKind r P d (.iterate l actions)
  | raiseError {p : FaultProvider} (factory : Entries.find? r.factories d.type = some .raiseError)
      (made : raising d = .ok (.raiseError p)) : BuiltKind r P d (.simple (.raiseError p))
  | setVariable {property : Provider} {path : Option Provider} {value : Provider}
      (factory : Entries.find? r.factories d.type = some .setVariable)
      (made : assigning d = .ok (.setVariable property path value)) :
      BuiltKind r P d (.simple (.setVariable property path value))
  | custom {make : ActionDefinition → Except DefinitionError Logic} {logic : Logic}
      (factory : Entries.find? r.factories d.type = some (.custom make))
      (made : make d = .ok logic) : BuiltKind r P d (.simple logic)

structure Built (r : Registry) (P : ActionDefinition → Action → Prop) (d : ActionDefinition)
    (a : Action) : Prop where
  notBlank : Text.isBlankText d.key = false
  head : BuiltHead d a.head
  kind : BuiltKind r P d a.kind
  recovery : BuiltScope P d.errorActions a.errorActions

theorem not_custom (type : String) (make : ActionDefinition → Except DefinitionError Logic) :
    Entries.find? builtIn.factories type ≠ some (.custom make) := by
  intro h
  have hmem := Entries.mem_of_find? h
  simp [builtIn] at hmem

theorem BuiltScope.exists_of_definition {definitions : List ActionDefinition}
    {actions : List Action} (h : BuiltScope P definitions actions) (hd : d ∈ definitions) :
    ∃ a, P d a := by
  obtain ⟨each, -⟩ := h
  induction each with
  | nil => cases hd
  | cons hp _ ih =>
    rcases List.mem_cons.mp hd with rfl | hd
    · exact ⟨_, hp⟩
    · exact ih hd

theorem BuiltScope.exists_of_action {definitions : List ActionDefinition} {actions : List Action}
    (h : BuiltScope P definitions actions) {a : Action} (ha : a ∈ actions) : ∃ d, P d a := by
  obtain ⟨each, -⟩ := h
  induction each with
  | nil => cases ha
  | cons hp _ ih =>
    rcases List.mem_cons.mp ha with rfl | ha
    · exact ⟨_, hp⟩
    · exact ih ha

theorem BuiltKind.exists_of_action {kind : Kind Action} (h : BuiltKind r P d kind) {a : Action}
    (ha : a ∈ kind.actions) : ∃ d, P d a := by
  cases h with
  | group factory written inside flag => exact inside.exists_of_action ha
  | iterate factory written inside loop => exact inside.exists_of_action ha
  | raiseError factory made | setVariable factory made | custom factory made => cases ha

theorem buildItems_eq_ok_iff {definitions : List ActionDefinition} {actions : List Action} :
    r.buildItems definitions = .ok actions ↔ List.Forall₂ r.Builds definitions actions := by
  induction definitions generalizing actions with
  | nil =>
    rw [buildItems, List.forall₂_nil_left_iff]
    simp [eq_comm]
  | cons d rest ih =>
    rw [buildItems, List.forall₂_cons_left_iff]
    simp only [bind_eq_ok_iff, Except.ok.injEq, ih]
    constructor
    · rintro ⟨a, ha, others, hothers, rfl⟩
      exact ⟨a, others, ha, hothers, rfl⟩
    · rintro ⟨a, others, ha, hothers, rfl⟩
      exact ⟨a, ha, others, hothers, rfl⟩

/-- Siblings are built one by one and then compared. -/
theorem scope_bind_eq_ok_iff {α : Type} {definitions : List ActionDefinition}
    {next : List Action → Except DefinitionError α} {result : α} :
    (do
      let actions ← r.buildItems definitions
      let actions ← distinct actions
      next actions) = .ok result ↔
      ∃ actions, BuiltScope r.Builds definitions actions ∧ next actions = .ok result := by
  simp only [bind_eq_ok_iff, distinct_eq_ok_iff, buildItems_eq_ok_iff]
  constructor
  · rintro ⟨actions, each, _, ⟨rfl, distinct⟩, hnext⟩
    exact ⟨_, ⟨each, distinct⟩, hnext⟩
  · rintro ⟨actions, ⟨each, distinct⟩, hnext⟩
    exact ⟨actions, each, actions, ⟨rfl, distinct⟩, hnext⟩

theorem raising_form {logic : Logic} (h : raising d = .ok logic) :
    ∃ p, logic = .raiseError p := by
  simp only [raising, bind_eq_ok_iff, Except.ok.injEq] at h
  obtain ⟨_, _, p, _, rfl⟩ := h
  exact ⟨p, rfl⟩

theorem assigning_form {logic : Logic} (h : assigning d = .ok logic) :
    ∃ property path value, logic = .setVariable property path value := by
  simp only [assigning, bind_eq_ok_iff, Except.ok.injEq] at h
  obtain ⟨_, _, _, _, value, _, property, _, path, _, rfl⟩ := h
  exact ⟨property, path, _, rfl⟩

theorem buildKind_group {children : List ActionDefinition}
    (factory : Entries.find? r.factories d.type = some .group)
    (written : d.childActions "actions" = .ok children) :
    r.buildKind d = (do
      let actions ← r.buildItems children
      let actions ← distinct actions
      let parallel ← d.flag "parallel"
      .ok (.group parallel actions)) := by
  rw [buildKind, factory]
  dsimp only
  split
  · next e he => simp [written] at he
  · next built he =>
    have heq : built = children := Except.ok.inj (he.symm.trans written)
    rw [heq]

theorem buildKind_iterate {children : List ActionDefinition}
    (factory : Entries.find? r.factories d.type = some .iterate)
    (written : d.childActions "actions" = .ok children) :
    r.buildKind d = (do
      let actions ← r.buildItems children
      let actions ← distinct actions
      let l ← loop d
      .ok (.iterate l actions)) := by
  rw [buildKind, factory]
  dsimp only
  split
  · next e he => simp [written] at he
  · next built he =>
    have heq : built = children := Except.ok.inj (he.symm.trans written)
    rw [heq]

theorem buildKind_eq_ok_iff {kind : Kind Action} :
    r.buildKind d = .ok kind ↔ BuiltKind r r.Builds d kind := by
  constructor
  · intro h
    have hkind := h
    unfold buildKind at h
    split at h
    case h_1 => cases h
    case h_2 factory =>
      split at h
      · cases h
      · next children written =>
        rw [buildKind_group factory written, scope_bind_eq_ok_iff] at hkind
        obtain ⟨actions, inside, hnext⟩ := hkind
        obtain ⟨parallel, hflag, he⟩ := bind_eq_ok_iff.mp hnext
        cases he
        exact .group factory written inside hflag
    case h_3 factory =>
      split at h
      · cases h
      · next children written =>
        rw [buildKind_iterate factory written, scope_bind_eq_ok_iff] at hkind
        obtain ⟨actions, inside, hnext⟩ := hkind
        obtain ⟨l, hloop, he⟩ := bind_eq_ok_iff.mp hnext
        cases he
        exact .iterate factory written inside hloop
    case h_4 factory =>
      obtain ⟨logic, hmade, rfl⟩ := map_eq_ok_iff.mp h
      obtain ⟨p, rfl⟩ := raising_form hmade
      exact .raiseError factory hmade
    case h_5 factory =>
      obtain ⟨logic, hmade, rfl⟩ := map_eq_ok_iff.mp h
      obtain ⟨property, path, value, rfl⟩ := assigning_form hmade
      exact .setVariable factory hmade
    case h_6 make factory =>
      obtain ⟨logic, hmade, rfl⟩ := map_eq_ok_iff.mp h
      exact .custom factory hmade
  · intro h
    cases h with
    | group factory written inside flag =>
      rw [buildKind_group factory written, scope_bind_eq_ok_iff]
      exact ⟨_, inside, bind_eq_ok_iff.mpr ⟨_, flag, rfl⟩⟩
    | iterate factory written inside loop =>
      rw [buildKind_iterate factory written, scope_bind_eq_ok_iff]
      exact ⟨_, inside, bind_eq_ok_iff.mpr ⟨_, loop, rfl⟩⟩
    | raiseError factory made | setVariable factory made | custom factory made =>
      rw [buildKind, factory]
      exact map_eq_ok_iff.mpr ⟨_, made, rfl⟩

/-- An action is built exactly if all its parts are. -/
theorem builds_iff {a : Action} : r.Builds d a ↔ Built r r.Builds d a := by
  rw [Builds, build]
  simp only [bind_eq_ok_iff, distinct_eq_ok_iff, buildItems_eq_ok_iff, buildKind_eq_ok_iff]
  constructor
  · rintro ⟨⟨⟩, hkey, kind, hkind, runCondition, hrun, before, hbefore, after, hafter,
      errorActions, each, _, ⟨rfl, distinct⟩, he⟩
    cases he
    have head : BuiltHead d ⟨d.displayName, d.key, d.description, d.asynchronous, runCondition,
      before, after⟩ := ⟨rfl, rfl, rfl, rfl, hrun, hbefore, hafter⟩
    exact ⟨checkKey_eq_ok_iff.mp hkey, head, hkind, ⟨each, distinct⟩⟩
  · obtain ⟨h, kind, errorActions⟩ := a
    rintro ⟨notBlank, head, hkind, each, distinct⟩
    refine ⟨(), checkKey_eq_ok_iff.mpr notBlank, kind, hkind, _, head.runCondition, _, head.before,
      _, head.after, errorActions, each, _, ⟨rfl, distinct⟩, ?_⟩
    rw [← head.name, ← head.key, ← head.description, ← head.asynchronous]

theorem buildAutomation_eq_ok_iff {definition : Definition} {a : Automation} :
    r.buildAutomation definition = .ok a ↔
      a.name = definition.name ∧ BuiltScope r.Builds definition.actions a.actions := by
  simp only [buildAutomation, buildSiblings, bind_assoc, scope_bind_eq_ok_iff]
  constructor
  · rintro ⟨actions, hactions, ⟨⟩⟩
    exact ⟨rfl, hactions⟩
  · rintro ⟨hname, hactions⟩
    refine ⟨a.actions, hactions, ?_⟩
    rw [← hname]

/-! ### Every depth -/

theorem BuiltScope.imp {definitions : List ActionDefinition} {actions : List Action}
    (h : BuiltScope P definitions actions) (himp : ∀ d ∈ definitions, ∀ a, P d a → Q d a) :
    BuiltScope Q definitions actions := by
  obtain ⟨each, distinct⟩ := h
  refine ⟨?_, distinct⟩
  clear distinct
  induction each with
  | nil => exact .nil
  | @cons d a definitions actions hd _ ih =>
    apply List.Forall₂.cons (himp d List.mem_cons_self a hd)
    exact ih fun b hb => himp b (List.mem_cons_of_mem _ hb)

theorem BuiltKind.imp {kind : Kind Action} (h : BuiltKind r P d kind)
    (himp : ∀ children, d.childActions "actions" = .ok children →
      ∀ b ∈ children, ∀ a, P b a → Q b a) : BuiltKind r Q d kind := by
  cases h with
  | group factory written inside flag =>
    exact .group factory written (inside.imp (himp _ written)) flag
  | iterate factory written inside loop =>
    exact .iterate factory written (inside.imp (himp _ written)) loop
  | raiseError factory made => exact .raiseError factory made
  | setVariable factory made => exact .setVariable factory made
  | custom factory made => exact .custom factory made

theorem size_le_sizeItems {definitions : List ActionDefinition} (h : d ∈ definitions) :
    d.size ≤ ActionDefinition.sizeItems definitions := by
  induction definitions with
  | nil => cases h
  | cons b rest ih =>
    rw [ActionDefinition.sizeItems]
    rcases List.mem_cons.mp h with rfl | h
    · omega
    · have := ih h
      omega

/-- A relation that holds of an action as soon as it holds of what is right inside it holds of every
action that is built. -/
theorem build_induction (node : ∀ d a, Built r P d a → P d a) {a : Action} (h : r.Builds d a) :
    P d a := by
  -- The definitions written in a setting are not part of `d`, so the induction is on the size.
  induction hn : d.size using Nat.strongRecOn generalizing d a with
  | ind n ih =>
    subst hn
    obtain ⟨notBlank, head, kind, recovery⟩ := builds_iff.mp h
    apply node d a
    refine ⟨notBlank, head, ?_, ?_⟩
    · apply kind.imp
      intro children written b hb other hother
      have hlt := ActionDefinition.sizeItems_childActions_lt written
      have hle := size_le_sizeItems hb
      exact ih b.size (by omega) hother rfl
    · apply recovery.imp
      intro b hb other hother
      have hle := size_le_sizeItems hb
      have hsize := d.size_eq
      exact ih b.size (by omega) hother rfl

/-- Whatever is inside an action that is built is built from some definition. -/
theorem Builds.exists_of_mem_tree {a : Action} (h : r.Builds d a) :
    ∀ b ∈ a.tree, ∃ d, r.Builds d b := by
  induction a using Action.induction generalizing d with
  | node a inside recovery =>
    have built := builds_iff.mp h
    intro b hb
    rw [Action.tree_eq, List.mem_cons, List.mem_append] at hb
    rcases hb with rfl | hb | hb
    · exact ⟨d, h⟩
    · obtain ⟨c, hc, hb⟩ := Action.mem_forest.mp hb
      obtain ⟨e, he⟩ := built.kind.exists_of_action hc
      exact inside c hc he b hb
    · obtain ⟨c, hc, hb⟩ := Action.mem_forest.mp hb
      obtain ⟨e, he⟩ := built.recovery.exists_of_action hc
      exact recovery c hc he b hb

theorem exists_builds_of_mem_forest {definition : Definition} {a : Automation}
    (h : r.buildAutomation definition = .ok a) :
    ∀ b ∈ Action.forest a.actions, ∃ d, r.Builds d b := by
  intro b hb
  obtain ⟨c, hc, hb⟩ := Action.mem_forest.mp hb
  obtain ⟨d, hd⟩ := (buildAutomation_eq_ok_iff.mp h).2.exists_of_action hc
  exact hd.exists_of_mem_tree b hb

end Registry

end ActionFlow
