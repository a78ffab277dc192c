import ActionFlow.Action.Run

/-!
# Trees of actions and of records

An automation is a list of trees of actions, and what it leaves is a list of trees of records.  A
tree is flattened in the order of execution: the node, what its kind runs, its error actions.  What
is said "at every depth" is said of every member of such a list.
-/
namespace ActionFlow

def Kind.actions {α : Type} : Kind α → List α
  | group _ actions => actions
  | iterate _ actions => actions
  | simple _ => []

def Kind.handler? {α : Type} : Kind α → Option Handler
  | simple (.external handler) => some handler
  | _ => none

/-- The tables of nested records in what a record holds for its kind: the children of a group, or
the actions of each iteration. -/
def Detail.tables {ρ : Type} : Detail ρ → List (Entries ρ)
  | group _ children => [children]
  | iterate _ iterations => iterations.map Iteration.actions
  | raiseError | setVariable _ | external _ => []

namespace Action

mutual
/-- An action and all actions inside it. -/
def tree (a : Action) : List Action :=
  match a with
  | ⟨head, kind, errorActions⟩ =>
    ⟨head, kind, errorActions⟩ :: (kindForest kind ++ forest errorActions)

def kindForest (kind : Kind Action) : List Action :=
  match kind with
  | .group _ actions => forest actions
  | .iterate _ actions => forest actions
  | .simple _ => []

def forest (actions : List Action) : List Action :=
  match actions with
  | [] => []
  | a :: rest => tree a ++ forest rest
end

@[simp] theorem forest_nil : forest [] = [] := by simp [forest]

@[simp] theorem forest_cons (a : Action) (rest : List Action) :
    forest (a :: rest) = tree a ++ forest rest := by simp [forest]

theorem kindForest_eq (kind : Kind Action) : kindForest kind = forest kind.actions := by
  cases kind <;> simp [kindForest, Kind.actions]

theorem tree_eq (a : Action) : a.tree = a :: (forest a.kind.actions ++ forest a.errorActions) := by
  obtain ⟨head, kind, errorActions⟩ := a
  rw [tree, kindForest_eq]

theorem self_mem_tree (a : Action) : a ∈ a.tree := by
  rw [tree_eq]
  exact List.mem_cons_self

theorem mem_forest {b : Action} {actions : List Action} :
    b ∈ forest actions ↔ ∃ a ∈ actions, b ∈ a.tree := by
  induction actions with
  | nil => simp
  | cons a rest ih => simp [ih]

theorem forall_mem_forest {P Q : Action → Prop} {actions : List Action}
    (h : ∀ a ∈ actions, P a ↔ ∀ b ∈ a.tree, Q b) :
    (∀ a ∈ actions, P a) ↔ ∀ b ∈ forest actions, Q b := by
  constructor
  · intro hall b hb
    obtain ⟨a, ha, hba⟩ := mem_forest.mp hb
    exact (h a ha).mp (hall a ha) b hba
  · intro hall a ha
    exact (h a ha).mpr fun b hb => hall b (mem_forest.mpr ⟨a, ha, hb⟩)

theorem mem_tree_of_inside {a b : Action} (h : b ∈ forest a.kind.actions) : b ∈ a.tree := by
  rw [tree_eq]
  exact List.mem_cons_of_mem _ (List.mem_append_left _ h)

theorem mem_tree_of_recovery {a b : Action} (h : b ∈ forest a.errorActions) : b ∈ a.tree := by
  rw [tree_eq]
  exact List.mem_cons_of_mem _ (List.mem_append_right _ h)

theorem forest_of_mem {a : Action} {actions : List Action} (h : a ∈ actions) :
    ∀ b ∈ a.tree, b ∈ forest actions := fun _ hb => mem_forest.mpr ⟨a, h, hb⟩

theorem tree_of_inside {a b : Action} (h : b ∈ a.kind.actions) : ∀ d ∈ b.tree, d ∈ a.tree :=
  fun d hd => mem_tree_of_inside (forest_of_mem h d hd)

theorem tree_of_recovery {a b : Action} (h : b ∈ a.errorActions) : ∀ d ∈ b.tree, d ∈ a.tree :=
  fun d hd => mem_tree_of_recovery (forest_of_mem h d hd)

-- The recursion follows the type: an action, its kind, a list of actions.
mutual
theorem induction {P : Action → Prop}
    (node : ∀ a : Action, (∀ b ∈ a.kind.actions, P b) → (∀ b ∈ a.errorActions, P b) → P a)
    (a : Action) : P a :=
  match a with
  | ⟨head, kind, errorActions⟩ =>
    node ⟨head, kind, errorActions⟩ (kindInduction node kind) (listInduction node errorActions)

theorem kindInduction {P : Action → Prop}
    (node : ∀ a : Action, (∀ b ∈ a.kind.actions, P b) → (∀ b ∈ a.errorActions, P b) → P a)
    (kind : Kind Action) : ∀ b ∈ kind.actions, P b :=
  match kind with
  | .group _ actions => listInduction node actions
  | .iterate _ actions => listInduction node actions
  | .simple _ => List.forall_mem_nil P

theorem listInduction {P : Action → Prop}
    (node : ∀ a : Action, (∀ b ∈ a.kind.actions, P b) → (∀ b ∈ a.errorActions, P b) → P a)
    (actions : List Action) : ∀ b ∈ actions, P b :=
  match actions with
  | [] => List.forall_mem_nil P
  | a :: rest => List.forall_mem_cons.mpr ⟨induction node a, listInduction node rest⟩
end

/-- What holds of an action with a condition as soon as it holds of the actions right below it holds
of all actions, where the condition holds throughout. -/
theorem tree_induction {H P : Action → Prop}
    (node : ∀ a : Action, H a → (∀ b ∈ a.kind.actions, P b) → (∀ b ∈ a.errorActions, P b) → P a)
    (a : Action) : (∀ b ∈ a.tree, H b) → P a := by
  induction a using Action.induction with
  | node a inside recovery =>
    intro h
    refine node a (h a a.self_mem_tree) ?_ ?_
    · exact fun b hb => inside b hb fun d hd => h d (tree_of_inside hb d hd)
    · exact fun b hb => recovery b hb fun d hd => h d (tree_of_recovery hb d hd)

theorem forest_induction {H P : Action → Prop}
    (node : ∀ a : Action, H a → (∀ b ∈ a.kind.actions, P b) → (∀ b ∈ a.errorActions, P b) → P a)
    {actions : List Action} (h : ∀ b ∈ forest actions, H b) : ∀ a ∈ actions, P a :=
  fun a ha => tree_induction node a fun b hb => h b (forest_of_mem ha b hb)

theorem tree_sublist_forest {a : Action} {actions : List Action} (h : a ∈ actions) :
    List.Sublist a.tree (forest actions) := by
  induction actions with
  | nil => cases h
  | cons b rest ih =>
    rw [forest_cons]
    rcases List.mem_cons.mp h with rfl | h
    · exact List.sublist_append_left _ _
    · exact (ih h).trans (List.sublist_append_right _ _)

theorem tree_sublist (a : Action) : ∀ b ∈ a.tree, List.Sublist b.tree a.tree := by
  induction a using Action.induction with
  | node a inside recovery =>
    intro b hb
    rw [tree_eq, List.mem_cons, List.mem_append] at hb
    rcases hb with rfl | hb | hb
    · exact List.Sublist.refl _
    · obtain ⟨d, hd, hbd⟩ := mem_forest.mp hb
      have hsub := (inside d hd b hbd).trans (tree_sublist_forest hd)
      rw [tree_eq a]
      exact (hsub.trans (List.sublist_append_left _ _)).cons _
    · obtain ⟨d, hd, hbd⟩ := mem_forest.mp hb
      have hsub := (recovery d hd b hbd).trans (tree_sublist_forest hd)
      rw [tree_eq a]
      exact (hsub.trans (List.sublist_append_right _ _)).cons _

theorem forest_sublist {actions : List Action} {b : Action} (hb : b ∈ forest actions) :
    List.Sublist b.tree (forest actions) := by
  obtain ⟨a, ha, hba⟩ := mem_forest.mp hb
  exact (tree_sublist a b hba).trans (tree_sublist_forest ha)

theorem forest_subset {actions : List Action} {b : Action} (hb : b ∈ forest actions) :
    ∀ d ∈ b.tree, d ∈ forest actions := fun _ hd => (forest_sublist hb).subset hd

theorem mem_forest_of_inside {actions : List Action} {a b : Action} (ha : a ∈ forest actions)
    (hb : b ∈ a.kind.actions) : b ∈ forest actions :=
  forest_subset ha b (tree_of_inside hb b b.self_mem_tree)

theorem mem_forest_of_recovery {actions : List Action} {a b : Action} (ha : a ∈ forest actions)
    (hb : b ∈ a.errorActions) : b ∈ forest actions :=
  forest_subset ha b (tree_of_recovery hb b b.self_mem_tree)

def DistinctBelow (a : Action) : Prop :=
  (a.kind.actions.map key).Nodup ∧ (a.errorActions.map key).Nodup

instance (a : Action) : Decidable a.DistinctBelow := inferInstanceAs (Decidable (_ ∧ _))

end Action

/-- No two siblings anywhere in the automation have the same key. -/
def Automation.DistinctKeys (a : Automation) : Prop :=
  (a.actions.map Action.key).Nodup ∧ ∀ b ∈ Action.forest a.actions, b.DistinctBelow

instance (a : Automation) : Decidable a.DistinctKeys := inferInstanceAs (Decidable (_ ∧ _))

def Automation.HandlersKeep {α : Type} (view : Context → α) (a : Automation) : Prop :=
  ∀ b ∈ Action.forest a.actions, ∀ handler ∈ b.kind.handler?, ∀ c,
    view (handler.handle c).context = view c

namespace Record

mutual
/-- A record and all records inside it, in the order of execution. -/
def tree (r : Record) : List Record :=
  match r with
  | ⟨name, key, type, stage, startedAt, completedAt, fault, succeeded, errorActions, detail⟩ =>
    ⟨name, key, type, stage, startedAt, completedAt, fault, succeeded, errorActions, detail⟩ ::
      (detailForest detail ++ forest errorActions)

def detailForest (detail : Detail Record) : List Record :=
  match detail with
  | .group _ children => forest children
  | .iterate _ iterations => iterationForest iterations
  | .raiseError => []
  | .setVariable _ => []
  | .external _ => []

def forest (records : List (String × Record)) : List Record :=
  match records with
  | [] => []
  | (_, r) :: rest => tree r ++ forest rest

def iterationForest (iterations : List (Iteration Record)) : List Record :=
  match iterations with
  | [] => []
  | ⟨_, actions⟩ :: rest => forest actions ++ iterationForest rest
end

theorem tree_eq (r : Record) : r.tree = r :: (detailForest r.detail ++ forest r.errorActions) := by
  cases r
  rw [tree]

@[simp] theorem forest_nil : forest [] = [] := by simp [forest]

@[simp] theorem forest_cons (key : String) (r : Record) (rest : Entries Record) :
    forest ((key, r) :: rest) = tree r ++ forest rest := by simp [forest]

theorem iterationForest_append (xs ys : List (Iteration Record)) :
    iterationForest (xs ++ ys) = iterationForest xs ++ iterationForest ys := by
  induction xs with
  | nil => simp [iterationForest]
  | cons i rest ih => simp [iterationForest, ih]

theorem iterationForest_concat (iterations : List (Iteration Record)) (index : Nat)
    (records : Entries Record) :
    iterationForest (iterations ++ [⟨index, records⟩]) =
      iterationForest iterations ++ forest records := by
  rw [iterationForest_append, iterationForest, iterationForest, List.append_nil]

theorem detailForest_detail (kind : Kind Action) : detailForest kind.detail = [] := by
  rcases kind with _ | _ | (_ | _ | _) <;> simp [Kind.detail, detailForest, iterationForest]

end Record

end ActionFlow
