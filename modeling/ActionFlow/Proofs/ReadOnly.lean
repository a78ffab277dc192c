import ActionFlow.Proofs.Calm
import ActionFlow.Proofs.Tree
import Mathlib.Data.List.Perm.Subperm

/-!
# Read-only automations

What an action writes outside its run, it writes through a handler.  An automation is read-only
exactly if the handlers of all its external actions are, wherever these stand: at the top, in a
group, in an iteration or among the error actions of any action.  Removing actions and putting them
in another order brings no handler in, and so leaves a read-only automation read-only.
-/
namespace ActionFlow

/-- The actions anywhere in an automation. -/
inductive Automation.Occurs (automation : Automation) : Action → Prop
  | top {a : Action} (member : a ∈ automation.actions) : Occurs automation a
  | child {a b : Action} {parallel : Bool} {actions : List Action} (within : Occurs automation a)
      (group : a.kind = .group parallel actions) (member : b ∈ actions) : Occurs automation b
  | nested {a b : Action} {loop : Loop} {actions : List Action} (within : Occurs automation a)
      (iterate : a.kind = .iterate loop actions) (member : b ∈ actions) : Occurs automation b
  | recovery {a b : Action} (within : Occurs automation a) (member : b ∈ a.errorActions) :
      Occurs automation b

/-- Some of the actions are removed, at any depth, and what is left may stand in another order.  A
change inside one action leaves the actions before and after it alone. -/
inductive Action.Reduces : List Action → List Action → Prop
  | siblings {actions left : List Action} (h : left.Subperm actions) : Reduces actions left
  | group (before : List Action) {after actions left errorActions : List Action} {head : Head}
      {parallel : Bool} (h : Reduces actions left) :
      Reduces (before ++ ⟨head, .group parallel actions, errorActions⟩ :: after)
        (before ++ ⟨head, .group parallel left, errorActions⟩ :: after)
  | iterate (before : List Action) {after actions left errorActions : List Action} {head : Head}
      {loop : Loop} (h : Reduces actions left) :
      Reduces (before ++ ⟨head, .iterate loop actions, errorActions⟩ :: after)
        (before ++ ⟨head, .iterate loop left, errorActions⟩ :: after)
  | recovery (before : List Action) {after errorActions left : List Action} {head : Head}
      {kind : Kind Action} (h : Reduces errorActions left) :
      Reduces (before ++ ⟨head, kind, errorActions⟩ :: after)
        (before ++ ⟨head, kind, left⟩ :: after)
  | trans {actions between left : List Action} (first : Reduces actions between)
      (second : Reduces between left) : Reduces actions left

theorem Kind.mem_handler?_iff {α : Type} {kind : Kind α} {handler : Handler} :
    handler ∈ kind.handler? ↔ kind = .simple (.external handler) := by
  rcases kind with _ | _ | (_ | _ | _) <;> simp [Kind.handler?]

namespace Action

variable {actions before after left : List Action} {handler : Handler}

/-! ### Actions and what is inside them -/

theorem allReadOnly_iff : allReadOnly actions = true ↔ ∀ a ∈ actions, a.isReadOnly = true := by
  induction actions with
  | nil => simp [allReadOnly]
  | cons a rest ih => rw [allReadOnly, Bool.and_eq_true, ih, List.forall_mem_cons]

theorem kindIsReadOnly_iff {kind : Kind Action} :
    kindIsReadOnly kind = true ↔
      (∀ handler ∈ kind.handler?, handler.readOnly = true) ∧
        ∀ b ∈ kind.actions, b.isReadOnly = true := by
  rcases kind with _ | _ | (_ | _ | _) <;>
    simp [kindIsReadOnly, Kind.handler?, Kind.actions, Logic.isReadOnly, allReadOnly_iff]

theorem isReadOnly_iff {a : Action} :
    a.isReadOnly = true ↔
      ((∀ handler ∈ a.kind.handler?, handler.readOnly = true) ∧
        ∀ b ∈ a.kind.actions, b.isReadOnly = true) ∧
      ∀ b ∈ a.errorActions, b.isReadOnly = true := by
  obtain ⟨head, kind, errorActions⟩ := a
  rw [isReadOnly, Bool.and_eq_true, kindIsReadOnly_iff, allReadOnly_iff]

theorem isReadOnly_iff_tree (a : Action) :
    a.isReadOnly = true ↔ ∀ b ∈ a.tree, ∀ handler ∈ b.kind.handler?, handler.readOnly = true := by
  induction a using Action.induction with
  | node a inside recovery =>
    rw [isReadOnly_iff, tree_eq, List.forall_mem_cons, List.forall_mem_append,
      forall_mem_forest inside, forall_mem_forest recovery, and_assoc]

/-! ### Handlers -/

/-- The handlers of the external actions among the actions and inside them. -/
def handlers (actions : List Action) : List Handler :=
  (forest actions).filterMap fun b => b.kind.handler?

theorem mem_handlers :
    handler ∈ handlers actions ↔ ∃ b ∈ forest actions, handler ∈ b.kind.handler? :=
  List.mem_filterMap

theorem allReadOnly_iff_handlers :
    allReadOnly actions = true ↔ ∀ handler ∈ handlers actions, handler.readOnly = true := by
  rw [allReadOnly_iff, forall_mem_forest fun a _ => isReadOnly_iff_tree a]
  constructor
  · intro h handler hhandler
    obtain ⟨b, hb, hcalled⟩ := mem_handlers.mp hhandler
    exact h b hb handler hcalled
  · intro h b hb handler hcalled
    exact h handler (mem_handlers.mpr ⟨b, hb, hcalled⟩)

theorem handlers_append (before after : List Action) :
    handlers (before ++ after) = handlers before ++ handlers after := by
  have hforest : forest (before ++ after) = forest before ++ forest after := by
    induction before with
    | nil => rw [forest_nil, List.nil_append, List.nil_append]
    | cons a rest ih => rw [List.cons_append, forest_cons, ih, forest_cons, List.append_assoc]
  rw [handlers, hforest, List.filterMap_append, handlers, handlers]

theorem handlers_cons (a : Action) (rest : List Action) :
    handlers (a :: rest) =
      a.kind.handler?.toList ++
        (handlers a.kind.actions ++ (handlers a.errorActions ++ handlers rest)) := by
  rw [handlers, forest_cons, tree_eq, List.cons_append, List.filterMap_cons]
  cases a.kind.handler? <;> simp [handlers]

/-- An action in the place of another brings no handler in if nothing inside it does. -/
theorem handlers_replace {a b : Action} (own : b.kind.handler? = a.kind.handler?)
    (inside : handlers b.kind.actions ⊆ handlers a.kind.actions)
    (recovery : handlers b.errorActions ⊆ handlers a.errorActions) :
    handlers (before ++ b :: after) ⊆ handlers (before ++ a :: after) := by
  rw [handlers_append, handlers_append, handlers_cons, handlers_cons, own]
  intro handler h
  simp only [List.mem_append] at h ⊢
  exact h.imp_right (.imp_right (.imp (@inside _) (.imp_left (@recovery _))))

theorem Reduces.handlers_subset (h : Reduces actions left) : handlers left ⊆ handlers actions := by
  induction h with
  | siblings h =>
    intro handler hhandler
    obtain ⟨b, hb, hcalled⟩ := mem_handlers.mp hhandler
    obtain ⟨a, ha, hba⟩ := mem_forest.mp hb
    exact mem_handlers.mpr ⟨b, mem_forest.mpr ⟨a, h.subset ha, hba⟩, hcalled⟩
  | group _ _ ih => exact handlers_replace rfl ih (List.Subset.refl _)
  | iterate _ _ ih => exact handlers_replace rfl ih (List.Subset.refl _)
  | recovery _ _ ih => exact handlers_replace rfl (List.Subset.refl _) ih
  | trans _ _ ihfirst ihsecond => exact List.Subset.trans ihsecond ihfirst

end Action

namespace Automation

open ActionFlow.Action

variable {a : Automation}

/-! ### Whole automations -/

theorem Occurs.inside {b d : Action} (hb : a.Occurs b) (hd : d ∈ b.kind.actions) : a.Occurs d := by
  cases hkind : b.kind with
  | group parallel actions =>
    rw [hkind] at hd
    exact .child hb hkind hd
  | iterate loop actions =>
    rw [hkind] at hd
    exact .nested hb hkind hd
  | simple logic =>
    rw [hkind] at hd
    cases hd

theorem Occurs.tree {b : Action} : a.Occurs b → ∀ d ∈ b.tree, a.Occurs d := by
  induction b using Action.induction with
  | node b inside recovery =>
    -- That an action occurs is what the induction hands down to the actions right below it.
    intro hb d hd
    rw [tree_eq, List.mem_cons, List.mem_append] at hd
    rcases hd with rfl | hd | hd
    · exact hb
    · obtain ⟨e, he, hde⟩ := mem_forest.mp hd
      exact inside e he (hb.inside he) d hde
    · obtain ⟨e, he, hde⟩ := mem_forest.mp hd
      exact recovery e he (.recovery hb he) d hde

theorem occurs_iff_mem_forest {b : Action} : a.Occurs b ↔ b ∈ forest a.actions := by
  constructor
  · intro h
    induction h with
    | top member => exact forest_of_mem member _ (self_mem_tree _)
    | child _ group member ih =>
      refine mem_forest_of_inside ih ?_
      rw [group]
      exact member
    | nested _ iterate member ih =>
      refine mem_forest_of_inside ih ?_
      rw [iterate]
      exact member
    | recovery _ member ih => exact mem_forest_of_recovery ih member
  · intro h
    obtain ⟨top, htop, hb⟩ := mem_forest.mp h
    exact (Occurs.top htop).tree b hb

theorem mem_handlers_iff_occurs {handler : Handler} :
    handler ∈ handlers a.actions ↔ ∃ b, a.Occurs b ∧ b.kind = .simple (.external handler) := by
  simp only [mem_handlers, occurs_iff_mem_forest, Kind.mem_handler?_iff]

/-- An automation is read-only exactly if all external actions in it have read-only handlers, and
it is still read-only when actions are removed or put in another order. -/
theorem isReadOnly_by_handlers :
    (∀ a : Automation, a.isReadOnly = true ↔
      ∀ b handler, a.Occurs b → b.kind = .simple (.external handler) →
        handler.readOnly = true) ∧
    ∀ a reduced : Automation, Reduces a.actions reduced.actions →
      a.isReadOnly = true → reduced.isReadOnly = true := by
  constructor
  · intro a
    rw [isReadOnly, allReadOnly_iff_handlers]
    constructor
    · intro h b handler hoccurs hkind
      exact h handler (mem_handlers_iff_occurs.mpr ⟨b, hoccurs, hkind⟩)
    · intro h handler hhandler
      obtain ⟨b, hoccurs, hkind⟩ := mem_handlers_iff_occurs.mp hhandler
      exact h b handler hoccurs hkind
  · intro a reduced hreduces h
    rw [isReadOnly, allReadOnly_iff_handlers] at h ⊢
    exact fun handler hhandler => h handler (hreduces.handlers_subset hhandler)

end Automation

/-! ### A handler among error actions -/

def Handler.writing : Handler := { Handler.idle with readOnly := false }

/-- Calls the handler when it has to undo something. -/
def Action.undo (handler : Handler) : Action where
  head := { name := "undo", key := "undo" }
  kind := .simple (.external handler)
  errorActions := []

def Action.steps (actions errorActions : List Action) : Action where
  head := { name := "steps", key := "steps" }
  kind := .group true actions
  errorActions := errorActions

namespace Automation

open ActionFlow.Action

/-- The handler stands among the error actions of an action in a group. -/
def recovering (handler : Handler) : Automation where
  name := "recovering"
  actions :=
    [.steps [.assigning "set" "total" none .null [.undo handler], .idle "call"] [.idle "notify"],
      .idle "last"]

/-- The same actions in another order, one of them left out. -/
def rearranged (handler : Handler) : Automation where
  name := "rearranged"
  actions :=
    [.idle "last",
      .steps [.idle "call", .assigning "set" "total" none .null [.undo handler]] []]

theorem reduces_rearranged (handler : Handler) :
    Reduces (recovering handler).actions (rearranged handler).actions := by
  refine .trans (.siblings (List.Perm.swap _ _ _).subperm) ?_
  refine .trans (.group [.idle "last"] (.siblings (List.Perm.swap _ _ _).subperm)) ?_
  exact .recovery [.idle "last"] (.siblings List.nil_subperm)

theorem isReadOnly_by_handlers_recovering :
    Reduces (recovering .idle).actions (rearranged .idle).actions ∧
      (recovering .idle).isReadOnly = true ∧ (rearranged .idle).isReadOnly = true ∧
      (recovering .writing).Occurs (.undo .writing) ∧
      (recovering .writing).isReadOnly = false := by
  obtain ⟨hhandlers, hreduced⟩ := isReadOnly_by_handlers
  have hreduces := reduces_rearranged .idle
  have hundo : (recovering .writing).Occurs (.undo .writing) :=
    .recovery (.child (.top List.mem_cons_self) rfl List.mem_cons_self) List.mem_cons_self
  refine ⟨hreduces, rfl, hreduced _ _ hreduces rfl, hundo, ?_⟩
  rw [Bool.eq_false_iff]
  intro h
  cases (hhandlers (recovering .writing)).mp h (.undo .writing) .writing hundo rfl

end Automation

end ActionFlow
