import ActionFlow.Outcome
import ActionFlow.Proofs.CalmProviders
import ActionFlow.Proofs.Handling

/-!
# Runs without panics

Only a provider that the surroundings supply can panic and be heard: what a handler does is caught.
An automation is calm if all its providers are; a run of a calm automation always has an outcome.
-/
namespace ActionFlow

/-! ### Actions -/

structure ErrorCondition.Calm (e : ErrorCondition) : Prop where
  condition : e.condition.Calm
  fault : e.fault.Calm

structure Head.Calm (head : Head) : Prop where
  runCondition : ∀ c ∈ head.runCondition, c.Calm
  before : ∀ e ∈ head.before, e.Calm
  after : ∀ e ∈ head.after, e.Calm

structure Loop.Calm (loop : Loop) : Prop where
  list : loop.list.Calm
  startIndex : ∀ p ∈ loop.startIndex, p.Calm
  endIndex : ∀ p ∈ loop.endIndex, p.Calm
  reverse : ∀ c ∈ loop.reverse, c.Calm
  doWhile : ∀ c ∈ loop.doWhile, c.Calm

def Logic.Calm : Logic → Prop
  | .raiseError p => p.Calm
  | .setVariable property path value => property.Calm ∧ (∀ p ∈ path, p.Calm) ∧ value.Calm
  | .external _ => True

def Kind.Calm {α : Type} : Kind α → Prop
  | .group _ _ => True
  | .iterate loop _ => loop.Calm
  | .simple logic => logic.Calm

structure Action.Calm (a : Action) : Prop where
  head : a.head.Calm
  kind : a.kind.Calm

/-- No supplied provider anywhere in the automation panics. -/
def Automation.Calm (a : Automation) : Prop := ∀ b ∈ Action.forest a.actions, b.Calm

/-- The tasks of all parallel groups are without panics. -/
def Automation.CalmTasks (a : Automation) : Prop :=
  ∀ b ∈ Action.forest a.actions, ∀ actions, b.kind = .group true actions →
    ∀ d ∈ Action.forest actions, d.Calm

theorem Automation.Calm.calmTasks {a : Automation} (h : a.Calm) : a.CalmTasks := by
  intro b hb actions hkind d hd
  have hinside : d ∈ Action.forest b.kind.actions := by
    rw [hkind]
    exact hd
  exact h d (Action.forest_subset hb d (Action.mem_tree_of_inside hinside))

/-! ### Steps -/

def Step.Calm {σ α : Type} (m : Step σ α) : Prop := ∀ s, (m s).Settled

namespace Step

variable {σ α β : Type}

theorem calm_pure (a : α) : Calm (pure a : Step σ α) := fun _ => nofun

theorem calm_fail (fault : Fault) : Calm (fail fault : Step σ α) := fun _ => nofun

theorem calm_update (f : σ → σ) : Calm (update f) := fun _ => nofun

theorem calm_ofExcept (result : Except Fault α) : Calm (ofExcept result : Step σ α) := by
  intro s panic hp
  cases result <;> cases hp

theorem calm_bind {m : Step σ α} {next : α → Step σ β} (hm : Calm m)
    (hnext : ∀ a, Calm (next a)) : Calm (m >>= next) := by
  intro s
  cases hr : (m s).result with
  | ok a =>
    rw [bind_of_ok hr]
    exact hnext a _
  | error stop =>
    rw [bind_of_error hr]
    intro panic hp
    have he : stop = .panic panic := Except.error.inj hp
    exact hm s panic (he ▸ hr)

theorem calm_attempt {m : Step σ α} (hm : Calm m) : Calm m.attempt := by
  intro s panic hp
  rcases (hm s).ok_or_fault with ⟨a, hr⟩ | ⟨fault, hr⟩
  · simp [attempt, hr] at hp
  · simp [attempt, hr] at hp

end Step

open Step

namespace Frame

variable {ρ τ α : Type}

theorem calm_mark (key : String) (event : Event) : Calm (mark key event : Step (Frame ρ) Unit) :=
  fun _ => nofun

theorem calm_resolve (key : String) {p : Context → Resolution α}
    (h : ∀ ctx, Resolution.Calm (p ctx)) : Calm (resolve key p : Step (Frame ρ) α) := by
  intro s panic hp
  have hs := h s.context
  unfold resolve at hp
  cases hr : p s.context with
  | ok a => simp [hr] at hp
  | error stop =>
    cases stop with
    | error e => simp [hr] at hp
    | panic panic => exact hs panic hr

theorem calm_resolveOptional {π : Type} (key : String) {p : Option π}
    {f : π → Context → Resolution α} (h : ∀ q ∈ p, ∀ ctx, Resolution.Calm (f q ctx)) :
    Calm (resolveOptional key p f : Step (Frame ρ) (Option α)) := by
  cases p with
  | none => exact calm_pure none
  | some q => exact calm_bind (calm_resolve key (h q rfl)) fun a => calm_pure (some a)

theorem calm_ensureNotCancelled (key : String) :
    Calm (ensureNotCancelled key : Step (Frame ρ) Unit) :=
  calm_bind (fun _ => nofun) fun _ => calm_ofExcept _

theorem calm_modify (f : ρ → ρ) : Calm (modify f) := calm_update _

theorem calm_publish (key : String) : Calm (publish key) := calm_update _

theorem calm_move (target : Stage) : Calm (move target) := by
  intro s panic hp
  unfold move at hp
  split at hp <;> cases hp

theorem calm_nested (own : τ) {part : Step (Frame τ) Unit} (h : Calm part) :
    Calm (nested own part : Step (Frame ρ) (τ × Except Fault Unit)) := by
  intro s panic hp
  rcases (h ⟨own, s.context⟩).ok_or_fault with ⟨u, hr⟩ | ⟨fault, hr⟩
  · simp [nested, hr] at hp
  · simp [nested, hr] at hp

theorem calm_within (place : Place) {part : Step (Frame ρ) α} (h : Calm part) :
    Calm (within place part) := fun s => h s

theorem calm_file (place : Place) (own : τ) {part : Step (Frame τ) Unit} (f : τ → ρ → ρ)
    (h : Calm part) : Calm (file place own part f) := by
  refine calm_bind (calm_within place (calm_nested own h)) fun left => ?_
  exact calm_bind (calm_modify _) fun _ => calm_ofExcept _

end Frame

open ActionFlow.Frame

namespace Lifecycle

variable {head : Head} {logic : Step (Frame Record) Unit}

theorem calm_check (key : String) {conditions : List ErrorCondition}
    (h : ∀ e ∈ conditions, e.Calm) : Calm (check key conditions) := by
  induction conditions with
  | nil => exact calm_pure ()
  | cons e rest ih =>
    have he := h e List.mem_cons_self
    refine calm_bind (calm_resolve key fun ctx => Condition.calm_resolve ctx _ he.condition) ?_
    intro holds
    cases holds with
    | true =>
      exact calm_bind (calm_resolve key (FaultProvider.calm_resolve he.fault)) fun _ => calm_fail _
    | false => exact ih fun e he => h e (List.mem_cons_of_mem _ he)

theorem calm_wanted (h : head.Calm) : Calm (wanted head) := by
  have hc := h.runCondition
  unfold wanted
  cases hr : head.runCondition with
  | none => exact calm_pure true
  | some c => exact calm_resolve _ fun ctx => Condition.calm_resolve ctx c (hc c hr)

theorem calm_attempted (h : head.Calm) (hl : Calm logic) : Calm (attempted head logic) := by
  refine calm_bind (calm_move _) fun _ => ?_
  refine calm_bind (calm_ensureNotCancelled _) fun _ => ?_
  refine calm_bind (calm_wanted h) fun wants => ?_
  cases wants with
  | false => exact calm_bind (calm_move _) fun _ => calm_modify _
  | true =>
    refine calm_bind (calm_move _) fun _ => ?_
    refine calm_bind (calm_check _ h.before) fun _ => ?_
    refine calm_bind (calm_move _) fun _ => ?_
    refine calm_bind hl fun _ => ?_
    refine calm_bind (calm_move _) fun _ => ?_
    refine calm_bind (calm_check _ h.after) fun _ => ?_
    exact calm_bind (calm_move _) fun _ => calm_modify _

theorem calm_intercept (key : String) {recovery : Option (Step (Frame (Entries Record)) Unit)}
    (hr : ∀ sequence ∈ recovery, Calm sequence) (fault : Fault) :
    Calm (intercept key recovery fault) := by
  intro s
  cases recovery with
  | none => exact nofun
  | some sequence =>
    rw [intercept_some]
    exact calm_file _ _ _ (hr sequence rfl) _

theorem calm_handle {recovery : Option (Step (Frame (Entries Record)) Unit)} (h : head.Calm)
    (hl : Calm logic) (hr : ∀ sequence ∈ recovery, Calm sequence) :
    Calm (handle head logic recovery) := by
  have hguarded : Calm (guarded head logic recovery) := by
    refine calm_bind (calm_attempt (calm_attempted h hl)) fun result => ?_
    cases result with
    | ok u => exact calm_pure ()
    | error fault => exact calm_intercept _ hr fault
  rw [handle_eq]
  refine calm_bind (calm_mark _ _) fun _ => ?_
  refine calm_bind (calm_attempt hguarded) fun _ => ?_
  exact calm_bind (calm_publish _) fun _ => calm_ofExcept _

end Lifecycle

namespace Loop

variable {key : String} {loop : Loop} {body : Step (Frame (Entries Record)) Unit}

theorem calm_once (hb : Step.Calm body) (items : List Value) (i : IterationItem) :
    Step.Calm (once key items body i) := by
  rw [once_eq]
  refine calm_bind (calm_ensureNotCancelled _) fun _ => ?_
  refine calm_bind (calm_modify _) fun _ => ?_
  refine calm_bind (calm_publish _) fun _ => ?_
  refine calm_bind (calm_file _ _ _ hb) fun _ => ?_
  exact calm_bind (calm_modify _) fun _ => calm_publish _

theorem calm_continues (h : loop.Calm) : Step.Calm (continues key loop) := by
  have hc := h.doWhile
  unfold continues
  cases hw : loop.doWhile with
  | none => exact calm_pure true
  | some c => exact calm_resolve _ fun ctx => Condition.calm_resolve ctx c (hc c hw)

theorem calm_visit (h : loop.Calm) (hb : Step.Calm body) (items : List Value)
    (places : List IterationItem) : Step.Calm (visit key loop items body places) := by
  induction places with
  | nil => exact calm_pure ()
  | cons i rest ih =>
    refine calm_bind (calm_once hb items i) fun _ => ?_
    refine calm_bind (calm_continues h) fun goesOn => ?_
    cases goesOn with
    | true => exact ih
    | false => exact calm_pure ()

theorem calm_traverse (h : loop.Calm) (hb : Step.Calm body) (items : List Value)
    (first last : Option Int) (reverse : Bool) :
    Step.Calm (traverse key loop body items first last reverse) := by
  unfold traverse
  split
  · exact calm_modify _
  · cases Range.resolve items.length first last reverse with
    | ok range =>
      refine calm_bind (calm_modify _) fun _ => ?_
      exact calm_bind (calm_visit h hb items _) fun _ => calm_modify _
    | error index => exact calm_fail _

theorem calm_run (h : loop.Calm) (hb : Step.Calm body) : Step.Calm (run key loop body) := by
  rw [run_eq]
  refine calm_bind (calm_resolve _ (Provider.calm_resolveAs _ h.list)) fun items => ?_
  refine calm_bind ?_ fun first => ?_
  · exact calm_resolveOptional _ fun p hp => IntegerProvider.calm_resolve (h.startIndex p hp)
  refine calm_bind ?_ fun last => ?_
  · exact calm_resolveOptional _ fun p hp => IntegerProvider.calm_resolve (h.endIndex p hp)
  refine calm_bind ?_ fun reverse => ?_
  · exact calm_resolveOptional _ fun c hc ctx => Condition.calm_resolve ctx c (h.reverse c hc)
  exact calm_traverse h hb items first last _

end Loop

namespace Logic

theorem calm_raise (key : String) {p : FaultProvider} (h : p.Calm) : Step.Calm (raise key p) := by
  refine calm_bind (calm_resolve _ (FaultProvider.calm_resolve h)) fun _ => ?_
  exact calm_bind (calm_modify _) fun _ => calm_fail _

theorem calm_write (property : String) (path : Option Path) (value : Value) :
    Step.Calm (write property path value) := by
  intro s panic hp
  unfold write at hp
  split at hp <;> cases hp

theorem calm_assign (key : String) {property : Provider} {path : Option Provider}
    {value : Provider} (h : (Logic.setVariable property path value).Calm) :
    Step.Calm (assign key property path value) := by
  obtain ⟨hproperty, hpath, hvalue⟩ := h
  refine calm_bind (calm_resolve _ (Provider.calm_resolveAs _ hproperty)) fun name => ?_
  split
  · refine calm_bind ?_ fun path => ?_
    · exact calm_resolveOptional _ fun p hp => Provider.calm_resolveAs _ (hpath p hp)
    refine calm_bind (calm_resolve _ fun ctx => Provider.calm_resolve ctx _ hvalue) fun value => ?_
    exact calm_bind (calm_modify _) fun _ => calm_write _ _ _
  · exact calm_fail _

theorem calm_call (key : String) (handler : Handler) : Step.Calm (call key handler) := by
  intro s panic hp
  exact calm_ofExcept ((handler.handle s.context).result.mapError (HandlerError.toFault key)) s
    panic hp

theorem calm_run (key : String) {logic : Logic} (h : logic.Calm) : Step.Calm (logic.run key) := by
  cases logic with
  | raiseError p => exact calm_raise key h
  | setVariable property path value => exact calm_assign key h
  | external handler => exact calm_call key handler

end Logic

namespace Action

theorem calm_runSequence {actions : List Action} (h : ∀ b ∈ actions, Step.Calm b.handle) :
    Step.Calm (runSequence actions) := by
  induction actions with
  | nil =>
    rw [runSequence]
    exact calm_pure ()
  | cons a rest ih =>
    rw [runSequence]
    refine calm_bind ?_ fun _ => ih fun b hb => h b (List.mem_cons_of_mem _ hb)
    refine calm_bind (calm_nested _ (h a List.mem_cons_self)) fun left => ?_
    exact calm_bind (calm_modify _) fun _ => calm_ofExcept _

theorem calm_spawn (start : Record) (execution : Step (Frame Record) Unit) :
    Step.Calm (Task.spawn start execution) := fun _ => nofun

theorem calm_runTasks (actions : List Action) : Step.Calm (runTasks actions) := by
  -- Tasks catch their panics, whatever the actions are.
  induction actions with
  | nil =>
    rw [runTasks]
    exact calm_pure ()
  | cons a rest ih =>
    rw [runTasks]
    exact calm_bind (calm_spawn _ _) fun _ => ih

theorem calm_together {tasks : Step (Frame (List Task)) Unit} (h : Step.Calm tasks) :
    Step.Calm (Task.together tasks) := by
  refine calm_bind (calm_nested [] h) fun finished => ?_
  exact calm_bind (calm_update _) fun _ => calm_ofExcept _

theorem calm_runKind (key : String) {kind : Kind Action} (hk : kind.Calm)
    (h : ∀ b ∈ kind.actions, Step.Calm b.handle) : Step.Calm (runKind key kind) := by
  cases kind with
  | group parallel actions =>
    rw [runKind]
    refine calm_bind (calm_mark _ _) fun _ => calm_file _ _ _ ?_
    cases parallel with
    | true => exact calm_together (calm_runTasks actions)
    | false => exact calm_runSequence h
  | iterate loop actions =>
    rw [runKind]
    exact calm_bind (calm_mark _ _) fun _ => Loop.calm_run hk (calm_runSequence h)
  | simple logic =>
    rw [runKind]
    exact calm_bind (calm_mark _ _) fun _ => Logic.calm_run key hk

theorem calm_node (a : Action) (h : a.Calm) (inside : ∀ b ∈ a.kind.actions, Step.Calm b.handle)
    (recovery : ∀ b ∈ a.errorActions, Step.Calm b.handle) : Step.Calm a.handle := by
  rw [handle_eq]
  refine Lifecycle.calm_handle h.head (calm_runKind _ h.kind inside) ?_
  intro sequence hs
  rw [(recovery_eq_some hs).2]
  exact calm_runSequence recovery

theorem calm_handle {actions : List Action} (h : ∀ b ∈ forest actions, b.Calm) :
    ∀ a ∈ actions, Step.Calm a.handle := forest_induction calm_node h

end Action

namespace Automation

theorem Calm.settled_run {a : Automation} (h : a.Calm) (ctx : Context) : (a.run ctx).Settled :=
  Action.calm_runSequence (Action.calm_handle h) _

/-- A run that does not panic has an outcome, which tells of it. -/
theorem outcome_eq_ok_iff {a : Automation} {ctx : Context} {o : Outcome} :
    a.outcome ctx = .ok o ↔
      (a.run ctx).Settled ∧
        o = ⟨(a.run ctx).state.context.runId, (a.run ctx).state.own, (a.run ctx).fault?⟩ := by
  unfold outcome Outcome.ofEnding
  constructor
  · intro h
    cases hr : (a.run ctx).result with
    | ok u =>
      rw [hr] at h
      exact ⟨Ending.settled_of_ok hr, by rw [Ending.fault?_of_ok hr]; exact (Except.ok.inj h).symm⟩
    | error stop =>
      cases stop with
      | error fault =>
        rw [hr] at h
        refine ⟨Ending.settled_of_fault hr, ?_⟩
        rw [Ending.fault?_of_fault hr]
        exact (Except.ok.inj h).symm
      | panic panic =>
        rw [hr] at h
        cases h
  · rintro ⟨hs, rfl⟩
    rcases hs.ok_or_fault with ⟨u, hr⟩ | ⟨fault, hr⟩
    · rw [Ending.fault?_of_ok hr, hr]
    · rw [Ending.fault?_of_fault hr, hr]

theorem Calm.exists_outcome {a : Automation} (h : a.Calm) (ctx : Context) :
    ∃ o, a.outcome ctx = .ok o :=
  ⟨_, outcome_eq_ok_iff.mpr ⟨h.settled_run ctx, rfl⟩⟩

end Automation

/-! ### Calm actions -/

def Handler.idle : Handler where
  typeName := "idle"
  readOnly := true
  handle c := ⟨none, .ok (), c, []⟩

namespace Action

def idle (k : String) : Action where
  head := { name := k, key := k }
  kind := .simple (.external .idle)
  errorActions := []

def failing (k : String) : Action where
  head := { name := k, key := k }
  kind := .simple (.raiseError
    { code := .constant (.text k)
      title := .constant (.text "")
      message := .constant (.text "")
      status := .constant (.integer 400)
      details := none
      data := none })
  errorActions := []

def assigning (k property : String) (path : Option String) (value : Value)
    (errorActions : List Action) : Action where
  head := { name := k, key := k }
  kind := .simple (.setVariable (.constant (.text property))
    (path.map fun p => .constant (.text p)) (.constant value))
  errorActions := errorActions

theorem calm_idle (k : String) : (idle k).Calm := ⟨⟨nofun, nofun, nofun⟩, trivial⟩

theorem calm_failing (k : String) : (failing k).Calm := by
  refine ⟨⟨nofun, nofun, nofun⟩, ?_⟩
  constructor <;> simp [Provider.Calm]

theorem calm_assigning (k property : String) (path : Option String) (value : Value)
    (errorActions : List Action) : (assigning k property path value errorActions).Calm := by
  refine ⟨⟨nofun, nofun, nofun⟩, ?_⟩
  cases path <;> simp [assigning, Kind.Calm, Logic.Calm, Provider.Calm]

end Action

end ActionFlow
