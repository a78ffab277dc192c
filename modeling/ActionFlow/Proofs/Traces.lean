import ActionFlow.Proofs.Handling
import ActionFlow.Proofs.Places

/-!
# Conditions at every moment

`Traces` follows a condition on contexts through a step together with what it says of every moment
that the step leaves in the journal, whether the step succeeds or not.
-/
namespace ActionFlow

variable {ρ τ α β : Type} {I : Context → Prop} {Q : Moment → Prop}

def Ending.Traces (I : Context → Prop) (Q : Moment → Prop) (e : Ending (Frame ρ) α) : Prop :=
  I e.state.context ∧ ∀ m ∈ e.journal, Q m

/-- From a context in `I`, the step ends in one, and all its moments are in `Q`. -/
def Step.Traces (I : Context → Prop) (Q : Moment → Prop) (m : Step (Frame ρ) α) : Prop :=
  ∀ s, I s.context → (m s).Traces I Q

theorem Ending.Traces.mono {J : Context → Prop} {R : Moment → Prop} {e : Ending (Frame ρ) α}
    (h : e.Traces I Q) (hi : ∀ c, I c → J c) (hq : ∀ m, Q m → R m) : e.Traces J R :=
  ⟨hi _ h.1, fun m hm => hq m (h.2 m hm)⟩

namespace Frame

theorem traces_bindAt {m : Step (Frame ρ) α} {next : α → Step (Frame ρ) β} {s : Frame ρ}
    (hm : (m s).Traces I Q)
    (hnext : ∀ a, (m s).result = .ok a → (next a (m s).state).Traces I Q) :
    ((m >>= next) s).Traces I Q := by
  cases hr : (m s).result with
  | ok a =>
    rw [Step.bind_of_ok hr]
    obtain ⟨hi, hq⟩ := hnext a hr
    refine ⟨hi, ?_⟩
    intro moment hmoment
    rcases List.mem_append.mp hmoment with h | h
    · exact hm.2 moment h
    · exact hq moment h
  | error stop =>
    rw [Step.bind_of_error hr]
    exact hm

theorem traces_bind {m : Step (Frame ρ) α} {next : α → Step (Frame ρ) β} (hm : m.Traces I Q)
    (hnext : ∀ a, (next a).Traces I Q) : (m >>= next).Traces I Q := fun s hs =>
  traces_bindAt (hm s hs) fun a _ => hnext a _ (hm s hs).1

theorem traces_pure (a : α) : Step.Traces I Q (pure a : Step (Frame ρ) α) := fun _ hs => ⟨hs, nofun⟩

theorem traces_fail (fault : Fault) : Step.Traces I Q (.fail fault : Step (Frame ρ) α) :=
  fun _ hs => ⟨hs, nofun⟩

theorem traces_ofExcept (result : Except Fault α) :
    Step.Traces I Q (.ofExcept result : Step (Frame ρ) α) := fun _ hs => ⟨hs, nofun⟩

theorem traces_modify (f : ρ → ρ) : Step.Traces I Q (modify f) := fun _ hs => ⟨hs, nofun⟩

theorem attempt_state (m : Step (Frame ρ) α) (s : Frame ρ) :
    (m.attempt s).state = (m s).state ∧ (m.attempt s).journal = (m s).journal := by
  unfold Step.attempt
  dsimp only
  split <;> exact ⟨rfl, rfl⟩

theorem traces_attempt {m : Step (Frame ρ) α} (hm : m.Traces I Q) : m.attempt.Traces I Q := by
  intro s hs
  obtain ⟨hstate, hjournal⟩ := attempt_state m s
  unfold Ending.Traces
  rw [hstate, hjournal]
  exact hm s hs

theorem traces_ensureNotCancelled (key : String) :
    Step.Traces I Q (ensureNotCancelled key : Step (Frame ρ) Unit) := fun _ hs => ⟨hs, nofun⟩

theorem traces_move (target : Stage) : (move target).Traces I Q := by
  intro s hs
  unfold move
  split
  · exact ⟨hs, nofun⟩
  · exact ⟨hs, nofun⟩

theorem traces_nested (own : τ) {part : Step (Frame τ) Unit} (h : part.Traces I Q) :
    Step.Traces I Q (nested own part : Step (Frame ρ) (τ × Except Fault Unit)) :=
  fun s hs => h ⟨own, s.context⟩ hs

theorem traces_within {place : Place} {part : Step (Frame ρ) α}
    (h : part.Traces I fun m => Q (m.within place)) : (within place part).Traces I Q := by
  intro s hs
  obtain ⟨hi, hq⟩ := h s hs
  refine ⟨hi, ?_⟩
  intro m hm
  obtain ⟨inner, hinner, rfl⟩ := List.mem_map.mp hm
  exact hq inner hinner

theorem traces_fileWithin {place : Place} (own : τ) {part : Step (Frame τ) Unit} (f : τ → ρ → ρ)
    (h : part.Traces I fun m => Q (m.within place)) : (file place own part f).Traces I Q := by
  refine traces_bind (traces_within (traces_nested own h)) fun left => ?_
  exact traces_bind (traces_modify _) fun _ => traces_ofExcept _

theorem traces_file {place : Place} (own : τ) {part : Step (Frame τ) Unit} (f : τ → ρ → ρ)
    (hplace : ∀ {m}, Q m → Q (m.within place)) (h : part.Traces I Q) :
    (file place own part f).Traces I Q := by
  refine traces_fileWithin own f ?_
  exact fun s hs => ⟨(h s hs).1, fun m hm => hplace ((h s hs).2 m hm)⟩

/-! ### Asking providers -/

section Asking

variable {key : String} (asked : ∀ {c}, I c → Q ⟨[.action key], .resolving, c⟩)

include asked

theorem traces_resolve (p : Context → Resolution α) :
    Step.Traces I Q (resolve key p : Step (Frame ρ) α) :=
  fun _ hs => ⟨hs, List.forall_mem_singleton.mpr (asked hs)⟩

theorem traces_check (conditions : List ErrorCondition) :
    (Lifecycle.check key conditions).Traces I Q := by
  induction conditions with
  | nil => exact traces_pure ()
  | cons e rest ih =>
    refine traces_bind (traces_resolve asked _) fun holds => ?_
    cases holds with
    | true => exact traces_bind (traces_resolve asked _) fun fault => traces_fail fault
    | false => exact ih

end Asking

theorem traces_wanted {head : Head} (asked : ∀ {c}, I c → Q ⟨[.action head.key], .resolving, c⟩) :
    (Lifecycle.wanted head).Traces I Q := by
  unfold Lifecycle.wanted
  cases head.runCondition with
  | none => exact traces_pure true
  | some c => exact traces_resolve asked _

end Frame

/-! ### The steps of an action -/

/-- What the moments and the publications of an action with the given key are to keep. -/
structure TraceRule (I : Context → Prop) (Q : Moment → Prop) (key : String) : Prop where
  point : ∀ {c} event, I c → Q ⟨[.action key], event, c⟩
  publish : ∀ {c} (snapshot : Value), I c → I (c.publish key snapshot)
  write : ∀ {c c' property path value}, c.setVariable property path value = .ok c' → I c → I c'
  children : ∀ {m}, Q m → Q (m.within (.children key))
  recovery : ∀ {m}, Q m → Q (m.within (.recovery key))

namespace TraceRule

open ActionFlow.Frame

variable {key : String} (rule : TraceRule I Q key)

include rule

theorem mark (event : Event) : Step.Traces I Q (mark key event : Step (Frame ρ) Unit) := by
  intro s hs
  refine ⟨hs, ?_⟩
  intro m hm
  cases List.mem_singleton.mp hm
  exact rule.point event hs

theorem resolve (p : Context → Resolution α) :
    Step.Traces I Q (resolve key p : Step (Frame ρ) α) :=
  traces_resolve (rule.point .resolving) p

theorem resolveOptional {π : Type} (p : Option π) (f : π → Context → Resolution α) :
    Step.Traces I Q (resolveOptional key p f : Step (Frame ρ) (Option α)) := by
  cases p with
  | none => exact traces_pure none
  | some p => exact traces_bind (rule.resolve (f p)) fun a => traces_pure (some a)

theorem published : (Frame.publish key).Traces I Q := fun _ hs => ⟨rule.publish _ hs, nofun⟩

theorem raise (p : FaultProvider) : (Logic.raise key p).Traces I Q := by
  refine traces_bind (rule.resolve _) fun fault => ?_
  exact traces_bind (traces_modify _) fun _ => traces_fail fault

theorem assign (property : Provider) (path : Option Provider) (value : Provider) :
    (Logic.assign key property path value).Traces I Q := by
  refine traces_bind (rule.resolve _) fun name => ?_
  split
  · refine traces_bind (rule.resolveOptional _ _) fun path => ?_
    refine traces_bind (rule.resolve _) fun value => ?_
    refine traces_bind (traces_modify _) fun _ => ?_
    intro s hs
    unfold Logic.write
    cases hset : s.context.setVariable name (path.map Path.parse) value with
    | ok c' => exact ⟨rule.write hset hs, nofun⟩
    | error fault => exact ⟨hs, nofun⟩
  · exact traces_fail _

theorem call {handler : Handler} (hh : ∀ c, I c → I (handler.handle c).context) :
    (Logic.call key handler).Traces I Q := by
  intro s hs
  refine ⟨hh _ hs, ?_⟩
  intro m hm
  rcases List.mem_cons.mp hm with rfl | hm
  · exact rule.point .handling hs
  · obtain ⟨text, -, rfl⟩ := List.mem_map.mp hm
    exact rule.point (.noted text) (hh _ hs)

end TraceRule

/-! ### Actions -/

namespace Lifecycle

open ActionFlow.Frame

variable {head : Head} {logic : Step (Frame Record) Unit}
  {recovery : Option (Step (Frame (Entries Record)) Unit)}

theorem traces_attempted (rule : TraceRule I Q head.key) (hl : logic.Traces I Q) :
    (attempted head logic).Traces I Q := by
  refine traces_bind (traces_move _) fun _ => ?_
  refine traces_bind (traces_ensureNotCancelled _) fun _ => ?_
  refine traces_bind (traces_wanted (rule.point .resolving)) fun wants => ?_
  cases wants with
  | false => exact traces_bind (traces_move _) fun _ => traces_modify _
  | true =>
    refine traces_bind (traces_move _) fun _ => ?_
    refine traces_bind (traces_check (rule.point .resolving) _) fun _ => ?_
    refine traces_bind (traces_move _) fun _ => ?_
    refine traces_bind hl fun _ => ?_
    refine traces_bind (traces_move _) fun _ => ?_
    refine traces_bind (traces_check (rule.point .resolving) _) fun _ => ?_
    exact traces_bind (traces_move _) fun _ => traces_modify _

theorem traces_intercept (rule : TraceRule I Q head.key)
    (hr : ∀ sequence ∈ recovery, sequence.Traces I Q) (fault : Fault) :
    (intercept head.key recovery fault).Traces I Q := by
  intro s hs
  cases recovery with
  | none => exact ⟨hs, nofun⟩
  | some sequence =>
    rw [intercept_some]
    refine traces_file (Q := Q) _ _ rule.recovery (hr sequence rfl) _ ?_
    exact rule.publish _ hs

theorem traces_handle (rule : TraceRule I Q head.key) (hl : logic.Traces I Q)
    (hr : ∀ sequence ∈ recovery, sequence.Traces I Q) :
    (handle head logic recovery).Traces I Q := by
  have hguarded : (guarded head logic recovery).Traces I Q := by
    refine traces_bind (traces_attempt (traces_attempted rule hl)) fun result => ?_
    cases result with
    | ok u => exact traces_pure ()
    | error fault => exact traces_intercept rule hr fault
  rw [handle_eq]
  refine traces_bind (rule.mark _) fun _ => ?_
  refine traces_bind (traces_attempt hguarded) fun _ => ?_
  exact traces_bind rule.published fun _ => traces_ofExcept _

end Lifecycle

namespace Loop

open ActionFlow.Frame

variable {key : String} {loop : Loop} {body : Step (Frame (Entries Record)) Unit}

theorem traces_continues (rule : TraceRule I Q key) : (continues key loop).Traces I Q := by
  unfold continues
  cases loop.doWhile with
  | none => exact traces_pure true
  | some c => exact rule.resolve _

theorem traces_once (rule : TraceRule I Q key) (items : List Value) (i : IterationItem)
    (hplace : ∀ {m}, Q m → Q (m.within (.iteration key items i.index))) (hb : body.Traces I Q) :
    (once key items body i).Traces I Q := by
  rw [once_eq]
  refine traces_bind (traces_ensureNotCancelled _) fun _ => ?_
  refine traces_bind (traces_modify _) fun _ => ?_
  refine traces_bind rule.published fun _ => ?_
  refine traces_bind (traces_file _ _ hplace hb) fun _ => ?_
  exact traces_bind (traces_modify _) fun _ => rule.published

theorem traces_visit (rule : TraceRule I Q key) (items : List Value) {places : List IterationItem}
    (ho : ∀ i ∈ places, (once key items body i).Traces I Q) :
    (visit key loop items body places).Traces I Q := by
  induction places with
  | nil => exact traces_pure ()
  | cons i rest ih =>
    refine traces_bind (ho i List.mem_cons_self) fun _ => ?_
    refine traces_bind (traces_continues rule) fun goesOn => ?_
    cases goesOn with
    | true => exact ih fun i hi => ho i (List.mem_cons_of_mem _ hi)
    | false => exact traces_pure ()

theorem traces_traverse (rule : TraceRule I Q key) {items : List Value} (first last : Option Int)
    (reverse : Bool)
    (ho : ∀ i, items[i.index]? = some i.item → (once key items body i).Traces I Q) :
    (traverse key loop body items first last reverse).Traces I Q := by
  unfold traverse
  split
  · exact traces_modify _
  · cases Range.resolve items.length first last reverse with
    | ok range =>
      refine traces_bind (traces_modify _) fun _ => ?_
      refine traces_bind (traces_visit rule items fun i hi => ho i (mem_visited hi)) fun _ => ?_
      exact traces_modify _
    | error index => exact traces_fail _

theorem traces_run (rule : TraceRule I Q key)
    (ho : ∀ items, (∃ c, loop.list.resolveAs Conversion.list c = .ok items) →
      ∀ i : IterationItem, items[i.index]? = some i.item → (once key items body i).Traces I Q) :
    (run key loop body).Traces I Q := by
  intro s hs
  rw [run_eq]
  refine traces_bindAt (rule.resolve _ s hs) fun items hitems => ?_
  have hrest := ho items ⟨_, of_resolve_ok hitems⟩
  refine traces_bind (rule.resolveOptional _ _) (fun first => ?_) _ hs
  refine traces_bind (rule.resolveOptional _ _) fun last => ?_
  refine traces_bind (rule.resolveOptional _ _) fun reverse => ?_
  exact traces_traverse rule first last _ hrest

end Loop

namespace Action

open ActionFlow.Frame

theorem traces_runSequence {actions : List Action} (h : ∀ b ∈ actions, b.handle.Traces I Q) :
    (runSequence actions).Traces I Q := by
  induction actions with
  | nil =>
    rw [runSequence]
    exact traces_pure ()
  | cons a rest ih =>
    rw [runSequence]
    refine traces_bind ?_ fun _ => ih fun b hb => h b (List.mem_cons_of_mem _ hb)
    refine traces_bind (traces_nested _ (h a List.mem_cons_self)) fun left => ?_
    exact traces_bind (traces_modify _) fun _ => traces_ofExcept _

theorem traces_runTasks {actions : List Action} (h : ∀ b ∈ actions, b.handle.Traces I Q) :
    (runTasks actions).Traces I Q := by
  induction actions with
  | nil =>
    rw [runTasks]
    exact traces_pure ()
  | cons a rest ih =>
    rw [runTasks]
    refine traces_bind ?_ fun _ => ih fun b hb => h b (List.mem_cons_of_mem _ hb)
    exact fun s hs => h a List.mem_cons_self ⟨a.freshRecord, s.context⟩ hs

theorem traces_together {tasks : Step (Frame (List Task)) Unit} (h : tasks.Traces I Q) :
    (Task.together tasks).Traces I Q := by
  refine traces_bind (traces_nested _ h) fun finished => ?_
  exact traces_bind (fun _ hs => ⟨hs, nofun⟩) fun _ => traces_ofExcept _

/-- What a kind is to keep apart from the moments of the action itself: each round of an iteration,
and the call of a handler. -/
def KindTraces (I : Context → Prop) (Q : Moment → Prop) (key : String) : Kind Action → Prop
  | .iterate loop actions => ∀ items, (∃ c, loop.list.resolveAs Conversion.list c = .ok items) →
    ∀ i : IterationItem, items[i.index]? = some i.item →
      (Loop.once key items (runSequence actions) i).Traces I Q
  | .simple (.external handler) => ∀ c, I c → I (handler.handle c).context
  | _ => True

theorem traces_runKind {key : String} (rule : TraceRule I Q key) {kind : Kind Action}
    (hk : KindTraces I Q key kind) (h : ∀ b ∈ kind.actions, b.handle.Traces I Q) :
    (runKind key kind).Traces I Q := by
  rcases kind with ⟨parallel, actions⟩ | ⟨loop, actions⟩ | (p | ⟨property, path, value⟩ | handler)
  · rw [runKind]
    refine traces_bind (rule.mark _) fun _ => traces_file _ _ rule.children ?_
    cases parallel with
    | true => exact traces_together (traces_runTasks h)
    | false => exact traces_runSequence h
  · rw [runKind]
    exact traces_bind (rule.mark _) fun _ => Loop.traces_run rule hk
  · rw [runKind]
    exact traces_bind (rule.mark _) fun _ => rule.raise p
  · rw [runKind]
    exact traces_bind (rule.mark _) fun _ => rule.assign property path value
  · rw [runKind]
    exact traces_bind (rule.mark _) fun _ => rule.call hk

theorem traces_handle {a : Action} (rule : TraceRule I Q a.key) (hk : KindTraces I Q a.key a.kind)
    (hinside : ∀ b ∈ a.kind.actions, b.handle.Traces I Q)
    (hrecovery : ∀ b ∈ a.errorActions, b.handle.Traces I Q) : a.handle.Traces I Q := by
  rw [handle_eq]
  refine Lifecycle.traces_handle rule (traces_runKind rule hk hinside) ?_
  intro sequence hs
  rw [(recovery_eq_some hs).2]
  exact traces_runSequence hrecovery

end Action

end ActionFlow
