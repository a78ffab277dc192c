import ActionFlow.Proofs.Calm

/-!
# Running an action by itself

There are two ways to run an action: the whole handling, and a short lifecycle of its own.  Where
the action asks for nothing of what only the handling knows, and the context is not cancelled, the
two come to the same ending, whatever the record they start from.
-/
namespace ActionFlow

theorem Step.bind_congr_of_ok {σ α β : Type} {m : Step σ α} {next other : α → Step σ β} {s : σ}
    (h : ∀ a, (m s).result = .ok a → next a (m s).state = other a (m s).state) :
    (m >>= next) s = (m >>= other) s := by
  cases hr : (m s).result with
  | ok a => rw [bind_of_ok hr, bind_of_ok hr, h a hr]
  | error stop => rw [bind_of_error hr, bind_of_error hr]

open ActionFlow.Frame

namespace Lifecycle

variable {head : Head} (logic : Step (Frame Record) Unit)

theorem course_of_unchecked (before : head.before = []) (after : head.after = []) :
    course head logic = (do
      move .beforeRunErrorChecking
      move .running
      logic
      move .afterRunErrorChecking
      move .completed
      succeed) := by
  unfold course
  rw [before, after]
  simp only [check, pure_bind]

theorem attempted_eq_bare (runCondition : head.runCondition = none) (before : head.before = [])
    (after : head.after = []) {s : Frame Record} (hc : s.context.cancelled = false) :
    attempted head logic s = bare logic s := by
  -- A record that cannot start stops both before the cancellation is looked at.
  apply Step.bind_congr_of_ok
  intro _ _
  have hwanted : wanted head = pure true := by
    unfold wanted
    rw [runCondition]
  have hstill : (move .started s).state.context.cancelled = false := by
    rw [context_move]
    exact hc
  rw [ensureNotCancelled_bind hstill, hwanted, pure_bind, if_pos rfl,
    course_of_unchecked logic before after]

/-- Without error actions there is nothing to do after a fault but to close the record. -/
theorem guarded_none_eq {s : Frame Record} (h : attempted head logic s = bare logic s) :
    guarded head logic none s =
      (do
        match ← (bare logic).attempt with
        | .ok () => pure ()
        | .error fault =>
          close fault
          .fail fault : Step (Frame Record) Unit) s :=
  Step.attempt_bind_congr h _

end Lifecycle

namespace Action

/-- Nothing is asked of the handling of the action but its logic. -/
structure Plain (a : Action) : Prop where
  runCondition : a.head.runCondition = none
  before : a.head.before = []
  after : a.head.after = []
  errorActions : a.errorActions = []

/-- Handling a plain action and running it by itself come to the same result, record and context;
only the handling tells of the beginning. -/
theorem Plain.handle_agrees {a : Action} (h : a.Plain) {s : Frame Record}
    (hc : s.context.cancelled = false) :
    (a.handle s).result = (a.runDirect s).result ∧
      (a.handle s).state.own = (a.runDirect s).state.own ∧
      (a.handle s).state.context = (a.runDirect s).state.context ∧
      (a.handle s).journal = ⟨[.action a.key], .entered, s.context⟩ :: (a.runDirect s).journal := by
  have hrecovery : a.recovery = none := by
    unfold recovery
    rw [h.errorActions]
    rfl
  have hattempted := Lifecycle.attempted_eq_bare (runKind a.key a.kind) h.runCondition h.before
    h.after hc
  have hguarded := Lifecycle.guarded_none_eq (runKind a.key a.kind) hattempted
  have hpublished : thenPublish a.key (Lifecycle.guarded a.head (runKind a.key a.kind) none) s =
      a.runDirect s := Step.attempt_bind_congr hguarded _
  have hhandle : a.handle s =
      ⟨(a.runDirect s).result, (a.runDirect s).state,
        ⟨[.action a.key], .entered, s.context⟩ :: (a.runDirect s).journal⟩ := by
    rw [handle_eq, hrecovery, Lifecycle.handle_eq, ← hpublished]
    rfl
  rw [hhandle]
  exact ⟨rfl, rfl, rfl, rfl⟩

/-- A group that fails while one of its tasks sets a variable; once its record is new, and once it
is closed already with a fault of an earlier run in it. -/
theorem Plain.handle_agrees_group :
    let a : Action :=
      { head := { name := "all", key := "all" }
        kind := .group true [failing "one", assigning "two" "x" none (.integer 2) [idle "undo"]]
        errorActions := [] }
    let c : Context := .start "run" "now" .null
    let s : Frame Record := ⟨a.freshRecord, c⟩
    let s' : Frame Record := ⟨a.freshRecord.lost "earlier" (.actionCancelled "all"), c⟩
    a.Plain ∧ c.cancelled = false ∧
      ((a.handle s).result = (a.runDirect s).result ∧
        (a.handle s).state.own = (a.runDirect s).state.own ∧
        (a.handle s).state.context = (a.runDirect s).state.context) ∧
      (a.runDirect s).fault?.map Fault.code = some "one" ∧
      (a.runDirect s).state.context.vars = [("x", .integer 2)] ∧
      Entries.keys (a.runDirect s).state.context.published = ["one", "two", "all"] ∧
      (a.handle s').result = (a.runDirect s').result ∧
      (a.handle s').state.own = (a.runDirect s').state.own ∧
      (a.handle s').state.context = (a.runDirect s').state.context := by
  intro a c s s'
  have plain : a.Plain := ⟨rfl, rfl, rfl, rfl⟩
  have hc : c.cancelled = false := rfl
  obtain ⟨hresult, hown, hcontext, -⟩ := plain.handle_agrees (s := s) hc
  obtain ⟨hresult', hown', hcontext', -⟩ := plain.handle_agrees (s := s') hc
  exact ⟨plain, hc, ⟨hresult, hown, hcontext⟩, by decide +kernel, rfl, by decide +kernel, hresult',
    hown', hcontext'⟩

end Action

end ActionFlow
