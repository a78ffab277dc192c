import Mathlib.Data.List.Induction
import ActionFlow.Proofs.Course

/-!
# Histories of a record

A record is moved to a stage, has a fault put down, and is ended.  Here these calls come in any
order, each in a context of its own, so that times and what is asked for are arbitrary.  Whatever
the history of a record, its stage, its times, its fault and its success fit together, and a record
that is running has gone through the stages before.
-/
namespace ActionFlow

/-- The stage before a stage that only one other leads to. -/
def Stage.previous? : Stage → Option Stage
  | started => some notStarted
  | skipped | beforeRunErrorChecking => some started
  | running => some beforeRunErrorChecking
  | afterRunErrorChecking => some running
  | notStarted | completed => none

theorem Stage.eq_of_canMove {source target stage : Stage} (h : canMove source target = true)
    (hp : target.previous? = some stage) : source = stage := by
  cases source <;> cases target <;> simp_all [canMove, previous?]

namespace Record

open ActionFlow.Frame

inductive Call where
  | transition (target : Stage)
  | recordFault (fault : Fault)
  | finish (succeeded : Bool)

/-- The call as a step of a run. -/
def Call.step : Call → Step (Frame Record) Unit
  | transition target => move target
  | recordFault fault => modify (Record.recordFault fault)
  | finish succeeded => .update fun s => { s with own := s.own.finish s.context.clock succeeded }

/-- The calls on a record in their order, each with the context in which it is made. -/
abbrev History := List (Context × Call)

/-- The record with its history behind it.  What a call that fails leaves is kept too. -/
def after (r : Record) (history : History) : Record :=
  history.foldl (fun r made => (made.2.step ⟨r, made.1⟩).state.own) r

variable {r : Record} {c : Context} {target : Stage} {call : Call} {history : History}

theorem after_concat (r : Record) (history : History) (c : Context) (call : Call) :
    r.after (history ++ [(c, call)]) = (call.step ⟨r.after history, c⟩).state.own := by
  simp [after]

theorem after_append (r : Record) (history later : History) :
    r.after (history ++ later) = (r.after history).after later := by
  simp [after]

/-! ### One call -/

theorem own_move_of_canMove (h : r.stage.canMove target = true) (c : Context) :
    (move target ⟨r, c⟩).state.own = stamp c.clock target { r with stage := target } := by
  rw [move_of_canMove h]

theorem move_refused {stop : Stop Fault} (h : (move target ⟨r, c⟩).result = .error stop) :
    (move target ⟨r, c⟩).state = ⟨r, c⟩ := by
  cases hcan : r.stage.canMove target with
  | true =>
    rw [move_of_canMove hcan] at h
    cases h
  | false => rw [move_of_not_canMove hcan]

/-- The time of the end is set when the record is over, and success is told only then and without a
fault. -/
structure Consistent (r : Record) : Prop where
  completedAt : r.completedAt.isSome = r.stage.isTerminal
  succeeded : r.succeeded = true → r.stage.isTerminal = true ∧ r.fault = none

theorem consistent_fresh (name key type : String) (detail : Detail Record) :
    (fresh name key type detail).Consistent := ⟨rfl, nofun⟩

theorem Consistent.stamp (h : r.Consistent) (hopen : r.stage.isTerminal = false) (now : String)
    (target : Stage) : (stamp now target { r with stage := target }).Consistent := by
  have hnone : r.completedAt.isSome = false := h.completedAt.trans hopen
  have hfailed : r.succeeded = false := by
    cases hs : r.succeeded with
    | false => rfl
    | true => simp [(h.succeeded hs).1] at hopen
  cases target <;> constructor <;> simp [Record.stamp, Stage.isTerminal, hnone, hfailed]

theorem Consistent.finish (h : r.Consistent) (now : String) (succeeded : Bool) :
    (r.finish now succeeded).Consistent := by
  refine ⟨?_, fun hs => ⟨isTerminal_finish now succeeded r, ?_⟩⟩
  · rw [isTerminal_finish]
    cases hterminal : r.stage.isTerminal with
    | true => simpa [Record.finish, hterminal] using h.completedAt
    | false => simp [Record.finish, hterminal]
  · cases hterminal : r.stage.isTerminal <;> simp_all [Record.finish]

theorem Consistent.step (h : r.Consistent) (call : Call) (c : Context) :
    (call.step ⟨r, c⟩).state.own.Consistent := by
  cases call with
  | transition target =>
    cases hcan : r.stage.canMove target with
    | true =>
      have hopen : r.stage.isTerminal = false := by
        by_contra hterminal
        rw [Stage.canMove_of_isTerminal (by simpa using hterminal)] at hcan
        cases hcan
      have hmoved := h.stamp hopen c.clock target
      rwa [← own_move_of_canMove hcan c] at hmoved
    | false =>
      rw [Call.step, move_of_not_canMove hcan]
      exact h
  | recordFault fault => exact ⟨h.completedAt, nofun⟩
  | finish succeeded => exact h.finish c.clock succeeded

/-- Nothing moves a record that is over. -/
theorem step_of_terminal (h : r.stage.isTerminal = true) (call : Call) (c : Context) :
    (call.step ⟨r, c⟩).state.own.stage = r.stage ∧
      (call.step ⟨r, c⟩).state.own.completedAt = r.completedAt := by
  cases call with
  | transition target =>
    rw [Call.step, move_of_not_canMove (Stage.canMove_of_isTerminal h target)]
    exact ⟨rfl, rfl⟩
  | recordFault fault => exact ⟨rfl, rfl⟩
  | finish succeeded =>
    have hown : ((Call.finish succeeded).step ⟨r, c⟩).state.own = r.finish c.clock succeeded := rfl
    simp only [hown, Record.finish, h, if_true, and_self]

/-! ### Stages gone through -/

/-- In the history of `r`, the record moves to `target` once the calls of `before` are made. -/
structure MovedAt (r : Record) (history before : History) (c : Context) (target : Stage) :
    Prop where
  made : before ++ [(c, .transition target)] <+: history
  moved : (move target ⟨r.after before, c⟩).result = .ok ()

/-- The record was started, and tells when. -/
def Begun (r : Record) (history : History) : Prop :=
  ∃ first c, r.MovedAt history first c .started ∧ (r.after history).startedAt = some c.clock

/-- The record was started, and checked after that. -/
def Checked (r : Record) (history : History) : Prop :=
  ∃ first c second d, r.MovedAt second first c .started ∧
    r.MovedAt history second d .beforeRunErrorChecking ∧
      (r.after history).startedAt = some c.clock

/-- What lies behind a record that is at the stage. -/
def Passed (r : Record) (history : History) : Stage → Prop
  | .started => r.Begun history
  | .beforeRunErrorChecking | .running | .afterRunErrorChecking => r.Checked history
  | .notStarted | .skipped | .completed => True

theorem MovedAt.extend {before : History} (h : r.MovedAt history before c target)
    (made : Context × Call) : r.MovedAt (history ++ [made]) before c target :=
  ⟨h.made.trans (List.prefix_append _ _), h.moved⟩

theorem movedAt_last (h : (r.after history).stage.canMove target = true) (c : Context) :
    r.MovedAt (history ++ [(c, .transition target)]) history c target :=
  ⟨List.prefix_rfl, by rw [move_of_canMove h]⟩

theorem passed_of_terminal {stage : Stage} (h : stage.isTerminal = true) :
    r.Passed history stage := by
  cases stage <;> simp_all [Passed, Stage.isTerminal]

section Passed

variable {made : Context × Call}
  (hsame : (r.after (history ++ [made])).startedAt = (r.after history).startedAt)

include hsame

theorem Begun.extend (h : r.Begun history) : r.Begun (history ++ [made]) := by
  obtain ⟨first, c, hmoved, hstarted⟩ := h
  exact ⟨first, c, hmoved.extend made, hsame.trans hstarted⟩

theorem Checked.extend (h : r.Checked history) : r.Checked (history ++ [made]) := by
  obtain ⟨first, c, second, d, hfirst, hsecond, hstarted⟩ := h
  exact ⟨first, c, second, d, hfirst, hsecond.extend made, hsame.trans hstarted⟩

theorem Passed.extend {stage : Stage} (h : r.Passed history stage) :
    r.Passed (history ++ [made]) stage := by
  cases stage with
  | started => exact Begun.extend hsame h
  | beforeRunErrorChecking => exact Checked.extend hsame h
  | running => exact Checked.extend hsame h
  | afterRunErrorChecking => exact Checked.extend hsame h
  | notStarted => trivial
  | skipped => trivial
  | completed => trivial

end Passed

theorem startedAt_stamp (h : target ≠ .started) (now : String) (r : Record) :
    (stamp now target r).startedAt = r.startedAt := by
  unfold stamp
  split
  · exact absurd rfl h
  · rfl
  · rfl
  · rfl

/-- A move that succeeds comes from the stage that the regular course has before its target. -/
theorem passed_of_move (h : r.Passed history (r.after history).stage)
    (hcan : (r.after history).stage.canMove target = true) (c : Context) :
    r.Passed (history ++ [(c, .transition target)]) target := by
  have hmoved := movedAt_last hcan c
  have hafter : r.after (history ++ [(c, .transition target)]) =
      stamp c.clock target { r.after history with stage := target } := by
    rw [after_concat]
    exact own_move_of_canMove hcan c
  have hsame : target ≠ .started →
      (r.after (history ++ [(c, .transition target)])).startedAt = (r.after history).startedAt := by
    intro hne
    rw [hafter]
    exact startedAt_stamp hne _ _
  -- Each of these stages has one stage before it, where what is asked for here holds already.
  cases target with
  | started => exact ⟨history, c, hmoved, by rw [hafter]; rfl⟩
  | beforeRunErrorChecking =>
    have hsource := Stage.eq_of_canMove hcan rfl
    rw [hsource] at h
    obtain ⟨first, d, hfirst, hstarted⟩ := h
    exact ⟨first, d, history, c, hfirst, hmoved, (hsame nofun).trans hstarted⟩
  | running =>
    have hsource := Stage.eq_of_canMove hcan rfl
    rw [hsource] at h
    exact Checked.extend (hsame nofun) h
  | afterRunErrorChecking =>
    have hsource := Stage.eq_of_canMove hcan rfl
    rw [hsource] at h
    exact Checked.extend (hsame nofun) h
  | notStarted => trivial
  | skipped => trivial
  | completed => trivial

theorem passed_step (h : r.Passed history (r.after history).stage) (c : Context) (call : Call) :
    r.Passed (history ++ [(c, call)]) (r.after (history ++ [(c, call)])).stage := by
  have hafter := after_concat r history c call
  cases call with
  | transition target =>
    cases hcan : (r.after history).stage.canMove target with
    | true =>
      have hstage : (r.after (history ++ [(c, .transition target)])).stage = target := by
        rw [hafter, Call.step, own_move_of_canMove hcan, stage_stamp]
      rw [hstage]
      exact passed_of_move h hcan c
    | false =>
      have hrefused : r.after (history ++ [(c, .transition target)]) = r.after history := by
        rw [hafter, Call.step, move_of_not_canMove hcan]
      rw [hrefused]
      exact h.extend (congrArg startedAt hrefused)
  | recordFault fault =>
    have hsame : (r.after (history ++ [(c, .recordFault fault)])).startedAt =
        (r.after history).startedAt := by
      rw [hafter]
      rfl
    rw [hafter]
    exact h.extend hsame
  | finish succeeded =>
    cases hterminal : (r.after history).stage.isTerminal with
    | true =>
      have hstage := (step_of_terminal hterminal (.finish succeeded) c).1
      rw [hafter, hstage]
      exact passed_of_terminal hterminal
    | false =>
      have hstage : (r.after (history ++ [(c, .finish succeeded)])).stage = .completed := by
        rw [hafter]
        show ((r.after history).finish c.clock succeeded).stage = .completed
        simp [Record.finish, hterminal]
      rw [hstage]
      trivial

/-! ### Whole histories -/

theorem after_of_terminal (h : r.stage.isTerminal = true) (later : History) :
    (r.after later).stage = r.stage ∧ (r.after later).completedAt = r.completedAt := by
  induction later using List.reverseRecOn with
  | nil => exact ⟨rfl, rfl⟩
  | append_singleton earlier made ih =>
    obtain ⟨hstage, hcompleted⟩ := ih
    have hterminal : (r.after earlier).stage.isTerminal = true := by rw [hstage, h]
    obtain ⟨hstage', hcompleted'⟩ := step_of_terminal hterminal made.2 made.1
    rw [after_concat r earlier made.1 made.2]
    exact ⟨hstage'.trans hstage, hcompleted'.trans hcompleted⟩

theorem Consistent.after (h : r.Consistent) (history : History) : (r.after history).Consistent := by
  induction history using List.reverseRecOn with
  | nil => exact h
  | append_singleton earlier made ih =>
    rw [after_concat r earlier made.1 made.2]
    exact ih.step made.2 made.1

theorem passed_after (name key type : String) (detail : Detail Record) (history : History) :
    (fresh name key type detail).Passed history
      ((fresh name key type detail).after history).stage := by
  induction history using List.reverseRecOn with
  | nil => trivial
  | append_singleton earlier made ih => exact passed_step ih made.1 made.2

/-- What can be said of the record with the history behind it, and of any call that is still to
come. -/
structure Lawful (r : Record) (history : History) : Prop where
  completedAt : (r.after history).completedAt.isSome = true ↔
    (r.after history).stage.isTerminal = true
  succeeded : (r.after history).succeeded = true →
    (r.after history).stage.isTerminal = true ∧ (r.after history).fault = none
  final : (r.after history).stage.isTerminal = true → ∀ later,
    (r.after (history ++ later)).stage = (r.after history).stage ∧
      (r.after (history ++ later)).completedAt = (r.after history).completedAt
  refused : ∀ target c stop, (move target ⟨r.after history, c⟩).result = .error stop →
    (move target ⟨r.after history, c⟩).state = ⟨r.after history, c⟩
  /-- A record that is running was started and then checked, and tells the time of its start. -/
  passed : (r.after history).stage = .running ∨ (r.after history).stage = .afterRunErrorChecking →
    ∃ first c second d, r.MovedAt second first c .started ∧
      r.MovedAt history second d .beforeRunErrorChecking ∧
        (r.after history).startedAt = some c.clock

/-- Every history of a new record is lawful. -/
theorem lawful_history (name key type : String) (detail : Detail Record) (history : History) :
    (fresh name key type detail).Lawful history := by
  have hconsistent := (consistent_fresh name key type detail).after history
  have hpassed := passed_after name key type detail history
  refine ⟨?_, hconsistent.succeeded, fun hterminal later => ?_, fun _ _ _ h => move_refused h, ?_⟩
  · rw [hconsistent.completedAt]
  · rw [after_append]
    exact after_of_terminal hterminal later
  · intro hstage
    rcases hstage with hstage | hstage
    · rw [hstage] at hpassed
      exact hpassed
    · rw [hstage] at hpassed
      exact hpassed

end Record

end ActionFlow
