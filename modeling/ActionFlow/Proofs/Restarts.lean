import ActionFlow.Proofs.Decisions
import ActionFlow.Proofs.DirectRun
import ActionFlow.Proofs.Histories

/-!
# Records that are used already

A record is for one execution.  An action that is handed a record which was started before asks no
provider and does not run its logic: the refused start is put down as a fault and closes what is
still open, and all that the record told before stays.  Only the error actions run, if there are
any.
-/
namespace ActionFlow

open ActionFlow.Frame

namespace Record

/-- The fault of an action that is to start from the record once more. -/
def restarted (r : Record) : Fault := .invalidTransition r.key ⟨r.stage, .started⟩

theorem canMove_started (r : Record) (h : r.stage ≠ .notStarted) :
    r.stage.canMove .started = false := by
  cases hcan : r.stage.canMove .started with
  | true => exact absurd (Stage.eq_of_canMove hcan rfl) h
  | false => rfl

/-- What becomes of a record that is handed in once more. -/
structure Spoilt (r left : Record) : Prop where
  fault : left.fault = some r.restarted
  code : r.restarted.code = "automation.action.invalid.state.transition"
  succeeded : left.succeeded = false
  detail : left.detail = r.detail
  startedAt : left.startedAt = r.startedAt
  terminal : r.stage.isTerminal = true → left.stage = r.stage ∧ left.completedAt = r.completedAt
  unfinished : r.stage.isTerminal = false → left.stage = .completed

theorem spoilt_lost (r : Record) (now : String) (records : Entries Record) :
    r.Spoilt { r.lost now r.restarted with errorActions := records } := by
  rw [lost_eq]
  refine ⟨rfl, rfl, rfl, rfl, rfl, fun h => ?_, fun h => ?_⟩
  · simp only [h, if_true, and_self]
  · simp only [h, Bool.false_eq_true, if_false]

end Record

/-! ### The lifecycle -/

namespace Lifecycle

variable {s : Frame Record} (h : s.own.stage ≠ .notStarted)

include h

theorem start_refused : move .started s = ⟨.error (.error s.own.restarted), s, []⟩ :=
  move_of_not_canMove (s.own.canMove_started h)

theorem attempted_refused (head : Head) (logic : Step (Frame Record) Unit) :
    attempted head logic s = ⟨.error (.error s.own.restarted), s, []⟩ := by
  have hstart := start_refused h
  rw [attempted, Step.bind_of_error (by rw [hstart]), hstart]

theorem bare_refused (logic : Step (Frame Record) Unit) :
    bare logic s = ⟨.error (.error s.own.restarted), s, []⟩ := by
  have hstart := start_refused h
  rw [bare, Step.bind_of_error (by rw [hstart]), hstart]

/-- Neither the conditions nor the logic have a part in what follows. -/
theorem guarded_refused (head : Head) (logic : Step (Frame Record) Unit)
    (recovery : Option (Step (Frame (Entries Record)) Unit)) :
    guarded head logic recovery s = intercept head.key recovery s.own.restarted s := by
  have hattempted := attempted_refused h head logic
  rw [guarded, Step.attempt_bind_of_fault (by rw [hattempted]), hattempted]
  rfl

theorem direct_refused (head : Head) (logic : Step (Frame Record) Unit) :
    direct head logic s =
      thenPublish head.key (intercept head.key none s.own.restarted) s := by
  have hbare := bare_refused h logic
  refine Step.attempt_bind_congr ?_ _
  rw [Step.attempt_bind_of_fault (by rw [hbare]), hbare]
  rfl

end Lifecycle

/-! ### Actions -/

namespace Action

variable {s : Frame Record}

/-- Handling the action with a record that is used already. -/
structure HandledAgain (a : Action) (s : Frame Record) : Prop where
  record : s.own.Spoilt (a.handle s).state.own
  /-- Conditions and kind of the action make no difference, not even to the moments. -/
  blind : ∀ b : Action, b.key = a.key → b.errorActions = a.errorActions → b.handle s = a.handle s
  quiet : ∀ m ∈ (a.handle s).journal,
    m = ⟨[.action a.key], .entered, s.context⟩ ∨ ∃ path, m.path = .recovery a.key :: path
  alone : a.errorActions = [] → (a.handle s).result = .error (.error s.own.restarted) ∧
    (a.handle s).state.context = s.context.publish a.key (a.handle s).state.own.snapshot

/-- Running the action by itself with a record that is used already. -/
structure RunAgain (a : Action) (s : Frame Record) : Prop where
  record : s.own.Spoilt (a.runDirect s).state.own
  blind : ∀ b : Action, b.key = a.key → b.runDirect s = a.runDirect s
  quiet : (a.runDirect s).journal = []
  result : (a.runDirect s).result = .error (.error s.own.restarted)
  context : (a.runDirect s).state.context =
    s.context.publish a.key (a.runDirect s).state.own.snapshot

variable (h : s.own.stage ≠ .notStarted)

include h

theorem handle_of_used (a : Action) :
    a.handle s =
      ⟨(thenPublish a.key (Lifecycle.intercept a.key a.recovery s.own.restarted) s).result,
        (thenPublish a.key (Lifecycle.intercept a.key a.recovery s.own.restarted) s).state,
        ⟨[.action a.key], .entered, s.context⟩ ::
          (thenPublish a.key (Lifecycle.intercept a.key a.recovery s.own.restarted) s).journal⟩ := by
  have hguarded := Lifecycle.guarded_refused h a.head (runKind a.key a.kind) a.recovery
  have hpublished :
      thenPublish a.head.key (Lifecycle.guarded a.head (runKind a.key a.kind) a.recovery) s =
        thenPublish a.key (Lifecycle.intercept a.key a.recovery s.own.restarted) s :=
    Step.attempt_bind_congr hguarded _
  rw [handle_eq, Lifecycle.handle_apply, hpublished]
  rfl

theorem runDirect_of_used (a : Action) :
    a.runDirect s =
      ⟨.error (.error s.own.restarted),
        ⟨s.own.lost s.context.clock s.own.restarted,
          s.context.publish a.key (s.own.lost s.context.clock s.own.restarted).snapshot⟩, []⟩ := by
  have hsettled : (Lifecycle.intercept a.key none s.own.restarted s).Settled :=
    Ending.settled_of_fault rfl
  rw [runDirect, Lifecycle.direct_refused h]
  exact Lifecycle.thenPublish_eq a.key hsettled

theorem handledAgain (a : Action) : a.HandledAgain s := by
  have hhandle := handle_of_used h a
  obtain ⟨hresult, hown, hjournal⟩ := Lifecycle.thenPublish_keeps a.key
    (Lifecycle.intercept a.key a.recovery s.own.restarted) s
  refine ⟨?_, fun b hkey herror => ?_, fun m hm => ?_, fun hnone => ?_⟩
  · obtain ⟨records, hrecord⟩ :=
      Lifecycle.intercept_keeps a.key a.recovery s.own.restarted s
    rw [hhandle, hown, hrecord]
    exact s.own.spoilt_lost s.context.clock records
  · have hrecovery : b.recovery = a.recovery := by rw [recovery, recovery, herror]
    rw [hhandle, handle_of_used h b, hkey, hrecovery]
  · rw [hhandle, hjournal] at hm
    rcases List.mem_cons.mp hm with rfl | hm
    · exact .inl rfl
    · exact .inr (Lifecycle.path_of_intercept a.key a.recovery s.own.restarted s m hm)
  · have hrecovery : a.recovery = none := by rw [recovery, hnone]; rfl
    have hsettled : (Lifecycle.intercept a.key none s.own.restarted s).Settled :=
      Ending.settled_of_fault rfl
    rw [hhandle, hrecovery, Lifecycle.thenPublish_eq a.key hsettled]
    exact ⟨rfl, rfl⟩

/-- A used record is refused in both ways to run an action. -/
theorem used_record_refused (a : Action) : a.HandledAgain s ∧ a.RunAgain s := by
  have hdirect := runDirect_of_used h a
  refine ⟨handledAgain h a, ?_, fun b hkey => ?_, ?_, ?_, ?_⟩
  · rw [hdirect]
    exact s.own.spoilt_lost s.context.clock _
  · rw [hdirect, runDirect_of_used h b, hkey]
  · rw [hdirect]
  · rw [hdirect]
  · rw [hdirect]

omit h in
/-- An action that was left while it ran: its error actions run, and the variable is not set. -/
theorem used_record_refused_running :
    let a := assigning "set" "x" none (.bool true) [idle "report"]
    let r : Record := { a.freshRecord.begun "earlier" with stage := .running, succeeded := true }
    let s : Frame Record := ⟨r, .start "run" "now" .null⟩
    s.own.stage ≠ .notStarted ∧ a.HandledAgain s ∧ a.RunAgain s ∧
      (a.handle s).state.own.startedAt = some "earlier" ∧
      Entries.keys (a.handle s).state.own.errorActions = ["report"] ∧
      (a.handle s).state.context.vars = [] := by
  intro a r s
  have hused : s.own.stage ≠ .notStarted := nofun
  obtain ⟨hhandled, hrun⟩ := used_record_refused hused a
  exact ⟨hused, hhandled, hrun, hhandled.record.startedAt, by decide +kernel, by decide +kernel⟩

end Action

end ActionFlow
