import ActionFlow.Proofs.Steps

/-!
# What handling an action comes to

An attempt at an action stops before its logic, is skipped, or runs the logic and then completes or
not.  What follows depends on the fault of the attempt and on whether there are error actions.  Each
of these courses is a constructor here, with the record and the context that it leaves, so that an
invariant of runs is a case for each of them.
-/
namespace ActionFlow

namespace Record

def begun (now : String) (r : Record) : Record :=
  { r with stage := .started, startedAt := some now }

def atStage (stage : Stage) (r : Record) : Record := { r with stage := stage }

def succeededAt (now : String) (stage : Stage) (r : Record) : Record :=
  { r with stage := stage, completedAt := some now, succeeded := true }

theorem lost_eq (now : String) (fault : Fault) (r : Record) :
    r.lost now fault =
      { r with
        stage := if r.stage.isTerminal then r.stage else .completed
        completedAt := if r.stage.isTerminal then r.completedAt else some now
        fault := some fault
        succeeded := false } := by
  cases h : r.stage.isTerminal <;> simp [lost, finish, recordFault, h]

theorem lost_of_unfinished {r : Record} (h : r.stage.isTerminal = false) (now : String)
    (fault : Fault) :
    r.lost now fault =
      { r with
        stage := .completed
        completedAt := some now
        fault := some fault
        succeeded := false } := by
  rw [lost_eq, h]
  rfl

@[simp] theorem fault_lost (now : String) (fault : Fault) (r : Record) :
    (r.lost now fault).fault = some fault := by rw [lost_eq]

@[simp] theorem errorActions_lost (now : String) (fault : Fault) (r : Record) :
    (r.lost now fault).errorActions = r.errorActions := by rw [lost_eq]

@[simp] theorem detail_lost (now : String) (fault : Fault) (r : Record) :
    (r.lost now fault).detail = r.detail := by rw [lost_eq]

end Record

def Detail.Childless {ρ : Type} : Detail ρ → Prop
  | group _ children => children = []
  | iterate _ iterations => iterations = []
  | raiseError | setVariable _ | external _ => True

theorem Kind.childless_detail (kind : Kind Action) : kind.detail.Childless := by
  rcases kind with _ | _ | (_ | _ | _) <;> simp [Kind.detail, Detail.Childless]

/-- A started record once the fault `x` or none is put down, before error actions. -/
structure Record.Shut (x : Option Fault) (r : Record) : Prop where
  stage : r.stage.isTerminal = true
  startedAt : r.startedAt.isSome = true
  completedAt : r.completedAt.isSome = true
  fault : r.fault = x
  succeeded : r.succeeded = x.isNone
  errorActions : r.errorActions = []
  skipped : r.stage = .skipped → x = none ∧ r.detail.Childless

namespace Lifecycle

open ActionFlow.Frame

theorem reads_check (key : String) (conditions : List ErrorCondition) :
    Reads (check key conditions) := by
  induction conditions with
  | nil => exact reads_pure ()
  | cons c rest ih =>
    refine reads_bind (reads_resolve key _) fun holds => ?_
    cases holds with
    | true => exact reads_bind (reads_resolve key _) fun fault => reads_fail fault
    | false => exact ih

theorem reads_wanted (head : Head) : Reads (wanted head) := by
  unfold wanted
  cases head.runCondition with
  | none => exact reads_pure true
  | some c => exact reads_resolve head.key _

/-- How the logic ends when it is reached from the record `r` in the context `c`. -/
def logicEnding (logic : Step (Frame Record) Unit) (r : Record) (c : Context) :
    Ending (Frame Record) Unit := logic ⟨(r.begun c.clock).atStage .running, c⟩

/-- What an attempt at an action comes to, from the record `r` in the context `c`: its result and
the state that it leaves. -/
inductive Attempt (logic : Step (Frame Record) Unit) (r : Record) (c : Context) :
    Except (Stop Fault) Unit → Frame Record → Prop
  | stopped {stop : Stop Fault} (stage : Stage) (unfinished : stage.isTerminal = false) :
      Attempt logic r c (.error stop) ⟨(r.begun c.clock).atStage stage, c⟩
  | skipped : Attempt logic r c (.ok ()) ⟨(r.begun c.clock).succeededAt c.clock .skipped, c⟩
  | failed {stop : Stop Fault} (result : (logicEnding logic r c).result = .error stop) :
      Attempt logic r c (.error stop) (logicEnding logic r c).state
  | refused {stop : Stop Fault} (result : (logicEnding logic r c).result = .ok ()) :
      Attempt logic r c (.error stop)
        ⟨(logicEnding logic r c).state.own.atStage .afterRunErrorChecking,
          (logicEnding logic r c).state.context⟩
  | completed (result : (logicEnding logic r c).result = .ok ()) :
      Attempt logic r c (.ok ())
        ⟨(logicEnding logic r c).state.own.succeededAt
            (logicEnding logic r c).state.context.clock .completed,
          (logicEnding logic r c).state.context⟩

/-- The logic, if it succeeds, leaves the record at the stage it is reached at. -/
def KeepsStage (logic : Step (Frame Record) Unit) (r : Record) (c : Context) : Prop :=
  (logicEnding logic r c).result = .ok () → (logicEnding logic r c).state.own.stage = .running

variable {head : Head} {logic : Step (Frame Record) Unit} {r : Record} {c : Context}

theorem begin_bind {α : Type} {s : Frame Record} (h : s.own.stage = .notStarted)
    (next : Unit → Step (Frame Record) α) :
    (move .started >>= next) s = next () ⟨s.own.begun s.context.clock, s.context⟩ :=
  move_bind (by rw [h]; rfl) next

/-- The stages between the beginning and the end carry no time. -/
theorem advance_bind {α : Type} {target : Stage} {s : Frame Record}
    (h : s.own.stage.canMove target = true)
    (ht : target = .beforeRunErrorChecking ∨ target = .running ∨ target = .afterRunErrorChecking)
    (next : Unit → Step (Frame Record) α) :
    (move target >>= next) s = next () ⟨s.own.atStage target, s.context⟩ := by
  rw [move_bind h]
  rcases ht with rfl | rfl | rfl <;> rfl

/-- The course of an action from its logic on. -/
def fromLogic (head : Head) (logic : Step (Frame Record) Unit) : Step (Frame Record) Unit := do
  logic
  move .afterRunErrorChecking
  check head.key head.after
  move .completed
  succeed

theorem attempt_from_logic (head : Head) (hl : KeepsStage logic r c) :
    Attempt logic r c (fromLogic head logic ⟨(r.begun c.clock).atStage .running, c⟩).result
      (fromLogic head logic ⟨(r.begun c.clock).atStage .running, c⟩).state := by
  have hran : logic ⟨(r.begun c.clock).atStage .running, c⟩ = logicEnding logic r c := rfl
  cases hr : (logicEnding logic r c).result with
  | error stop =>
    rw [fromLogic, Step.bind_of_error hr]
    exact .failed hr
  | ok u =>
    rw [fromLogic, Step.bind_of_ok hr, hran]
    have hstage :
        (logicEnding logic r c).state.own.stage.canMove .afterRunErrorChecking = true := by
      rw [hl hr]
      rfl
    rw [advance_bind hstage (by simp)]
    rcases (reads_check head.key head.after).bind_cases _
        ⟨(logicEnding logic r c).state.own.atStage .afterRunErrorChecking,
          (logicEnding logic r c).state.context⟩ with ⟨stop, h1, h2⟩ | ⟨u, -, h1, h2⟩
    · rw [h1, h2]
      exact .refused hr
    · rw [h1, h2]
      exact .completed hr

theorem attempted_attempt (head : Head) (hr : r.stage = .notStarted) (hl : KeepsStage logic r c) :
    Attempt logic r c (attempted head logic ⟨r, c⟩).result (attempted head logic ⟨r, c⟩).state := by
  unfold attempted
  rw [begin_bind hr]
  rcases (reads_ensureNotCancelled head.key).bind_cases _ ⟨r.begun c.clock, c⟩ with
    ⟨stop, h1, h2⟩ | ⟨u, -, h1, h2⟩
  · rw [h1, h2]
    exact .stopped .started rfl
  rw [h1, h2]
  rcases (reads_wanted head).bind_cases _ ⟨r.begun c.clock, c⟩ with
    ⟨stop, h1, h2⟩ | ⟨wants, -, h1, h2⟩
  · rw [h1, h2]
    exact .stopped .started rfl
  rw [h1, h2]
  cases wants with
  | false => exact .skipped
  | true =>
    simp only [if_true]
    unfold course
    rw [advance_bind (by rfl) (by simp)]
    rcases (reads_check head.key head.before).bind_cases _
        ⟨(r.begun c.clock).atStage .beforeRunErrorChecking, c⟩ with ⟨stop, h1, h2⟩ | ⟨u, -, h1, h2⟩
    · rw [h1, h2]
      exact .stopped .beforeRunErrorChecking rfl
    rw [h1, h2]
    rw [advance_bind (by rfl) (by simp)]
    exact attempt_from_logic head hl

/-! ### Handling -/

/-- What a settled handling of an action comes to, from the record `r` in the context `c`: its
result and the state that it leaves. -/
inductive Handled (key : String) (logic : Step (Frame Record) Unit)
    (recovery : Option (Step (Frame (Entries Record)) Unit)) (r : Record) (c : Context) :
    Except (Stop Fault) Unit → Frame Record → Prop
  | passed {s : Frame Record} (attempt : Attempt logic r c (.ok ()) s) :
      Handled key logic recovery r c (.ok ()) ⟨s.own, s.context.publish key s.own.snapshot⟩
  | escaped {s : Frame Record} {fault : Fault}
      (attempt : Attempt logic r c (.error (.error fault)) s) (none : recovery = none) :
      Handled key logic recovery r c (.error (.error fault))
        ⟨s.own.lost s.context.clock fault,
          s.context.publish key (s.own.lost s.context.clock fault).snapshot⟩
  | recovered {s : Frame Record} {fault : Fault} {sequence : Step (Frame (Entries Record)) Unit}
      {e : Ending (Frame (Entries Record)) Unit}
      (attempt : Attempt logic r c (.error (.error fault)) s) (some : recovery = some sequence)
      (ran : sequence ⟨[], s.context.publish key (s.own.lost s.context.clock fault).snapshot⟩ = e)
      (settled : e.Settled) :
      Handled key logic recovery r c e.result
        ⟨{ s.own.lost s.context.clock fault with errorActions := e.state.own },
          e.state.context.publish key (s.own.lost s.context.clock fault).snapshot⟩

theorem thenPublish_eq (key : String) {step : Step (Frame Record) Unit} {s : Frame Record}
    (h : (step s).Settled) :
    thenPublish key step s =
      ⟨(step s).result,
        ⟨(step s).state.own, (step s).state.context.publish key (step s).state.own.snapshot⟩,
        (step s).journal⟩ := by
  rcases h.ok_or_fault with ⟨_, hr⟩ | ⟨fault, hr⟩
  · rw [thenPublish, Step.attempt_bind_of_ok hr, hr]
    simp only [publish_bind, Step.ofExcept_ok, List.append_nil]
  · rw [thenPublish, Step.attempt_bind_of_fault hr, hr]
    simp only [publish_bind, Step.ofExcept_error, List.append_nil]

theorem thenPublish_of_settled (key : String) {step : Step (Frame Record) Unit} {s : Frame Record}
    (h : (step s).Settled) :
    (thenPublish key step s).result = (step s).result ∧
      (thenPublish key step s).state =
        ⟨(step s).state.own, (step s).state.context.publish key (step s).state.own.snapshot⟩ := by
  rw [thenPublish_eq key h]
  exact ⟨rfl, rfl⟩

theorem thenPublish_keeps (key : String) (step : Step (Frame Record) Unit) (s : Frame Record) :
    (thenPublish key step s).result = (step s).result ∧
      (thenPublish key step s).state.own = (step s).state.own ∧
      (thenPublish key step s).journal = (step s).journal := by
  by_cases h : (step s).Settled
  · rw [thenPublish_eq key h]
    exact ⟨rfl, rfl, rfl⟩
  · obtain ⟨panic, hp⟩ := Ending.panic_of_not_settled h
    rw [thenPublish, Step.attempt_bind_of_panic hp, hp]
    exact ⟨rfl, rfl, rfl⟩

theorem settled_of_thenPublish {key : String} {step : Step (Frame Record) Unit} {s : Frame Record}
    (h : (thenPublish key step s).Settled) : (step s).Settled := by
  rw [← Ending.settled_congr (thenPublish_keeps key step s).1]
  exact h

def guarded (head : Head) (logic : Step (Frame Record) Unit)
    (recovery : Option (Step (Frame (Entries Record)) Unit)) : Step (Frame Record) Unit := do
  match ← (attempted head logic).attempt with
  | .ok () => pure ()
  | .error fault => intercept head.key recovery fault

theorem handle_eq (head : Head) (logic : Step (Frame Record) Unit)
    (recovery : Option (Step (Frame (Entries Record)) Unit)) :
    handle head logic recovery =
      (do mark head.key .entered; thenPublish head.key (guarded head logic recovery)) := rfl

theorem handle_apply (head : Head) (logic : Step (Frame Record) Unit)
    (recovery : Option (Step (Frame (Entries Record)) Unit)) (s : Frame Record) :
    handle head logic recovery s =
      ⟨(thenPublish head.key (guarded head logic recovery) s).result,
        (thenPublish head.key (guarded head logic recovery) s).state,
        ⟨[.action head.key], .entered, s.context⟩ ::
          (thenPublish head.key (guarded head logic recovery) s).journal⟩ := rfl

theorem guarded_of_ok (recovery : Option (Step (Frame (Entries Record)) Unit)) {s : Frame Record}
    (h : (attempted head logic s).result = .ok ()) :
    (guarded head logic recovery s).result = .ok () ∧
      (guarded head logic recovery s).state = (attempted head logic s).state := by
  rw [guarded, Step.attempt_bind_of_ok h]
  exact ⟨rfl, rfl⟩

theorem guarded_of_fault (recovery : Option (Step (Frame (Entries Record)) Unit))
    {s : Frame Record} {fault : Fault}
    (h : (attempted head logic s).result = .error (.error fault)) :
    (guarded head logic recovery s).result =
        (intercept head.key recovery fault (attempted head logic s).state).result ∧
      (guarded head logic recovery s).state =
        (intercept head.key recovery fault (attempted head logic s).state).state := by
  rw [guarded, Step.attempt_bind_of_fault h]
  exact ⟨rfl, rfl⟩

theorem guarded_of_panic {recovery : Option (Step (Frame (Entries Record)) Unit)}
    {s : Frame Record} {panic : Panic}
    (h : (attempted head logic s).result = .error (.panic panic)) :
    (guarded head logic recovery s).result = .error (.panic panic) := by
  rw [guarded, Step.attempt_bind_of_panic h]

theorem intercept_none (key : String) (fault : Fault) (s : Frame Record) :
    intercept key none fault s =
      ⟨.error (.error fault), ⟨s.own.lost s.context.clock fault, s.context⟩, []⟩ := rfl

theorem intercept_some (key : String) (sequence : Step (Frame (Entries Record)) Unit)
    (fault : Fault) (s : Frame Record) :
    intercept key (some sequence) fault s =
      file (.recovery key) [] sequence (fun records r => { r with errorActions := records })
        ⟨s.own.lost s.context.clock fault,
          s.context.publish key (s.own.lost s.context.clock fault).snapshot⟩ := rfl

theorem handle_handled {recovery : Option (Step (Frame (Entries Record)) Unit)}
    (hr : r.stage = .notStarted) (hl : KeepsStage logic r c)
    (hs : (handle head logic recovery ⟨r, c⟩).Settled) :
    Handled head.key logic recovery r c (handle head logic recovery ⟨r, c⟩).result
      (handle head logic recovery ⟨r, c⟩).state := by
  have hh : (handle head logic recovery ⟨r, c⟩).result =
        (thenPublish head.key (guarded head logic recovery) ⟨r, c⟩).result ∧
      (handle head logic recovery ⟨r, c⟩).state =
        (thenPublish head.key (guarded head logic recovery) ⟨r, c⟩).state := ⟨rfl, rfl⟩
  rw [hh.1, hh.2]
  have hguarded : (guarded head logic recovery ⟨r, c⟩).Settled :=
    settled_of_thenPublish ((Ending.settled_congr hh.1).mp hs)
  obtain ⟨h1, h2⟩ := thenPublish_of_settled head.key hguarded
  rw [h1, h2]
  -- What follows the attempt depends on how it ended; a panic would not be settled.
  have ha := attempted_attempt head hr hl
  cases hresult : (attempted head logic ⟨r, c⟩).result with
  | ok u =>
    obtain ⟨g1, g2⟩ := guarded_of_ok recovery hresult
    rw [hresult] at ha
    rw [g1, g2]
    exact .passed ha
  | error stop =>
    cases stop with
    | panic panic => exact absurd (guarded_of_panic hresult) (hguarded panic)
    | error fault =>
      obtain ⟨g1, g2⟩ := guarded_of_fault recovery hresult
      rw [hresult] at ha
      have hintercept := (Ending.settled_congr g1).mp hguarded
      rw [g1, g2]
      cases recovery with
      | none =>
        rw [intercept_none]
        exact .escaped ha rfl
      | some sequence =>
        rw [intercept_some] at hintercept ⊢
        have hsequence := settled_of_file hintercept
        rw [file_of_settled _ _ hsequence]
        exact .recovered ha rfl rfl hsequence

end Lifecycle

end ActionFlow
