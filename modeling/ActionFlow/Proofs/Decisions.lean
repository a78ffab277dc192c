import ActionFlow.Proofs.Closing
import ActionFlow.Proofs.Traces
import ActionFlow.Proofs.TurnEndings

/-!
# In which order an action decides

An action goes from its run condition over the conditions before it to its logic, and on to the
conditions after it.  What would stop it in each phase is listed in that order, with the frame in
which it is found; the first of the list is what the action fails with, and error actions decide
what becomes of that.  All this holds for any logic: the order in which tasks inside take turns
matters only to how the logic and the error actions end.
-/
namespace ActionFlow

open ActionFlow.Frame

/-! ### What stops an action -/

def Ending.stop? {σ α : Type} (e : Ending σ α) : Option (Stop Fault) :=
  match e.result with
  | .ok _ => none
  | .error stop => some stop

/-- A condition fails when it holds, with the fault that is set for it, and when it gives no
answer. -/
def ErrorCondition.stop? (e : ErrorCondition) (c : Context) : Option (Stop Fault) :=
  match e.condition.resolve c with
  | .ok false => none
  | .ok true =>
    match e.fault.resolve c with
    | .ok fault => some (.error fault)
    | .error stop => some (reported stop)
  | .error stop => some (reported stop)

namespace Head

/-- Whether the action is to run at all; without a condition it is. -/
def wants (head : Head) (c : Context) : Resolution Bool :=
  match head.runCondition with
  | none => .ok true
  | some condition => condition.resolve c

def unanswered (head : Head) (c : Context) : List (Stop Fault) :=
  match head.wants c with
  | .ok _ => []
  | .error stop => [reported stop]

/-- The run condition holds, and no condition before the run does. -/
def Admits (head : Head) (c : Context) : Prop :=
  head.wants c = .ok true ∧ ∀ e ∈ head.before, e.condition.resolve c = .ok false

end Head

namespace Lifecycle

def verdict : List (Stop Fault) → Except (Stop Fault) Unit
  | [] => .ok ()
  | stop :: _ => .error stop

def stopsBefore (head : Head) (c : Context) : List (Stop Fault) :=
  head.unanswered c ++ head.before.filterMap fun e => e.stop? c

/-- What stops an action once its logic has run; the conditions see what the logic left. -/
def stopsAfter (head : Head) (e : Ending (Frame Record) Unit) : List (Stop Fault) :=
  e.stop?.toList ++ head.after.filterMap fun condition => condition.stop? e.state.context

variable {head : Head} {logic : Step (Frame Record) Unit} {r : Record} {c : Context}

/-! ### Checks -/

theorem result_wanted (head : Head) (s : Frame Record) :
    (wanted head s).result = (head.wants s.context).mapError reported := by
  unfold wanted Head.wants
  cases head.runCondition with
  | none => rfl
  | some condition => exact result_resolve _ _ s

theorem result_check (key : String) (conditions : List ErrorCondition) (s : Frame Record) :
    (check key conditions s).result =
      verdict (conditions.filterMap fun e => e.stop? s.context) := by
  induction conditions with
  | nil => rfl
  | cons e rest ih =>
    have hresult := result_resolve key (fun ctx => e.condition.resolve ctx) s
    rw [check, List.filterMap_cons, ErrorCondition.stop?]
    rcases hr : e.condition.resolve s.context with stop | holds
    · rw [hr] at hresult
      rw [Step.bind_of_error hresult]
      rfl
    · rw [(resolve_bind_of_ok hr key _).1]
      cases holds with
      | false => exact ih
      | true =>
        have hfault := result_resolve key e.fault.resolve s
        simp only [if_true]
        rcases hf : e.fault.resolve s.context with stop | fault
        · rw [hf] at hfault
          rw [Step.bind_of_error hfault]
          rfl
        · rw [(resolve_bind_of_ok hf key _).1]
          rfl

theorem stop?_eq_none_iff {e : ErrorCondition} :
    e.stop? c = none ↔ e.condition.resolve c = .ok false := by
  unfold ErrorCondition.stop?
  rcases e.condition.resolve c with stop | holds
  · simp
  · cases holds with
    | false => simp
    | true => cases e.fault.resolve c <;> simp

theorem admits_iff : head.Admits c ↔ head.wants c = .ok true ∧ stopsBefore head c = [] := by
  have hbefore : (head.before.filterMap fun e => e.stop? c) = [] ↔
      ∀ e ∈ head.before, e.condition.resolve c = .ok false := by
    simp only [List.filterMap_eq_nil_iff, stop?_eq_none_iff]
  unfold Head.Admits stopsBefore
  constructor
  · rintro ⟨hwants, hall⟩
    rw [Head.unanswered, hwants, hbefore.mpr hall]
    exact ⟨rfl, rfl⟩
  · rintro ⟨hwants, hstops⟩
    exact ⟨hwants, hbefore.mp (List.append_eq_nil_iff.mp hstops).2⟩

/-! ### Up to the logic -/

section Live

variable (hr : r.stage = .notStarted) (hc : c.cancelled = false)
  (logic : Step (Frame Record) Unit)

include hr hc

theorem attempted_of_live (head : Head) :
    attempted head logic ⟨r, c⟩ =
      (do
        if ← wanted head then course head logic
        else
          move .skipped
          succeed) ⟨r.begun c.clock, c⟩ := by
  unfold attempted
  rw [begin_bind hr, ensureNotCancelled_bind hc]

theorem attempted_of_unwanted (h : head.wants c = .ok false) :
    (attempted head logic ⟨r, c⟩).result = .ok () ∧
      (attempted head logic ⟨r, c⟩).state =
        ⟨(r.begun c.clock).succeededAt c.clock .skipped, c⟩ := by
  have hwanted := result_wanted head ⟨r.begun c.clock, c⟩
  rw [h] at hwanted
  rw [attempted_of_live hr hc logic, (reads_wanted head).bind_eq hwanted]
  exact ⟨rfl, rfl⟩

theorem attempted_of_wanted (h : head.wants c = .ok true) :
    ∃ asked, attempted head logic ⟨r, c⟩ =
      ⟨(course head logic ⟨r.begun c.clock, c⟩).result,
        (course head logic ⟨r.begun c.clock, c⟩).state,
        asked ++ (course head logic ⟨r.begun c.clock, c⟩).journal⟩ := by
  have hwanted := result_wanted head ⟨r.begun c.clock, c⟩
  rw [h] at hwanted
  rw [attempted_of_live hr hc logic, (reads_wanted head).bind_eq hwanted]
  exact ⟨_, rfl⟩

/-- An action that something stops before its logic is still where it was begun. -/
theorem attempted_of_blocked (hw : head.wants c ≠ .ok false) {stop : Stop Fault}
    {rest : List (Stop Fault)} (h : stopsBefore head c = stop :: rest) :
    (attempted head logic ⟨r, c⟩).result = .error stop ∧
      ∃ stage, stage.isTerminal = false ∧
        (attempted head logic ⟨r, c⟩).state = ⟨(r.begun c.clock).atStage stage, c⟩ := by
  have hwanted := result_wanted head ⟨r.begun c.clock, c⟩
  unfold stopsBefore Head.unanswered at h
  rcases hwants : head.wants c with unanswered | wants
  · rw [hwants] at hwanted h
    obtain ⟨rfl, -⟩ := List.cons.inj h
    rw [attempted_of_live hr hc logic, Step.bind_of_error hwanted, reads_wanted]
    exact ⟨rfl, .started, rfl, rfl⟩
  · rw [hwants] at h
    obtain rfl : wants = true := by
      cases wants with
      | true => rfl
      | false => exact absurd hwants hw
    obtain ⟨asked, he⟩ := attempted_of_wanted hr hc logic hwants
    have hcheck := result_check head.key head.before
      ⟨(r.begun c.clock).atStage .beforeRunErrorChecking, c⟩
    have hstops : (head.before.filterMap fun e => e.stop? c) = stop :: rest := h
    rw [hstops] at hcheck
    rw [he, course, advance_bind rfl (by simp), Step.bind_of_error hcheck, reads_check]
    exact ⟨rfl, .beforeRunErrorChecking, rfl, rfl⟩

theorem attempted_of_admits (h : head.Admits c) :
    ∃ asked, attempted head logic ⟨r, c⟩ =
      ⟨(fromLogic head logic ⟨(r.begun c.clock).atStage .running, c⟩).result,
        (fromLogic head logic ⟨(r.begun c.clock).atStage .running, c⟩).state,
        asked ++ (fromLogic head logic ⟨(r.begun c.clock).atStage .running, c⟩).journal⟩ := by
  obtain ⟨hwants, hstops⟩ := admits_iff.mp h
  obtain ⟨asked, he⟩ := attempted_of_wanted hr hc logic hwants
  have hcheck := result_check head.key head.before
    ⟨(r.begun c.clock).atStage .beforeRunErrorChecking, c⟩
  rw [(List.append_eq_nil_iff.mp hstops).2] at hcheck
  have hadvance : (move .running >>= fun _ => fromLogic head logic)
      ⟨(r.begun c.clock).atStage .beforeRunErrorChecking, c⟩ =
        fromLogic head logic ⟨(r.begun c.clock).atStage .running, c⟩ :=
    advance_bind rfl (by simp) _
  have hcourse : course head logic ⟨r.begun c.clock, c⟩ =
      (check head.key head.before >>= fun _ => move .running >>= fun _ => fromLogic head logic)
        ⟨(r.begun c.clock).atStage .beforeRunErrorChecking, c⟩ := advance_bind rfl (by simp) _
  rw [he, hcourse, (reads_check _ _).bind_eq hcheck, hadvance, ← List.append_assoc]
  exact ⟨_, rfl⟩

end Live

/-! ### From the logic on -/

section Ran

variable (hl : KeepsStage logic r c)

include hl

theorem after_bind (hok : (logicEnding logic r c).result = .ok ())
    (next : Unit → Step (Frame Record) Unit) :
    (move .afterRunErrorChecking >>= next) (logicEnding logic r c).state =
      next () ⟨(logicEnding logic r c).state.own.atStage .afterRunErrorChecking,
        (logicEnding logic r c).state.context⟩ := by
  have hmove : (logicEnding logic r c).state.own.stage.canMove .afterRunErrorChecking = true := by
    rw [hl hok]
    rfl
  exact advance_bind hmove (by simp) next

/-- The record closes as the logic left it, whichever check stops the action. -/
theorem fromLogic_of_stop {stop : Stop Fault} {rest : List (Stop Fault)}
    (h : stopsAfter head (logicEnding logic r c) = stop :: rest) :
    (fromLogic head logic ⟨(r.begun c.clock).atStage .running, c⟩).result = .error stop ∧
      (fromLogic head logic ⟨(r.begun c.clock).atStage .running, c⟩).state.context =
        (logicEnding logic r c).state.context ∧
      ∀ now fault,
        (fromLogic head logic ⟨(r.begun c.clock).atStage .running, c⟩).state.own.lost now fault =
          (logicEnding logic r c).state.own.lost now fault := by
  have hran : logic ⟨(r.begun c.clock).atStage .running, c⟩ = logicEnding logic r c := rfl
  unfold stopsAfter Ending.stop? at h
  rcases hresult : (logicEnding logic r c).result with broken | _
  · rw [hresult] at h
    obtain ⟨rfl, -⟩ := List.cons.inj h
    rw [fromLogic, Step.bind_of_error hresult, hran]
    exact ⟨rfl, rfl, fun _ _ => rfl⟩
  · rw [hresult] at h
    have hcheck := result_check head.key head.after
      ⟨(logicEnding logic r c).state.own.atStage .afterRunErrorChecking,
        (logicEnding logic r c).state.context⟩
    have hstops : (head.after.filterMap fun e => e.stop? (logicEnding logic r c).state.context) =
        stop :: rest := h
    rw [hstops] at hcheck
    have hopen : (logicEnding logic r c).state.own.stage.isTerminal = false := by
      rw [hl hresult]
      rfl
    rw [fromLogic, Step.bind_of_ok hresult, hran, after_bind hl hresult, Step.bind_of_error hcheck,
      reads_check]
    refine ⟨rfl, rfl, fun now fault => ?_⟩
    rw [Record.lost_of_unfinished hopen, Record.lost_of_unfinished rfl]
    rfl

theorem fromLogic_of_clear (h : stopsAfter head (logicEnding logic r c) = []) :
    (logicEnding logic r c).result = .ok () ∧
      (fromLogic head logic ⟨(r.begun c.clock).atStage .running, c⟩).result = .ok () ∧
      (fromLogic head logic ⟨(r.begun c.clock).atStage .running, c⟩).state =
        ⟨(logicEnding logic r c).state.own.succeededAt
            (logicEnding logic r c).state.context.clock .completed,
          (logicEnding logic r c).state.context⟩ := by
  have hran : logic ⟨(r.begun c.clock).atStage .running, c⟩ = logicEnding logic r c := rfl
  obtain ⟨hlogic, hafter⟩ := List.append_eq_nil_iff.mp h
  unfold Ending.stop? at hlogic
  rcases hresult : (logicEnding logic r c).result with broken | _
  · rw [hresult] at hlogic
    cases hlogic
  · have hcheck := result_check head.key head.after
      ⟨(logicEnding logic r c).state.own.atStage .afterRunErrorChecking,
        (logicEnding logic r c).state.context⟩
    rw [hafter] at hcheck
    rw [fromLogic, Step.bind_of_ok hresult, hran, after_bind hl hresult,
      (reads_check _ _).bind_eq hcheck]
    exact ⟨rfl, rfl, rfl⟩

end Ran

/-! ### After the attempt -/

theorem intercept_keeps (key : String) (recovery : Option (Step (Frame (Entries Record)) Unit))
    (fault : Fault) (s : Frame Record) :
    ∃ records, (intercept key recovery fault s).state.own =
      { s.own.lost s.context.clock fault with errorActions := records } := by
  cases recovery with
  | none => exact ⟨(s.own.lost s.context.clock fault).errorActions, rfl⟩
  | some sequence =>
    rw [intercept_some]
    by_cases h : (sequence ⟨[], s.context.publish key
        (s.own.lost s.context.clock fault).snapshot⟩).Settled
    · rw [file_of_settled _ _ h]
      exact ⟨_, rfl⟩
    · obtain ⟨panic, hp⟩ := Ending.panic_of_not_settled h
      rw [file_of_panic _ _ hp]
      exact ⟨(s.own.lost s.context.clock fault).errorActions, rfl⟩

theorem path_of_intercept (key : String)
    (recovery : Option (Step (Frame (Entries Record)) Unit)) (fault : Fault) (s : Frame Record) :
    ∀ m ∈ (intercept key recovery fault s).journal, ∃ path, m.path = .recovery key :: path := by
  intro m hm
  cases recovery with
  | none => cases hm
  | some sequence =>
    rw [intercept_some, journal_file] at hm
    obtain ⟨inner, -, rfl⟩ := List.mem_map.mp hm
    exact ⟨inner.path, rfl⟩

theorem journal_guarded (head : Head) (logic : Step (Frame Record) Unit)
    (recovery : Option (Step (Frame (Entries Record)) Unit)) (s : Frame Record) :
    ∃ later, (guarded head logic recovery s).journal =
        (attempted head logic s).journal ++ later ∧
      ∀ m ∈ later, ∃ path, m.path = .recovery head.key :: path := by
  rcases hr : (attempted head logic s).result with (fault | panic) | _
  · rw [guarded, Step.attempt_bind_of_fault hr]
    exact ⟨_, rfl, path_of_intercept head.key recovery fault _⟩
  · rw [guarded, Step.attempt_bind_of_panic hr]
    exact ⟨[], (List.append_nil _).symm, List.forall_mem_nil _⟩
  · rw [guarded, Step.attempt_bind_of_ok hr]
    exact ⟨[], rfl, List.forall_mem_nil _⟩

theorem verdict_eq_ok_iff {stops : List (Stop Fault)} : verdict stops = .ok () ↔ stops = [] := by
  cases stops <;> simp [verdict]

theorem admits_of_checked {s s' : Frame Record} (hs : s.context = c) (hs' : s'.context = c)
    (hwanted : (wanted head s).result = .ok true)
    (hcheck : (check head.key head.before s').result = .ok ()) : head.Admits c := by
  rw [result_wanted, hs, mapError_eq_ok_iff] at hwanted
  rw [result_check, hs', verdict_eq_ok_iff] at hcheck
  rw [admits_iff, stopsBefore, Head.unanswered, hwanted, hcheck]
  exact ⟨rfl, rfl⟩

/-- Where an action is not admitted, nothing comes of it but that providers are asked. -/
theorem quiet_of_not_admits (h : ¬ head.Admits c) (logic : Step (Frame Record) Unit) (r : Record) :
    ∀ m ∈ (attempted head logic ⟨r, c⟩).journal, m.event = .resolving := by
  have hasked : ∀ {d : Context}, True → (Moment.mk [.action head.key] .resolving d).event =
      .resolving := fun _ => rfl
  have hmove : ∀ target s, (move target s).Traces (fun _ => True) fun m => m.event = .resolving :=
    fun target s => traces_move target s trivial
  suffices htraces : (attempted head logic ⟨r, c⟩).Traces (fun _ => True)
      fun m => m.event = .resolving from htraces.2
  refine traces_bindAt (hmove _ _) fun u _ => ?_
  refine traces_bindAt (traces_ensureNotCancelled _ _ trivial) fun u _ => ?_
  refine traces_bindAt (traces_wanted hasked _ trivial) fun wants hwanted => ?_
  rw [reads_ensureNotCancelled] at hwanted
  rw [reads_wanted, reads_ensureNotCancelled]
  cases wants with
  | false => exact traces_bind (traces_move _) (fun _ => traces_modify _) _ trivial
  | true =>
    refine traces_bindAt (hmove _ _) fun u _ => ?_
    refine traces_bindAt (traces_check hasked _ _ trivial) fun u hcheck => ?_
    have hstarted : (move .started ⟨r, c⟩).state.context = c := context_move _ _
    exact absurd (admits_of_checked hstarted ((context_move _ _).trans hstarted) hwanted hcheck) h

/-! ### Deciding -/

/-- The failures phase by phase, each in the frame in which it is found: of the run condition and of
the conditions before the run in `c`, of the logic and of the conditions after the run in the
context that the logic leaves. -/
def failures (head : Head) (logic : Step (Frame Record) Unit) (r : Record) (c : Context) :
    List (Stop Fault × Frame Record) :=
  (stopsBefore head c).map (·, ⟨(r.begun c.clock).atStage .running, c⟩) ++
    (stopsAfter head (logicEnding logic r c)).map (·, (logicEnding logic r c).state)

/-- What the fault found in a frame comes to: it is the result unless there is a recovery, which
sees it published. -/
def remedied (key : String) (recovery : Option (Step (Frame (Entries Record)) Unit)) (fault : Fault)
    (s : Frame Record) : Except (Stop Fault) Unit :=
  match recovery with
  | none => .error (.error fault)
  | some sequence =>
    (sequence ⟨[], s.context.publish key (s.own.lost s.context.clock fault).snapshot⟩).result

/-- How a lifecycle decides from the record `r` in the context `c`, whatever its logic and its
recovery are. -/
structure Decides (head : Head) (logic : Step (Frame Record) Unit)
    (recovery : Option (Step (Frame (Entries Record)) Unit)) (r : Record) (c : Context) : Prop where
  runs : head.Admits c → ∃ before after, (handle head logic recovery ⟨r, c⟩).journal =
    before ++ ((logicEnding logic r c).journal ++ after)
  /-- Where the logic is not admitted, any other would do as well. -/
  spares : ¬ head.Admits c → ∀ other,
    handle head other recovery ⟨r, c⟩ = handle head logic recovery ⟨r, c⟩
  /-- An action that is not wanted succeeds, and all that it does is to publish its record. -/
  skips : head.wants c = .ok false →
    (handle head logic recovery ⟨r, c⟩).result = .ok () ∧
      (handle head logic recovery ⟨r, c⟩).state.own =
        (r.begun c.clock).succeededAt c.clock .skipped ∧
      (handle head logic recovery ⟨r, c⟩).state.context =
        c.publish head.key (handle head logic recovery ⟨r, c⟩).state.own.snapshot
  passes : head.wants c ≠ .ok false → failures head logic r c = [] →
    (logicEnding logic r c).result = .ok () ∧
      (handle head logic recovery ⟨r, c⟩).result = .ok () ∧
      (handle head logic recovery ⟨r, c⟩).state.own =
        (logicEnding logic r c).state.own.succeededAt
          (logicEnding logic r c).state.context.clock .completed
  /-- The first failure stays in the record, whatever the recovery comes to. -/
  fails : ∀ fault s rest, head.wants c ≠ .ok false →
    failures head logic r c = (.error fault, s) :: rest →
      (handle head logic recovery ⟨r, c⟩).state.own.fault = some fault ∧
        (handle head logic recovery ⟨r, c⟩).state.own.succeeded = false ∧
        (handle head logic recovery ⟨r, c⟩).result = remedied head.key recovery fault s
  panics : ∀ panic s rest, head.wants c ≠ .ok false →
    failures head logic r c = (.panic panic, s) :: rest →
      (handle head logic recovery ⟨r, c⟩).result = .error (.panic panic)
  ok_iff : (handle head logic recovery ⟨r, c⟩).result = .ok () ↔
    head.wants c = .ok false ∨ failures head logic r c = [] ∨
      ∃ fault s rest, failures head logic r c = (.error fault, s) :: rest ∧
        remedied head.key recovery fault s = .ok ()

theorem admits_of_clear (hw : head.wants c ≠ .ok false) (h : stopsBefore head c = []) :
    head.Admits c := by
  refine admits_iff.mpr ⟨?_, h⟩
  unfold stopsBefore Head.unanswered at h
  rcases hwants : head.wants c with stop | wants
  · rw [hwants] at h
    cases h
  · cases wants with
    | true => rfl
    | false => exact absurd hwants hw

section Live

variable (hr : r.stage = .notStarted) (hc : c.cancelled = false)

include hr hc

theorem attempted_of_not_admits (h : ¬ head.Admits c) (logic other : Step (Frame Record) Unit) :
    attempted head other ⟨r, c⟩ = attempted head logic ⟨r, c⟩ := by
  rw [attempted_of_live hr hc, attempted_of_live hr hc]
  have hwanted := result_wanted head ⟨r.begun c.clock, c⟩
  rcases hwants : head.wants c with stop | wants
  · rw [hwants] at hwanted
    rw [Step.bind_of_error hwanted, Step.bind_of_error hwanted]
  · rw [hwants] at hwanted
    rw [(reads_wanted head).bind_eq hwanted, (reads_wanted head).bind_eq hwanted]
    cases wants with
    | false => rfl
    | true =>
      have hcheck := result_check head.key head.before
        ⟨(r.begun c.clock).atStage .beforeRunErrorChecking, c⟩
      cases hstops : head.before.filterMap fun e => e.stop? c with
      | nil =>
        refine absurd (admits_iff.mpr ⟨hwants, ?_⟩) h
        rw [stopsBefore, Head.unanswered, hwants, hstops]
        rfl
      | cons stop rest =>
        have hfailed : (check head.key head.before
            ⟨(r.begun c.clock).atStage .beforeRunErrorChecking, c⟩).result = .error stop := by
          rw [hcheck, hstops]
          rfl
        have hcourse : ∀ logic, course head logic ⟨r.begun c.clock, c⟩ = _ := fun logic =>
          (advance_bind (by rfl) (by simp) _).trans (Step.bind_of_error hfailed)
        simp only [if_true]
        rw [hcourse, hcourse]

/-- An attempt that is the same for every logic does not come to it. -/
theorem not_admits_of_attempted {e : Ending (Frame Record) Unit}
    (h : ∀ logic, attempted head logic ⟨r, c⟩ = e) : ¬ head.Admits c := by
  intro hadmits
  -- If it came to its logic, any panic of the logic would be its result.
  have hpanics : ∀ panic, e.result = .error (.panic panic) := by
    intro panic
    let stopping : Step (Frame Record) Unit := fun s => ⟨.error (.panic panic), s, []⟩
    obtain ⟨asked, hattempt⟩ := attempted_of_admits hr hc stopping hadmits
    have hlogic : (fromLogic head stopping ⟨(r.begun c.clock).atStage .running, c⟩).result =
        .error (.panic panic) := congrArg Ending.result (Step.bind_of_error rfl)
    rw [← h stopping, hattempt, hlogic]
  cases (hpanics ⟨none⟩).symm.trans (hpanics ⟨some ""⟩)

section Wanted

variable (hl : KeepsStage logic r c) (hw : head.wants c ≠ .ok false)

include hl hw

/-- The first failure is what the attempt fails with, and the record that it leaves closes like the
one in which the failure is found. -/
theorem attempted_of_failure {stop : Stop Fault} {s : Frame Record}
    {rest : List (Stop Fault × Frame Record)} (h : failures head logic r c = (stop, s) :: rest) :
    (attempted head logic ⟨r, c⟩).result = .error stop ∧
      (attempted head logic ⟨r, c⟩).state.context = s.context ∧
      ∀ now fault,
        (attempted head logic ⟨r, c⟩).state.own.lost now fault = s.own.lost now fault := by
  unfold failures at h
  cases hbefore : stopsBefore head c with
  | cons first others =>
    rw [hbefore] at h
    obtain ⟨rfl, rfl⟩ := Prod.mk.inj (List.cons.inj h).1
    obtain ⟨hresult, stage, hstage, hstate⟩ := attempted_of_blocked hr hc logic hw hbefore
    -- The record has not come to the stage at which it is listed; closing it makes no difference.
    have hclosed : ∀ now fault, ((r.begun c.clock).atStage stage).lost now fault =
        ((r.begun c.clock).atStage .running).lost now fault := by
      intro now fault
      rw [Record.lost_of_unfinished (r := (r.begun c.clock).atStage stage) hstage,
        Record.lost_of_unfinished rfl]
      rfl
    rw [hstate]
    exact ⟨hresult, rfl, hclosed⟩
  | nil =>
    rw [hbefore, List.map_nil, List.nil_append] at h
    obtain ⟨asked, hattempt⟩ := attempted_of_admits hr hc logic (admits_of_clear hw hbefore)
    obtain ⟨first, others, hafter, hfirst, -⟩ := List.map_eq_cons_iff.mp h
    obtain ⟨rfl, rfl⟩ := Prod.mk.inj hfirst
    rw [hattempt]
    exact fromLogic_of_stop hl hafter

theorem attempted_of_no_failure (h : failures head logic r c = []) :
    (logicEnding logic r c).result = .ok () ∧ (attempted head logic ⟨r, c⟩).result = .ok () ∧
      (attempted head logic ⟨r, c⟩).state.own = (logicEnding logic r c).state.own.succeededAt
        (logicEnding logic r c).state.context.clock .completed := by
  obtain ⟨hbefore, hafter⟩ := List.append_eq_nil_iff.mp h
  obtain ⟨asked, hattempt⟩ :=
    attempted_of_admits hr hc logic (admits_of_clear hw (List.map_eq_nil_iff.mp hbefore))
  obtain ⟨hran, hresult, hstate⟩ := fromLogic_of_clear hl (List.map_eq_nil_iff.mp hafter)
  rw [hattempt]
  exact ⟨hran, hresult, congrArg Frame.own hstate⟩

end Wanted

end Live

/-! ### The whole handling -/

section Handling

variable {recovery : Option (Step (Frame (Entries Record)) Unit)} {s : Frame Record}

theorem handle_of_settled (h : (guarded head logic recovery s).Settled) :
    handle head logic recovery s =
      ⟨(guarded head logic recovery s).result,
        ⟨(guarded head logic recovery s).state.own,
          (guarded head logic recovery s).state.context.publish head.key
            (guarded head logic recovery s).state.own.snapshot⟩,
        ⟨[.action head.key], .entered, s.context⟩ :: (guarded head logic recovery s).journal⟩ := by
  rw [handle_apply, thenPublish_eq head.key h]

theorem handle_keeps (head : Head) (logic : Step (Frame Record) Unit)
    (recovery : Option (Step (Frame (Entries Record)) Unit)) (s : Frame Record) :
    (handle head logic recovery s).result = (guarded head logic recovery s).result ∧
      (handle head logic recovery s).state.own = (guarded head logic recovery s).state.own ∧
      (handle head logic recovery s).journal =
        ⟨[.action head.key], .entered, s.context⟩ :: (guarded head logic recovery s).journal := by
  obtain ⟨hresult, hown, hjournal⟩ :=
    thenPublish_keeps head.key (guarded head logic recovery) s
  rw [handle_apply]
  exact ⟨hresult, hown, congrArg (List.cons _) hjournal⟩

theorem handle_of_ok (recovery : Option (Step (Frame (Entries Record)) Unit))
    (h : (attempted head logic s).result = .ok ()) :
    (handle head logic recovery s).result = .ok () ∧
      (handle head logic recovery s).state = ⟨(attempted head logic s).state.own,
        (attempted head logic s).state.context.publish head.key
          (attempted head logic s).state.own.snapshot⟩ := by
  obtain ⟨hguarded, hstate⟩ := guarded_of_ok recovery h
  have hpublish := thenPublish_of_settled head.key (Ending.settled_of_ok hguarded)
  rw [hguarded, hstate] at hpublish
  exact hpublish

theorem handle_of_panic {panic : Panic}
    (h : (attempted head logic s).result = .error (.panic panic)) :
    (handle head logic recovery s).result = .error (.panic panic) := by
  rw [(handle_keeps head logic recovery s).1]
  exact guarded_of_panic h

theorem handle_of_fault (recovery : Option (Step (Frame (Entries Record)) Unit)) {fault : Fault}
    (h : (attempted head logic s).result = .error (.error fault)) :
    (handle head logic recovery s).result =
        remedied head.key recovery fault (attempted head logic s).state ∧
      ∃ records, (handle head logic recovery s).state.own =
        { (attempted head logic s).state.own.lost
            (attempted head logic s).state.context.clock fault with
          errorActions := records } := by
  obtain ⟨hresult, hown, -⟩ := handle_keeps head logic recovery s
  obtain ⟨hguarded, hstate⟩ := guarded_of_fault recovery h
  rw [hresult, hown, hguarded, hstate]
  refine ⟨?_, intercept_keeps _ _ _ _⟩
  cases recovery with
  | none => rfl
  | some sequence =>
    rw [intercept_some, result_file]
    rfl

/-- Of the handling, only the attempt depends on the logic. -/
theorem handle_congr {other : Step (Frame Record) Unit}
    (h : attempted head other s = attempted head logic s) :
    handle head other recovery s = handle head logic recovery s := by
  have hguarded : guarded head other recovery s = guarded head logic recovery s :=
    Step.attempt_bind_congr h _
  have hpublish : thenPublish head.key (guarded head other recovery) s =
      thenPublish head.key (guarded head logic recovery) s := Step.attempt_bind_congr hguarded _
  rw [handle_apply, handle_apply, hpublish]

end Handling

section Decides

variable (hr : r.stage = .notStarted) (hc : c.cancelled = false)
  (recovery : Option (Step (Frame (Entries Record)) Unit))

include hr hc

theorem handle_of_unwanted (hw : head.wants c = .ok false) :
    (handle head logic recovery ⟨r, c⟩).result = .ok () ∧
      (handle head logic recovery ⟨r, c⟩).state.own =
        (r.begun c.clock).succeededAt c.clock .skipped ∧
      (handle head logic recovery ⟨r, c⟩).state.context =
        c.publish head.key (handle head logic recovery ⟨r, c⟩).state.own.snapshot := by
  obtain ⟨hresult, hstate⟩ := attempted_of_unwanted hr hc logic hw
  obtain ⟨hhandled, hleft⟩ := handle_of_ok recovery hresult
  rw [hleft, hstate]
  exact ⟨hhandled, rfl, rfl⟩

theorem handle_runs (h : head.Admits c) (logic : Step (Frame Record) Unit) :
    ∃ before after, (handle head logic recovery ⟨r, c⟩).journal =
      before ++ ((logicEnding logic r c).journal ++ after) := by
  obtain ⟨-, -, hjournal⟩ := handle_keeps head logic recovery ⟨r, c⟩
  obtain ⟨later, hguarded, -⟩ := journal_guarded head logic recovery ⟨r, c⟩
  obtain ⟨asked, hattempt⟩ := attempted_of_admits hr hc logic h
  obtain ⟨rest, hlogic⟩ := Step.journal_bind logic
    (fun _ => do
      move .afterRunErrorChecking
      check head.key head.after
      move .completed
      succeed) ⟨(r.begun c.clock).atStage .running, c⟩
  have hran : (fromLogic head logic ⟨(r.begun c.clock).atStage .running, c⟩).journal =
      (logicEnding logic r c).journal ++ rest := hlogic
  refine ⟨⟨[.action head.key], .entered, c⟩ :: asked, rest ++ later, ?_⟩
  rw [hjournal, hguarded, hattempt, hran]
  simp only [List.cons_append, List.append_assoc]

section Wanted

variable (hl : KeepsStage logic r c) (hw : head.wants c ≠ .ok false)

include hl hw

theorem handle_of_failure {fault : Fault} {s : Frame Record}
    {rest : List (Stop Fault × Frame Record)}
    (h : failures head logic r c = (.error fault, s) :: rest) :
    (handle head logic recovery ⟨r, c⟩).state.own.fault = some fault ∧
      (handle head logic recovery ⟨r, c⟩).state.own.succeeded = false ∧
      (handle head logic recovery ⟨r, c⟩).result = remedied head.key recovery fault s := by
  obtain ⟨hattempt, hcontext, hlost⟩ := attempted_of_failure hr hc hl hw h
  obtain ⟨hresult, records, hown⟩ := handle_of_fault recovery hattempt
  have hremedy : remedied head.key recovery fault (attempted head logic ⟨r, c⟩).state =
      remedied head.key recovery fault s := by
    unfold remedied
    rw [hcontext, hlost]
  rw [hown, hresult, hremedy, Record.lost_eq]
  exact ⟨rfl, rfl, rfl⟩

theorem handle_of_no_failure (h : failures head logic r c = []) :
    (logicEnding logic r c).result = .ok () ∧
      (handle head logic recovery ⟨r, c⟩).result = .ok () ∧
      (handle head logic recovery ⟨r, c⟩).state.own =
        (logicEnding logic r c).state.own.succeededAt
          (logicEnding logic r c).state.context.clock .completed := by
  obtain ⟨hran, hattempt, hown⟩ := attempted_of_no_failure hr hc hl hw h
  obtain ⟨hresult, hstate⟩ := handle_of_ok recovery hattempt
  rw [hstate]
  exact ⟨hran, hresult, hown⟩

end Wanted

/-- A lifecycle decides phase by phase, by the first failure, whatever its logic makes of it. -/
theorem handle_decides (hl : KeepsStage logic r c) : Decides head logic recovery r c := by
  have hpanics : ∀ panic s rest, head.wants c ≠ .ok false →
      failures head logic r c = (.panic panic, s) :: rest →
      (handle head logic recovery ⟨r, c⟩).result = .error (.panic panic) := fun panic s rest hw h =>
    handle_of_panic (attempted_of_failure hr hc hl hw h).1
  refine ⟨fun h => handle_runs hr hc recovery h logic, fun h other => handle_congr
    (attempted_of_not_admits hr hc h logic other), handle_of_unwanted hr hc recovery,
    handle_of_no_failure hr hc recovery hl, fun fault s rest hw h =>
    handle_of_failure hr hc recovery hl hw h, hpanics, ?_⟩
  by_cases hw : head.wants c = .ok false
  · exact ⟨fun _ => .inl hw, fun _ => (handle_of_unwanted hr hc recovery hw).1⟩
  · rcases hfailures : failures head logic r c with _ | ⟨⟨fault | panic, s⟩, rest⟩
    · exact ⟨fun _ => .inr (.inl rfl),
        fun _ => (handle_of_no_failure hr hc recovery hl hw hfailures).2.1⟩
    · obtain ⟨-, -, hresult⟩ := handle_of_failure hr hc recovery hl hw hfailures
      rw [hresult]
      simp [hw]
    · rw [hpanics panic s rest hw hfailures]
      simp [hw]

end Decides

end Lifecycle

namespace Action

/-! ### Whole actions -/

variable {a : Action} {c : Context}

def logicEnding (a : Action) (c : Context) : Ending (Frame Record) Unit :=
  Lifecycle.logicEnding (runKind a.key a.kind) a.freshRecord c

def attempt (a : Action) (c : Context) : Ending (Frame Record) Unit :=
  Lifecycle.attempted a.head (runKind a.key a.kind) ⟨a.freshRecord, c⟩

def failures (a : Action) (c : Context) : List (Stop Fault × Frame Record) :=
  Lifecycle.failures a.head (runKind a.key a.kind) a.freshRecord c

/-- How the error actions end that follow the fault found in a frame; they see it published. -/
def remedy (a : Action) (fault : Fault) (s : Frame Record) :
    Ending (Frame (Entries Record)) Unit :=
  runSequence a.errorActions
    ⟨[], s.context.publish a.key (s.own.lost s.context.clock fault).snapshot⟩

theorem remedied_eq (a : Action) (fault : Fault) (s : Frame Record) :
    Lifecycle.remedied a.key a.recovery fault s =
      if a.errorActions = [] then .error (.error fault) else (a.remedy fault s).result := by
  cases hrecovery : a.recovery with
  | none =>
    rw [if_pos (recovery_eq_none hrecovery)]
    rfl
  | some sequence =>
    obtain ⟨hne, rfl⟩ := recovery_eq_some hrecovery
    rw [if_neg hne]
    rfl

theorem remedied_eq_ok_iff (a : Action) (fault : Fault) (s : Frame Record) :
    Lifecycle.remedied a.key a.recovery fault s = .ok () ↔
      a.errorActions ≠ [] ∧ (a.remedy fault s).result = .ok () := by
  rw [remedied_eq]
  by_cases hnone : a.errorActions = []
  · simp [hnone]
  · simp [hnone]

def guardedEnding (a : Action) (c : Context) : Ending (Frame Record) Unit :=
  Lifecycle.guarded a.head (runKind a.key a.kind) a.recovery ⟨a.freshRecord, c⟩

theorem ending_keeps (a : Action) (c : Context) :
    (a.ending c).result = (a.guardedEnding c).result ∧
      (a.ending c).state.own = (a.guardedEnding c).state.own ∧
      (a.ending c).journal = ⟨[.action a.key], .entered, c⟩ :: (a.guardedEnding c).journal := by
  rw [ending_eq]
  exact Lifecycle.handle_keeps a.head (runKind a.key a.kind) a.recovery ⟨a.freshRecord, c⟩

theorem ending_of_fault {fault : Fault} (h : (a.attempt c).result = .error (.error fault)) :
    (a.ending c).result = (if a.errorActions = [] then .error (.error fault)
        else (a.remedy fault (a.attempt c).state).result) ∧
      ∃ records, (a.ending c).state.own =
        { (a.attempt c).state.own.lost (a.attempt c).state.context.clock fault with
          errorActions := records } := by
  rw [ending_eq, ← remedied_eq]
  exact Lifecycle.handle_of_fault a.recovery h

theorem mem_journal_runKind (key : String) (kind : Kind Action) (s : Frame Record) :
    ⟨[.action key], .running, s.context⟩ ∈ (runKind key kind s).journal := by
  have hmark : ∀ next : Step (Frame Record) Unit, ⟨[.action key], .running, s.context⟩ ∈
      ((mark key .running >>= fun _ => next) s).journal := fun next => List.mem_cons_self
  rcases kind with ⟨parallel, actions⟩ | ⟨loop, actions⟩ | logic
  · rw [runKind]
    exact hmark _
  · rw [runKind]
    exact hmark _
  · rw [runKind]
    exact hmark _

theorem running_iff_admits (hc : c.cancelled = false) :
    (∃ d, ⟨[.action a.key], .running, d⟩ ∈ (a.ending c).journal) ↔ a.head.Admits c := by
  constructor
  · rintro ⟨d, hd⟩
    by_contra hno
    obtain ⟨-, -, hjournal⟩ := ending_keeps a c
    obtain ⟨later, hguarded, hlater⟩ :=
      Lifecycle.journal_guarded a.head (runKind a.key a.kind) a.recovery ⟨a.freshRecord, c⟩
    -- Up to the logic providers are asked, and what comes after it happens in error actions.
    have hquiet := Lifecycle.quiet_of_not_admits hno (runKind a.key a.kind) a.freshRecord
    rw [hjournal, guardedEnding, hguarded] at hd
    rcases List.mem_cons.mp hd with hd | hd
    · cases hd
    rcases List.mem_append.mp hd with hd | hd
    · cases hquiet _ hd
    · obtain ⟨path, hpath⟩ := hlater _ hd
      cases hpath
  · intro hadmits
    obtain ⟨before, after, hjournal⟩ :=
      Lifecycle.handle_runs (r := a.freshRecord) rfl hc a.recovery hadmits (runKind a.key a.kind)
    have hran : ⟨[.action a.key], .running, c⟩ ∈ (a.logicEnding c).journal :=
      mem_journal_runKind a.key a.kind ⟨(a.freshRecord.begun c.clock).atStage .running, c⟩
    refine ⟨c, ?_⟩
    rw [ending_eq, hjournal]
    exact List.mem_append_right _ (List.mem_append_left _ hran)

/-- How an action is decided on in the context `c`. -/
structure Decided (a : Action) (c : Context) : Prop where
  runs : (∃ d, ⟨[.action a.key], .running, d⟩ ∈ (a.ending c).journal) ↔ a.head.Admits c
  /-- An action that is not wanted succeeds, and all that it does is to publish its record. -/
  skips : a.head.wants c = .ok false →
    (a.ending c).result = .ok () ∧ (a.ending c).state.own.stage = .skipped ∧
      (a.ending c).state.own.succeeded = true ∧
      (a.ending c).state.context = c.publish a.key (a.ending c).state.own.snapshot
  passes : a.head.wants c ≠ .ok false → a.failures c = [] →
    (a.ending c).result = .ok () ∧ (a.ending c).state.own.fault = none ∧
      (a.ending c).state.own.succeeded = true
  /-- The first failure stays in the record, whatever the error actions come to. -/
  fails : ∀ fault s rest, a.head.wants c ≠ .ok false → a.failures c = (.error fault, s) :: rest →
    (a.ending c).state.own.fault = some fault ∧ (a.ending c).state.own.succeeded = false ∧
      (a.ending c).result =
        if a.errorActions = [] then .error (.error fault) else (a.remedy fault s).result
  panics : ∀ panic s rest, a.head.wants c ≠ .ok false →
    a.failures c = (.panic panic, s) :: rest → (a.ending c).result = .error (.panic panic)
  ok_iff : (a.ending c).result = .ok () ↔
    a.head.wants c = .ok false ∨ a.failures c = [] ∨
      ∃ fault s rest, a.failures c = (.error fault, s) :: rest ∧ a.errorActions ≠ [] ∧
        (a.remedy fault s).result = .ok ()

section Decided

variable (hc : c.cancelled = false)

include hc

theorem decided (a : Action) : a.Decided c := by
  have hd : Lifecycle.Decides a.head (runKind a.key a.kind) a.recovery a.freshRecord c :=
    Lifecycle.handle_decides rfl hc a.recovery (keepsStage a c)
  obtain ⟨-, -, hskips, hpasses, hfails, hpanics, hok⟩ := hd
  rw [← ending_eq] at hskips hpasses hfails hpanics hok
  have hpasses' : a.head.wants c ≠ .ok false → a.failures c = [] →
      (a.ending c).result = .ok () ∧ (a.ending c).state.own.fault = none ∧
        (a.ending c).state.own.succeeded = true := by
    intro hw hnone
    obtain ⟨hran, hresult, hown⟩ := hpasses hw hnone
    have hshut : ((a.ending c).state.own).Shut none := by
      rw [hown]
      exact shut_of_ok (.completed hran)
    exact ⟨hresult, hshut.fault, hshut.succeeded⟩
  refine ⟨running_iff_admits hc, fun hw => ?_, hpasses', fun fault s rest hw h => ?_, hpanics, ?_⟩
  · obtain ⟨hresult, hown, hcontext⟩ := hskips hw
    refine ⟨hresult, ?_, ?_, hcontext⟩
    · rw [hown]
      rfl
    · rw [hown]
      rfl
  · rw [← remedied_eq]
    exact hfails fault s rest hw h
  · refine hok.trans (or_congr_right (or_congr_right ?_))
    exact exists_congr fun fault => exists_congr fun s => exists_congr fun _ =>
      and_congr_right fun _ => remedied_eq_ok_iff a fault s

/-! ### In turns -/

/-- The logic of a lifecycle ends in one of the ways of the action, where it is come to. -/
structure LogicInTurns (a : Action) (c : Context) (logic : Step (Frame Record) Unit) : Prop where
  way : a.head.Admits c → ∃ turns result, (kindTurns a.key a.kind).Gives
    ⟨(a.freshRecord.begun c.clock).atStage .running, c⟩
    (Lifecycle.logicEnding logic a.freshRecord c) turns result
  stage : Lifecycle.KeepsStage logic a.freshRecord c
  fault : (Lifecycle.logicEnding logic a.freshRecord c).result = .ok () →
    (Lifecycle.logicEnding logic a.freshRecord c).state.own.fault = none

/-- The logic and the recovery of a lifecycle end in ways of the action and of its error actions,
where they are come to. -/
structure RunsInTurns (a : Action) (c : Context) (logic : Step (Frame Record) Unit)
    (recovery : Option (Step (Frame (Entries Record)) Unit)) : Prop
    extends LogicInTurns a c logic where
  none : recovery = none → a.errorActions = []
  some : ∀ sequence, recovery = some sequence → a.errorActions ≠ [] ∧
    ∀ fault s rest, a.head.wants c ≠ .ok false →
      Lifecycle.failures a.head logic a.freshRecord c = (.error fault, s) :: rest →
      let start := s.context.publish a.key (s.own.lost s.context.clock fault).snapshot
      ∃ turns result, (sequenceTurns a.errorActions).Gives ⟨[], start⟩ (sequence ⟨[], start⟩) turns
        result

omit hc in
/-- Logic that passes in turns leaves a record that is running and has no fault. -/
theorem left_of_kindTurns {inner : Ending (Frame Record) Unit} {turns : List Turn}
    (h : (kindTurns a.key a.kind).Gives ⟨(a.freshRecord.begun c.clock).atStage .running, c⟩ inner
      turns (.ok ())) : inner.state.own.stage = .running ∧ inner.state.own.fault = none := by
  have hcarries := carries_kind (stable_true a.key) (kindWays_true a.key a.kind)
  have hstart : a.AtWork (Untouched a.kind fun _ _ _ => True) none []
      ((a.freshRecord.begun c.clock).atStage .running) :=
    ⟨rfl, rfl, rfl, fun _ => rfl, rfl, trivial, rfl⟩
  have hrunning := running_kind a.key a.kind ((a.freshRecord.begun c.clock).atStage .running)
  exact ⟨(hrunning _ _ _ rfl h.goes).2, (hcarries _ _ _ _ _ hstart h.goes).fault rfl⟩

theorem exists_logicInTurns {left : Ending (Frame Record) Unit} {turns : List Turn}
    {result : Except Fault Unit}
    (h : (Turns.attempted a.head (kindTurns a.key a.kind)).Gives ⟨a.freshRecord, c⟩ left turns
      result) :
    ∃ logic, a.LogicInTurns c logic ∧
      Lifecycle.attempted a.head logic ⟨a.freshRecord, c⟩ = left := by
  -- Turns give an ending and no step, so the step that always ends so is taken for the logic.
  rcases Turns.around_attempted a.head rfl c left turns result h with
    hall | ⟨inner, ways, ended, hran, hleft⟩
  · refine ⟨runKind a.key a.kind, ⟨fun hadmits => ?_, keepsStage a c, fun hok => ?_⟩, hall _⟩
    · exact absurd hadmits (Lifecycle.not_admits_of_attempted rfl hc hall)
    · obtain ⟨detail, fault, succeeded, hown, hnone⟩ :=
        exists_logicEnding (Ending.settled_of_ok hok)
      rw [hown]
      exact hnone (Ending.fault?_of_ok hok)
  · refine ⟨Turns.always inner, ⟨fun _ => ⟨ways, ended, hran⟩, fun hok => ?_, fun hok => ?_⟩, hleft⟩
    · exact (left_of_kindTurns (hran.of_ok hok)).1
    · exact (left_of_kindTurns (hran.of_ok hok)).2

/-- After an attempt that fails, a recovery that takes turns is one that ends in one of their
ways. -/
theorem exists_recoveryInTurns {logic : Step (Frame Record) Unit} (hlogic : a.LogicInTurns c logic)
    {fault : Fault}
    (hfault : (Lifecycle.attempted a.head logic ⟨a.freshRecord, c⟩).result = .error (.error fault))
    {rest : Ending (Frame Record) Unit} {turns : List Turn} {result : Except Fault Unit}
    (h : (Turns.intercept a.head.key
      (if a.errorActions.isEmpty then none else some (sequenceTurns a.errorActions)) fault).Gives
        (Lifecycle.attempted a.head logic ⟨a.freshRecord, c⟩).state rest turns result) :
    ∃ recovery, a.RunsInTurns c logic recovery ∧
      Lifecycle.intercept a.head.key recovery fault
        (Lifecycle.attempted a.head logic ⟨a.freshRecord, c⟩).state = rest := by
  by_cases hnone : a.errorActions = []
  · rw [if_pos (List.isEmpty_iff.mpr hnone)] at h
    refine ⟨none, ⟨hlogic, fun _ => hnone, nofun⟩, ?_⟩
    have hexactly : (Turns.intercept a.head.key none fault).Exactly
        (Lifecycle.intercept a.head.key none fault) :=
      Turns.exactly_bind (Turns.exactly_one _) fun _ => Turns.exactly_one _
    exact hexactly _ rest turns result h
  · rw [if_neg (fun hempty => hnone (List.isEmpty_iff.mp hempty))] at h
    obtain ⟨later, ways, hlater, rfl⟩ := h.of_intercept
    refine ⟨some (Turns.always later), ⟨hlogic, nofun, ?_⟩, ?_⟩
    · rintro sequence ⟨⟩
      refine ⟨hnone, fun first s others hw hfailures => ?_⟩
      obtain ⟨hfails, hcontext, hlost⟩ :=
        Lifecycle.attempted_of_failure rfl hc hlogic.stage hw hfailures
      cases hfails.symm.trans hfault
      rw [hcontext, hlost] at hlater
      exact ⟨ways, result, hlater⟩
    · rw [Lifecycle.intercept_some]
      exact file_of_settled _ _ hlater.settled

theorem exists_runsInTurns {e : Ending (Frame Record) Unit} {turns : List Turn}
    {result : Except Fault Unit} (h : a.turns.Gives ⟨a.freshRecord, c⟩ e turns result) :
    ∃ logic recovery, a.RunsInTurns c logic recovery ∧
      Lifecycle.handle a.head logic recovery ⟨a.freshRecord, c⟩ = e := by
  rw [turns_eq] at h
  obtain ⟨ran, ways, hran, rfl⟩ := h.of_handle
  suffices hguarded : ∃ logic recovery, a.RunsInTurns c logic recovery ∧
      Lifecycle.guarded a.head logic recovery ⟨a.freshRecord, c⟩ = ran by
    obtain ⟨logic, recovery, hruns, rfl⟩ := hguarded
    refine ⟨logic, recovery, hruns, ?_⟩
    exact Lifecycle.handle_of_settled hran.settled
  rcases hran.of_guarded with ⟨left, first, hleft, rfl, rfl⟩ |
    ⟨fault, left, first, rest, others, hleft, hrest, rfl⟩
  · obtain ⟨logic, hlogic, rfl⟩ := exists_logicInTurns hc hleft
    refine ⟨logic, a.recovery, ⟨hlogic, recovery_eq_none, fun sequence hs =>
      ⟨(recovery_eq_some hs).1, fun fault s rest hw hfailures => ?_⟩⟩, ?_⟩
    · obtain ⟨hfails, -⟩ := Lifecycle.attempted_of_failure rfl hc hlogic.stage hw hfailures
      cases hfails.symm.trans hleft.ends
    · rw [Lifecycle.guarded, Step.attempt_bind_of_ok hleft.ends]
      show (⟨.ok (), _, _ ++ []⟩ : Ending _ _) = _
      rw [List.append_nil]
      rfl
  · obtain ⟨logic, hlogic, rfl⟩ := exists_logicInTurns hc hleft
    obtain ⟨recovery, hruns, rfl⟩ := exists_recoveryInTurns hc hlogic hleft.ends hrest
    refine ⟨logic, recovery, hruns, ?_⟩
    rw [Lifecycle.guarded, Step.attempt_bind_of_fault hleft.ends]

/-- Every action is decided on phase by phase, by the first of its failures; and so it is when the
tasks inside it and inside its error actions take turns in any order. -/
theorem ending_decided (a : Action) :
    a.Decided c ∧ ∀ e turns result, a.turns.Gives ⟨a.freshRecord, c⟩ e turns result →
      ∃ logic recovery, a.RunsInTurns c logic recovery ∧
        Lifecycle.handle a.head logic recovery ⟨a.freshRecord, c⟩ = e ∧
        Lifecycle.Decides a.head logic recovery a.freshRecord c := by
  refine ⟨decided hc a, fun e turns result h => ?_⟩
  obtain ⟨logic, recovery, hruns, he⟩ := exists_runsInTurns hc h
  exact ⟨logic, recovery, hruns, he, Lifecycle.handle_decides rfl hc recovery hruns.stage⟩

end Decided

/-- Two conditions fail after the run, for the variable that it sets; the error action fails too. -/
theorem ending_decided_late :
    let raised (k : String) : FaultProvider :=
      { code := .constant (.text k)
        title := .constant (.text "")
        message := .constant (.text "")
        status := .constant (.integer 400)
        details := none
        data := none }
    let isSet : Condition := .present ⟨["variables", "x"]⟩
    let a : Action :=
      { assigning "set" "x" none (.bool true) [failing "report"] with
        head :=
          { name := "set", key := "set"
            runCondition := some (.negation isSet)
            before := [⟨isSet, raised "early"⟩]
            after := [⟨.negation isSet, raised "unset"⟩, ⟨isSet, raised "late"⟩,
              ⟨.typed (.constant (.text "")), raised "later"⟩] } }
    let c : Context := .start "run" "now" .null
    c.cancelled = false ∧ a.Decided c ∧ a.head.Admits c ∧
      (a.ending c).state.own.fault.map Fault.code = some "late" ∧
      (a.ending c).fault?.map Fault.code = some "report" ∧
      ∃ turns result logic recovery, a.turns.Gives ⟨a.freshRecord, c⟩ (a.ending c) turns result ∧
        a.RunsInTurns c logic recovery ∧
        Lifecycle.handle a.head logic recovery ⟨a.freshRecord, c⟩ = a.ending c ∧
        Lifecycle.Decides a.head logic recovery a.freshRecord c := by
  intro raised isSet a c
  have hc : c.cancelled = false := rfl
  have hadmits : a.head.Admits c := ⟨rfl, List.forall_mem_singleton.mpr rfl⟩
  have hforest : a.tree = [a, failing "report"] := rfl
  have hways : a.turns.Admits a.handle := by
    refine tree_induction admits_node a fun b hb actions hkind => ?_
    rw [hforest] at hb
    rcases List.mem_cons.mp hb with rfl | hb
    · cases hkind
    · rw [List.mem_singleton.mp hb] at hkind
      cases hkind
  have hreport : (a.ending c).fault?.map Fault.code = some "report" := by decide +kernel
  obtain ⟨fault, hfault, -⟩ := Option.map_eq_some_iff.mp hreport
  obtain ⟨turns, result, hgives⟩ := hways ⟨a.freshRecord, c⟩
    (Ending.settled_of_fault (Ending.fault?_eq_some_iff.mp hfault))
  obtain ⟨hdecided, hturns⟩ := ending_decided hc a
  obtain ⟨logic, recovery, hruns, he, hdecides⟩ := hturns _ turns result hgives
  exact ⟨hc, hdecided, hadmits, by decide +kernel, hreport, turns, result, logic, recovery, hgives,
    hruns, he, hdecides⟩

end Action

end ActionFlow
