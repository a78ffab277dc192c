import ActionFlow.Proofs.CurrentItem
import ActionFlow.Proofs.Decisions
import ActionFlow.Proofs.TurnEndings
import ActionFlow.Proofs.TurnRules

/-!
# What error actions find

An action that has failed is published before its error actions start, with a record that is closed
but for theirs.  A snapshot does not tell of error actions, so what they find under the key of the
action is what is published again in the end; and unless one of them publishes something else under
that key, it is there at every moment in between.
-/
namespace ActionFlow

open ActionFlow.Frame

/-! ### Records that have failed -/

/-- The snapshot of an action that is over and failed with the fault. -/
structure Value.ShowsFault (fault : Fault) (v : Value) : Prop where
  state : v.lookup ["state"] = some (.text "completed")
  succeeded : v.lookup ["succeeded"] = some (.bool false)
  error : v.lookup ["error"] = some fault.toValue

theorem Record.showsFault_snapshot {r : Record} {fault : Fault} (hstage : r.stage = .completed)
    (hfault : r.fault = some fault) (hsucceeded : r.succeeded = false) :
    r.snapshot.ShowsFault fault := by
  constructor <;> simp [Record.snapshot, Value.lookup_object_cons, Entries.find?, hstage, hfault,
    hsucceeded, Stage.name, Value.orNull]

/-- The snapshot of the record once the fault is put down. -/
def Frame.lostSnapshot (fault : Fault) (s : Frame Record) : Value :=
  (s.own.lost s.context.clock fault).snapshot

theorem Frame.showsFault_lostSnapshot {fault : Fault} {s : Frame Record}
    (h : (s.own.lost s.context.clock fault).stage = .completed) :
    (s.lostSnapshot fault).ShowsFault fault := by
  refine Record.showsFault_snapshot h (Record.fault_lost _ _ _) ?_
  rw [Record.lost_eq]

theorem Record.Shut.completed {r : Record} {fault : Fault} (h : r.Shut (some fault)) :
    r.stage = .completed := by
  have hterminal := h.stage
  have hskipped := h.skipped
  cases hstage : r.stage with
  | completed => rfl
  | skipped => cases (hskipped hstage).1
  | notStarted | started | beforeRunErrorChecking | running | afterRunErrorChecking =>
    rw [hstage] at hterminal
    cases hterminal

namespace Action

open Turns

variable {k : String}

/-! ### Actions that use other keys -/

section Sequence

variable {actions : List Action} (h : ∀ b ∈ forest actions, b.Apart k) {v : Value} {c : Context}
  (hv : c.action? k = some v)

include h hv

theorem entry_runSequence (done : Entries Record) :
    (runSequence actions ⟨done, c⟩).state.context.action? k = some v ∧
      ∀ m ∈ (runSequence actions ⟨done, c⟩).journal, m.context.action? k = some v := by
  have htraces : (runSequence actions).Traces (fun c => c.action? k = some v) (Showing k v) :=
    traces_runSequence (forest_induction (showing_node v) h)
  obtain ⟨hlast, hjournal⟩ := htraces ⟨done, c⟩ hv
  exact ⟨hlast, fun m hm => (hjournal m hm).1⟩

theorem entry_sequenceTurns {done : Entries Record} {e : Ending (Frame (Entries Record)) Unit}
    {turns : List Turn} {result : Except Fault Unit}
    (hgives : (sequenceTurns actions).Gives ⟨done, c⟩ e turns result) :
    e.state.context.action? k = some v ∧ ∀ m ∈ e.journal, m.context.action? k = some v := by
  have haside := aside_sequence (forest_induction aside_node h) hgives.goes
  obtain ⟨hlast, hjournal⟩ := hgives.linked.steady fun t ht => (haside t ht).toSteady
  rw [hgives.journal, hlast]
  exact ⟨hv, fun m hm => (hjournal m hm).trans hv⟩

end Sequence

/-! ### Handling a fault -/

/-- The context in which the error actions start of an action that failed and left the frame. -/
def recoveryStart (a : Action) (fault : Fault) (s : Frame Record) : Context :=
  s.context.publish a.key (s.lostSnapshot fault)

/-- The ways of an action up to its error actions. -/
def lifecycleTurns (a : Action) : Turns Record Unit :=
  Turns.attempted a.head (kindTurns a.key a.kind)

/-- What the error actions find of an action that failed with the fault and left the frame. -/
structure FaultShown (a : Action) (fault : Fault) (s : Frame Record) : Prop where
  entry : (a.recoveryStart fault s).action? a.key = some (s.lostSnapshot fault)
  failed : (s.lostSnapshot fault).ShowsFault fault
  vars : (a.recoveryStart fault s).vars = s.context.vars
  /-- The error actions before a later one leave the entry as it is, in any order of their tasks. -/
  kept : (∀ b ∈ forest a.errorActions, b.Apart a.key) →
    ∀ before b after, a.errorActions = before ++ b :: after →
      (runSequence before ⟨[], a.recoveryStart fault s⟩).state.context.action? a.key =
          some (s.lostSnapshot fault) ∧
        ∀ e turns result,
          (sequenceTurns before).Gives ⟨[], a.recoveryStart fault s⟩ e turns result →
            e.state.context.action? a.key = some (s.lostSnapshot fault)

/-- In all, the handling of the action in `c` ends like `e`: its attempt ends with the fault like
`left`, and its error actions like `later`. -/
structure Recovered (a : Action) (c : Context) (fault : Fault) (left : Ending (Frame Record) Unit)
    (later : Ending (Frame (Entries Record)) Unit) (e : Ending (Frame Record) Unit) : Prop where
  shown : a.FaultShown fault left.state
  result : e.result = later.result
  journal : e.journal = ⟨[.action a.key], .entered, c⟩ ::
    (left.journal ++ later.journal.map (Moment.within (.recovery a.key)))
  steady : (∀ b ∈ forest a.errorActions, b.Apart a.key) →
    ∀ m ∈ later.journal, m.context.action? a.key = some (left.state.lostSnapshot fault)
  /-- Unless a panic comes through, the same snapshot is published in the end. -/
  last : e.Settled → e.state.context.action? a.key = some (left.state.lostSnapshot fault) ∧
    e.state.own.snapshot = left.state.lostSnapshot fault

/-- How an action is handled in `c` that takes turns: its lifecycle passes, or its error actions
follow. -/
inductive InTurns (a : Action) (c : Context) :
    Except Fault Unit → Ending (Frame Record) Unit → Prop
  | passed {left : Ending (Frame Record) Unit} {first : List Turn}
      (lifecycle : a.lifecycleTurns.Gives ⟨a.freshRecord, c⟩ left first (.ok ())) :
      InTurns a c (.ok ())
        ⟨.ok (), ⟨left.state.own, left.state.context.publish a.key left.state.own.snapshot⟩,
          ⟨[.action a.key], .entered, c⟩ :: left.journal⟩
  | recovered {fault : Fault} {left e : Ending (Frame Record) Unit}
      {later : Ending (Frame (Entries Record)) Unit} {first rest : List Turn}
      {result : Except Fault Unit}
      (lifecycle : a.lifecycleTurns.Gives ⟨a.freshRecord, c⟩ left first (.error fault))
      (recovery : (sequenceTurns a.errorActions).Gives ⟨[], a.recoveryStart fault left.state⟩ later
        rest result)
      (handled : a.Recovered c fault left later e) : InTurns a c result e

variable {a : Action} {c : Context} {fault : Fault} {s : Frame Record}

theorem faultShown (h : (s.own.lost s.context.clock fault).stage = .completed) :
    a.FaultShown fault s where
  entry := Context.action?_publish_self _ _ _
  failed := Frame.showsFault_lostSnapshot h
  vars := rfl
  kept := by
    intro hapart before b after hsplit
    have hentry : (a.recoveryStart fault s).action? a.key = some (s.lostSnapshot fault) :=
      Context.action?_publish_self _ _ _
    have hbefore : ∀ d ∈ forest before, d.Apart a.key := by
      intro d hd
      obtain ⟨e, he, hde⟩ := mem_forest.mp hd
      have hmem : e ∈ a.errorActions := by
        rw [hsplit]
        exact List.mem_append_left _ he
      exact hapart d (forest_of_mem hmem d hde)
    exact ⟨(entry_runSequence hbefore hentry []).1, fun e turns result hgives =>
      (entry_sequenceTurns hbefore hentry hgives).1⟩

theorem entry_ending (hs : (a.ending c).Settled) :
    (a.ending c).state.context.action? a.key = some (a.ending c).state.own.snapshot := by
  obtain ⟨hresult, hown, -⟩ := ending_keeps a c
  have hguarded : (a.guardedEnding c).Settled := (Ending.settled_congr hresult).mp hs
  obtain ⟨-, hstate⟩ := Lifecycle.thenPublish_of_settled a.key hguarded
  have hending : (a.ending c).state = ⟨(a.guardedEnding c).state.own,
      (a.guardedEnding c).state.context.publish a.key (a.guardedEnding c).state.own.snapshot⟩ := by
    rw [ending_eq, Lifecycle.handle_eq]
    exact hstate
  rw [hending]
  exact Context.action?_publish_self _ _ _

/-- A lifecycle that fails leaves a record that is not over. -/
theorem open_of_gives {left : Ending (Frame Record) Unit} {first : List Turn}
    (h : a.lifecycleTurns.Gives ⟨a.freshRecord, c⟩ left first (.error fault)) :
    left.state.own.Open := by
  have hopen : ∀ r : Record, r.Running → r.Open := fun r hr =>
    (congrArg Stage.isTerminal hr).trans rfl
  have hlifecycle := meets_attempted turnRule_true (fun _ h => h)
    ((running_kind a.key a.kind).weaken (fun _ h => h) fun _ => hopen) a.freshRecord first
    (.error fault) left.state.own rfl h.goes
  exact hlifecycle.2.2

section Fault

variable (hne : a.errorActions ≠ [])

include hne

theorem guardedEnding_of_fault (h : (a.attempt c).result = .error (.error fault)) :
    let recovered := file (.recovery a.key) [] (runSequence a.errorActions)
      (fun records r => { r with errorActions := records })
      ⟨(a.attempt c).state.own.lost (a.attempt c).state.context.clock fault,
        a.recoveryStart fault (a.attempt c).state⟩
    a.guardedEnding c =
      ⟨recovered.result, recovered.state, (a.attempt c).journal ++ recovered.journal⟩ := by
  have hrecovery : a.recovery = some (runSequence a.errorActions) := by
    unfold recovery
    rw [if_neg]
    simpa using hne
  unfold guardedEnding Lifecycle.guarded
  rw [Step.attempt_bind_of_fault h, hrecovery]
  rfl

theorem recovered_ending (h : (a.attempt c).result = .error (.error fault)) :
    a.Recovered c fault (a.attempt c) (a.remedy fault (a.attempt c).state) (a.ending c) := by
  obtain ⟨hresult, hown, hjournal⟩ := ending_keeps a c
  have hguarded := guardedEnding_of_fault hne h
  have hshut : ((a.attempt c).state.own.lost (a.attempt c).state.context.clock fault).Shut
      (some fault) := by
    have hattempt := Lifecycle.attempted_attempt a.head rfl (keepsStage a c)
    rw [show (Lifecycle.attempted a.head (runKind a.key a.kind) ⟨a.freshRecord, c⟩).result = _
      from h] at hattempt
    exact shut_of_fault hattempt
  have hshown : a.FaultShown fault (a.attempt c).state := faultShown hshut.completed
  refine ⟨hshown, ?_, ?_, ?_, ?_⟩
  · rw [hresult, hguarded, result_file]
    rfl
  · rw [hjournal, hguarded, journal_file]
    rfl
  · exact fun hapart => (entry_runSequence hapart hshown.entry []).2
  · intro hs
    obtain ⟨-, records, hrecord⟩ := ending_of_fault h
    have hsnapshot : (a.ending c).state.own.snapshot = (a.attempt c).state.lostSnapshot fault := by
      rw [hrecord, Record.snapshot_errorActions]
      rfl
    refine ⟨?_, hsnapshot⟩
    rw [entry_ending hs, hsnapshot]

theorem inTurns_of_gives {e : Ending (Frame Record) Unit} {turns : List Turn}
    {result : Except Fault Unit} (h : a.turns.Gives ⟨a.freshRecord, c⟩ e turns result) :
    a.InTurns c result e := by
  have hturns : a.turns =
      Turns.handle a.head (kindTurns a.key a.kind) (some (sequenceTurns a.errorActions)) := by
    rw [turns_eq, if_neg]
    simpa using hne
  rw [hturns] at h
  obtain ⟨ran, _, hran, rfl⟩ := h.of_handle
  rcases hran.of_guarded with ⟨left, first, hleft, rfl, rfl⟩ |
    ⟨fault, left, first, rest, _, hleft, hrest, rfl⟩
  · have hpassed : a.InTurns c (.ok ()) _ := .passed hleft
    exact hpassed
  · obtain ⟨later, turns, hlater, rfl⟩ := hrest.of_intercept
    -- An open record is completed when the fault closes it.
    have hopen : left.state.own.Open := open_of_gives hleft
    have hshown : a.FaultShown fault left.state :=
      faultShown (by rw [Record.lost_of_unfinished hopen])
    refine .recovered hleft hlater ⟨hshown, rfl, rfl, ?_, ?_⟩
    · exact fun hapart => (entry_sequenceTurns hapart hshown.entry hlater).2
    · exact fun _ => ⟨Context.action?_publish_self _ _ _, rfl⟩

/-- However an action comes to fail, and whatever order the tasks inside it and inside its error
actions take, its error actions find it failed, and nothing else has changed. -/
theorem failure_shown (c : Context) :
    (∀ fault, (a.attempt c).result = .error (.error fault) →
      a.Recovered c fault (a.attempt c) (a.remedy fault (a.attempt c).state) (a.ending c)) ∧
    ∀ e turns result, a.turns.Gives ⟨a.freshRecord, c⟩ e turns result → a.InTurns c result e :=
  ⟨fun _ h => recovered_ending hne h, fun _ _ _ h => inTurns_of_gives hne h⟩

end Fault

/-- What is checked after the run of an assignment fails for what it has assigned; two tasks and
another failing action follow. -/
theorem failure_shown_assigned :
    let late : ErrorCondition :=
      { condition := .present ⟨["variables", "x"]⟩
        fault :=
          { code := .constant (.text "late")
            title := .constant (.text "")
            message := .constant (.text "")
            status := .constant (.integer 400)
            details := none
            data := none } }
    let notify : Action :=
      { head := { name := "notify", key := "notify" }
        kind := .group true [idle "mail", assigning "note" "y" none (.text "sent") []]
        errorActions := [] }
    let a : Action :=
      { assigning "set" "x" none (.bool true) [notify, failing "report"] with
        head := { name := "set", key := "set", after := [late] } }
    let c : Context := .start "run" "now" .null
    a.errorActions ≠ [] ∧ (∀ b ∈ forest a.errorActions, b.Apart a.key) ∧
      ∃ fault, (a.attempt c).result = .error (.error fault) ∧ fault.code = "late" ∧
        a.Recovered c fault (a.attempt c) (a.remedy fault (a.attempt c).state) (a.ending c) ∧
        (a.ending c).fault?.map Fault.code = some "report" ∧
        Entries.keys (a.ending c).state.context.vars = ["x", "y"] := by
  intro late notify a c
  have hne : a.errorActions ≠ [] := nofun
  have hforest : forest a.errorActions = [notify, idle "mail",
    assigning "note" "y" none (.text "sent") [], failing "report"] := rfl
  have hapart : ∀ b ∈ forest a.errorActions, b.Apart a.key := by
    rw [hforest]
    intro b hb
    simp only [List.mem_cons, List.not_mem_nil, or_false] at hb
    rcases hb with rfl | rfl | rfl | rfl
    · exact ⟨by decide, nofun⟩
    · refine ⟨by decide, ?_⟩
      rintro handler ⟨⟩ d
      rfl
    · exact ⟨by decide, nofun⟩
    · exact ⟨by decide, nofun⟩
  obtain ⟨fault, hfault, hcode⟩ : ∃ fault, (a.attempt c).result = .error (.error fault) ∧
      fault.code = "late" := ⟨_, rfl, rfl⟩
  exact ⟨hne, hapart, fault, hfault, hcode, (failure_shown hne c).1 fault hfault,
    by decide +kernel, by decide +kernel⟩

end Action

end ActionFlow
