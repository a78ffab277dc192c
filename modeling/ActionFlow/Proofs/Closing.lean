import ActionFlow.Proofs.TurnHandling

/-!
# Closed records

However an action ends, its record is closed: it is skipped or completed, and it is successful
exactly if no fault is put down.  Only a task that panics leaves a record that was never started.
Here no keys have to be distinct, so a record may take the place of an earlier one of its key.
-/
namespace ActionFlow

structure Record.Finished (r : Record) : Prop where
  stage : r.stage.isTerminal = true
  completedAt : r.completedAt.isSome = true
  succeeded : r.succeeded = true ↔ r.fault = none
  skipped : r.stage = .skipped → r.fault = none ∧ r.errorActions = [] ∧ r.detail.Childless
  errorActions : r.errorActions ≠ [] → r.fault ≠ none
  /-- Only a record that stands in for a task which panicked does not tell of a start. -/
  startedAt : r.startedAt = none → ∃ panic, r.fault = some (Task.panicFault r.key panic)

/-! ### After an attempt -/

theorem Record.Shut.finished {x : Option Fault} {r : Record} (h : r.Shut x) : r.Finished where
  stage := h.stage
  completedAt := h.completedAt
  succeeded := by simp [h.succeeded, h.fault]
  skipped hskipped :=
    ⟨h.fault.trans (h.skipped hskipped).1, h.errorActions, (h.skipped hskipped).2⟩
  errorActions hne := absurd h.errorActions hne
  startedAt hnone := absurd h.startedAt (by simp [hnone])

theorem Record.Shut.finished_with {r : Record} {fault : Fault} (h : r.Shut (some fault))
    (records : Entries Record) : ({ r with errorActions := records } : Record).Finished where
  stage := h.stage
  completedAt := h.completedAt
  succeeded := by simp [h.succeeded, h.fault]
  skipped hskipped := absurd (h.skipped hskipped).1 nofun
  errorActions _ := by simp [h.fault]
  startedAt hnone := absurd h.startedAt (by simp [show r.startedAt = none from hnone])

namespace Action

open ActionFlow.Frame

theorem steady_true : Steady fun _ _ _ => True := ⟨fun _ _ => trivial, fun _ _ => trivial⟩

theorem kindRule_true (key : String) (kind : Kind Action) :
    KindRule key (fun _ _ _ => True) kind := by
  rcases kind with ⟨parallel, actions⟩ | ⟨loop, actions⟩ | (p | ⟨property, path, value⟩ | handler)
  · exact fun _ _ _ => trivial
  · exact ⟨fun _ _ => trivial, fun _ _ => trivial, fun _ _ _ => trivial⟩
  · trivial
  · intro name path value c _
    cases c.setVariable name (path.map Path.parse) value <;> trivial
  · exact fun _ _ _ => trivial

variable {a : Action} {c : Context} {s : Frame Record}

theorem exists_logicEnding
    (hs : (Lifecycle.logicEnding (runKind a.key a.kind) a.freshRecord c).Settled) :
    ∃ detail fault succeeded,
      (Lifecycle.logicEnding (runKind a.key a.kind) a.freshRecord c).state.own =
          { (a.freshRecord.begun c.clock).atStage .running with
            fault := fault, succeeded := succeeded, detail := detail } ∧
        ((Lifecycle.logicEnding (runKind a.key a.kind) a.freshRecord c).fault? = none →
          fault = none) := by
  obtain ⟨detail, fault, succeeded, he, hf, -⟩ :=
    logicEnding_working steady_true (kindRule_true a.key a.kind) trivial hs
  exact ⟨detail, fault, succeeded, he, hf⟩

theorem keepsStage (a : Action) (c : Context) :
    Lifecycle.KeepsStage (runKind a.key a.kind) a.freshRecord c :=
  keepsStage_runKind steady_true (kindRule_true a.key a.kind) trivial

theorem shut_of_ok (h : Lifecycle.Attempt (runKind a.key a.kind) a.freshRecord c (.ok ()) s) :
    s.own.Shut none := by
  cases h with
  | skipped => exact ⟨rfl, rfl, rfl, rfl, rfl, rfl, fun _ => ⟨rfl, a.kind.childless_detail⟩⟩
  | completed result =>
    obtain ⟨detail, fault, succeeded, he, hf⟩ := exists_logicEnding (Ending.settled_of_ok result)
    rw [he]
    exact ⟨rfl, rfl, rfl, hf (Ending.fault?_of_ok result), rfl, rfl, nofun⟩

theorem shut_of_fault {fault : Fault} (h : Lifecycle.Attempt (runKind a.key a.kind) a.freshRecord c
      (.error (.error fault)) s) :
    (s.own.lost s.context.clock fault).Shut (some fault) := by
  rw [Record.lost_eq]
  cases h with
  | stopped stage unfinished =>
    have hstage : ((a.freshRecord.begun c.clock).atStage stage).stage.isTerminal = false :=
      unfinished
    simp only [hstage]
    exact ⟨rfl, rfl, rfl, rfl, rfl, rfl, nofun⟩
  | failed result =>
    obtain ⟨detail, _, succeeded, he, -⟩ := exists_logicEnding (Ending.settled_of_fault result)
    rw [he]
    exact ⟨rfl, rfl, rfl, rfl, rfl, rfl, nofun⟩
  | refused result =>
    obtain ⟨detail, _, succeeded, he, -⟩ := exists_logicEnding (Ending.settled_of_ok result)
    rw [he]
    exact ⟨rfl, rfl, rfl, rfl, rfl, rfl, nofun⟩

/-- A handled action leaves a record that is started and finished. -/
theorem finished_ending (hs : (a.ending c).Settled) :
    (a.ending c).state.own.Finished ∧ (a.ending c).state.own.startedAt.isSome = true := by
  rw [ending_eq] at hs ⊢
  have hh := Lifecycle.handle_handled rfl (keepsStage a c) hs
  generalize (Lifecycle.handle _ _ _ _).result = result at hh
  generalize (Lifecycle.handle _ _ _ _).state = state at hh ⊢
  cases hh with
  | passed attempt =>
    have hshut := shut_of_ok attempt
    exact ⟨hshut.finished, hshut.startedAt⟩
  | escaped attempt none =>
    have hshut := shut_of_fault attempt
    exact ⟨hshut.finished, hshut.startedAt⟩
  | recovered attempt some ran settled =>
    have hshut := shut_of_fault attempt
    exact ⟨hshut.finished_with _, hshut.startedAt⟩

theorem finished_lost (a : Action) (now : String) (panic : Panic) :
    (a.freshRecord.lost now (Task.panicFault a.key panic)).Finished := by
  rw [Record.lost_eq]
  exact ⟨rfl, rfl, ⟨nofun, nofun⟩, nofun, fun h => absurd rfl h, fun _ => ⟨panic, rfl⟩⟩

/-! ### At every depth -/

/-- The condition holds of the record of every action in the tree of `a` once it is handled, and of
the records that stand in for tasks of a parallel group. -/
structure Yields (P : Record → Prop) (a : Action) : Prop where
  handled : ∀ c, (a.ending c).Settled → P (a.ending c).state.own
  lost : ∀ actions, a.kind = .group true actions → ∀ b ∈ actions, ∀ c panic,
    (b.ending c).result = .error (.panic panic) →
      ∀ now, P (b.freshRecord.lost now (Task.panicFault b.key panic))

def Leaves (P : Record → Prop) (a : Action) : Prop :=
  ∀ c, (a.ending c).Settled → ∀ r ∈ (a.ending c).state.own.tree, P r

end Action

namespace Record

theorem mem_forest_put {records : Entries Record} {key : String} {added r : Record}
    (h : r ∈ forest (Entries.put records key added)) : r ∈ forest records ∨ r ∈ added.tree := by
  induction records with
  | nil => simpa [Entries.put] using h
  | cons entry rest ih =>
    obtain ⟨k, record⟩ := entry
    by_cases hk : k = key
    · simp only [Entries.put, hk, if_true, forest_cons, List.mem_append] at h ⊢
      exact h.symm.imp (Or.inr) id
    · simp only [Entries.put, hk, if_false, forest_cons, List.mem_append] at h ⊢
      rcases h with h | h
      · exact .inl (.inl h)
      · exact (ih h).imp Or.inr id

theorem forest_putRecords {P : Record → Prop} {now : String} {tasks : List Task}
    {records : Entries Record} (hrecords : ∀ r ∈ forest records, P r)
    (htasks : ∀ t ∈ tasks, ∀ r ∈ (t.record now).tree, P r) :
    ∀ r ∈ forest (Task.putRecords now records tasks), P r := by
  induction tasks generalizing records with
  | nil => exact hrecords
  | cons t rest ih =>
    have hcons : Task.putRecords now records (t :: rest) =
        Task.putRecords now (Entries.put records t.start.key (t.record now)) rest := rfl
    rw [hcons]
    refine ih ?_ ?_
    · intro r hr
      rcases mem_forest_put hr with hr | hr
      · exact hrecords r hr
      · exact htasks t List.mem_cons_self r hr
    · exact fun u hu => htasks u (List.mem_cons_of_mem _ hu)

end Record

namespace Action

open ActionFlow.Frame

variable {P : Record → Prop}

theorem forest_runSequence {actions : List Action} (h : ∀ b ∈ actions, b.Leaves P)
    {done : Entries Record} {c : Context} (hdone : ∀ r ∈ Record.forest done, P r)
    (hs : (runSequence actions ⟨done, c⟩).Settled) :
    ∀ r ∈ Record.forest (runSequence actions ⟨done, c⟩).state.own, P r := by
  induction actions generalizing done c with
  | nil =>
    rw [runSequence]
    exact hdone
  | cons a rest ih =>
    have hsettled := settled_of_runSequence hs
    have hput : ∀ r ∈ Record.forest (a.filed done c).own, P r := by
      intro r hr
      rcases Record.mem_forest_put hr with hr | hr
      · exact hdone r hr
      · exact h a List.mem_cons_self c hsettled r hr
    rcases hsettled.ok_or_fault with ⟨u, hr⟩ | ⟨fault, hr⟩
    · rw [runSequence_of_ok rest done hr] at hs ⊢
      exact ih (fun b hb => h b (List.mem_cons_of_mem _ hb)) hput hs
    · rw [runSequence_of_fault rest done hr]
      exact hput

theorem tree_task {a : Action} (h : a.Leaves P)
    (lost : ∀ c panic, (a.ending c).result = .error (.panic panic) →
      ∀ now, P (a.freshRecord.lost now (Task.panicFault a.key panic))) (c : Context)
    (now : String) : ∀ r ∈ ((a.task c).record now).tree, P r := by
  by_cases hs : (a.ending c).Settled
  · rw [record_task hs]
    exact h c hs
  · obtain ⟨panic, hp⟩ := Ending.panic_of_not_settled hs
    rw [(task_of_panic hp now).1, tree_lost]
    intro r hr
    rw [List.mem_singleton.mp hr]
    exact lost c panic hp now

theorem forall_mem_tasks {Q : Task → Prop} {actions : List Action}
    (h : ∀ a ∈ actions, ∀ c, Q (a.task c)) (c : Context) : ∀ t ∈ tasks actions c, Q t := by
  induction actions generalizing c with
  | nil => exact nofun
  | cons a rest ih =>
    refine List.forall_mem_cons.mpr ⟨h a List.mem_cons_self c, ?_⟩
    exact ih (fun b hb => h b (List.mem_cons_of_mem _ hb)) _

theorem forest_runParallel {actions : List Action} (h : ∀ b ∈ actions, b.Leaves P)
    (lost : ∀ b ∈ actions, ∀ c panic, (b.ending c).result = .error (.panic panic) →
      ∀ now, P (b.freshRecord.lost now (Task.panicFault b.key panic))) (c : Context) :
    ∀ r ∈ Record.forest (runParallel actions ⟨[], c⟩).state.own, P r := by
  rw [state_runParallel_put]
  refine Record.forest_putRecords (by simp) (forall_mem_tasks ?_ c)
  exact fun b hb d => tree_task (h b hb) (lost b hb) d _

def Within (P : Record → Prop) (_ : Option Fault) (detail : Detail Record) (_ : Context) : Prop :=
  ∀ r ∈ Record.detailForest detail, P r

theorem within_steady : Steady (Within P) := by
  refine ⟨fun _ h => h, fun q h => ?_⟩
  unfold Within at h ⊢
  simpa only [Record.detailForest] using h

theorem within_kindRule {key : String} {kind : Kind Action}
    (h : ∀ b ∈ kind.actions, b.Leaves P)
    (lost : ∀ actions, kind = .group true actions → ∀ b ∈ actions, ∀ c panic,
      (b.ending c).result = .error (.panic panic) →
        ∀ now, P (b.freshRecord.lost now (Task.panicFault b.key panic))) :
    KindRule key (Within P) kind := by
  rcases kind with ⟨parallel, actions⟩ | ⟨loop, actions⟩ | (p | ⟨property, path, value⟩ | handler)
  · intro c _ hs
    unfold Within
    rw [Record.detailForest]
    cases parallel with
    | true => exact forest_runParallel h (lost actions rfl) c
    | false => exact forest_runSequence h (by simp) hs
  · refine ⟨fun _ h => h, fun _ h => h, ?_⟩
    intro iterations c index hbefore hs r hr
    rw [Record.detailForest, Record.iterationForest_concat, List.mem_append] at hr
    rcases hr with hr | hr
    · exact hbefore r (by rwa [Record.detailForest])
    · exact forest_runSequence h (by simp) hs r hr
  · trivial
  · intro name path value c _
    cases c.setVariable name (path.map Path.parse) value <;> simp [Within, Record.detailForest]
  · intro x c _
    simp [Within, Record.detailForest]

theorem leaves_node (a : Action) (h : a.Yields P) (inside : ∀ b ∈ a.kind.actions, b.Leaves P)
    (recovery : ∀ b ∈ a.errorActions, b.Leaves P) : a.Leaves P := by
  intro c hs
  have hown := h.handled c hs
  have hstart : Within P none a.kind.detail c := by
    intro r hr
    rw [Record.detailForest_detail] at hr
    cases hr
  have hleft := ending_left within_steady (within_kindRule inside h.lost) hstart hs
  rw [Record.tree_eq]
  refine List.forall_mem_cons.mpr ⟨hown, ?_⟩
  clear hown
  generalize (a.ending c).result = result at hleft
  generalize (a.ending c).state = state at hleft ⊢
  cases hleft with
  | passed closed =>
    rw [closed.errorActions, Record.forest_nil, List.append_nil]
    exact closed.kept
  | escaped closed none =>
    rw [closed.errorActions, Record.forest_nil, List.append_nil]
    exact closed.kept
  | recovered closed some ran settled =>
    subst ran
    refine List.forall_mem_append.mpr ⟨closed.kept, ?_⟩
    exact forest_runSequence recovery (by simp) settled

theorem leaves {actions : List Action} (h : ∀ b ∈ forest actions, b.Yields P) :
    ∀ a ∈ actions, a.Leaves P := forest_induction leaves_node h

/-! ### In turns -/

/-- However the handling of the action takes turns, each record in it satisfies `P`. -/
def LeavesInTurns (P : Record → Prop) (a : Action) : Prop :=
  ∀ turns result r, a.turns a.freshRecord turns result r → ∀ n ∈ r.tree, P n

section Turns

variable {actions : List Action} (h : ∀ b ∈ actions, b.LeavesInTurns P) {turns : List Turn}
  {result : Except Fault Unit} {records : Entries Record}

include h

theorem forest_sequenceTurns {done : Entries Record} (hdone : ∀ r ∈ Record.forest done, P r)
    (hs : sequenceTurns actions done turns result records) : ∀ r ∈ Record.forest records, P r := by
  induction actions generalizing done turns with
  | nil =>
    rw [sequenceTurns] at hs
    obtain ⟨-, -, rfl⟩ := hs
    exact hdone
  | cons a rest ih =>
    have hput : ∀ {ran result r}, a.turns a.freshRecord ran result r →
        ∀ n ∈ Record.forest (Entries.put done a.key r), P n := by
      intro ran result r hran n hn
      rcases Record.mem_forest_put hn with hn | hn
      · exact hdone n hn
      · exact h a List.mem_cons_self ran result r hran n hn
    rcases sequence_cons hs with ⟨ran, idle, r, fault, hran, -, -, -, rfl⟩ |
      ⟨ran, idle, r, later, hran, -, hrest, -⟩
    · exact hput hran
    · exact ih (fun b hb => h b (List.mem_cons_of_mem _ hb)) (hput hran) hrest

theorem tree_ended {each : List (List Turn)} {tasks : List Task}
    (hs : Turns.Ended (taskTurns actions) each tasks) (now : String) :
    ∀ t ∈ tasks, ∀ r ∈ (t.record now).tree, P r := by
  induction actions generalizing each tasks with
  | nil =>
    rw [taskTurns] at hs
    cases hs
    exact List.forall_mem_nil _
  | cons a rest ih =>
    obtain ⟨ran, r, result, others, later, hran, hothers, -, rfl⟩ := ended_cons hs
    refine List.forall_mem_cons.mpr ⟨h a List.mem_cons_self ran result r hran, ?_⟩
    exact ih (fun b hb => h b (List.mem_cons_of_mem _ hb)) hothers

theorem forest_childrenTurns {parallel : Bool}
    (hs : childrenTurns parallel actions [] turns result records) :
    ∀ r ∈ Record.forest records, P r := by
  cases parallel with
  | false => exact forest_sequenceTurns h (by simp) hs
  | true =>
    obtain ⟨each, tasks, inner, idle, c, hended, -, -, -, -, rfl⟩ := together_ways hs
    exact Record.forest_putRecords (by simp) (tree_ended h hended c.clock)

end Turns

def WithinInTurns (P : Record → Prop) (_ : Option Fault) (_ : List Turn)
    (detail : Detail Record) : Prop := ∀ r ∈ Record.detailForest detail, P r

theorem within_kindWays (key : String) {kind : Kind Action}
    (h : ∀ b ∈ kind.actions, b.LeavesInTurns P) : KindWays key (WithinInTurns P) kind := by
  rcases kind with ⟨parallel, actions⟩ | ⟨loop, actions⟩ | (p | ⟨property, path, value⟩ | handler)
  · intro past inner result records _ hs
    unfold WithinInTurns
    rw [Record.detailForest]
    exact forest_childrenTurns h hs
  · constructor
    · intro x past p iterations q hk
      unfold WithinInTurns at hk ⊢
      rw [Record.detailForest] at hk ⊢
      exact hk
    · exact fun _ _ hk => hk
    · intro items i past p iterations r inner result records _ _ _ _ _ hk hs
      have hround := forest_sequenceTurns h (by simp) hs
      unfold WithinInTurns at hk ⊢
      rw [Record.detailForest] at hk ⊢
      rw [Record.iterationForest_concat]
      exact List.forall_mem_append.mpr ⟨hk, hround⟩
  · trivial
  · intro write past _
    simp [WithinInTurns, Record.detailForest]
  · intro x s past _
    simp [WithinInTurns, Record.detailForest]

/-- What holds of the record of each action, however its handling takes turns, holds of all. -/
theorem leavesInTurns_node (a : Action)
    (own : ∀ turns result r, a.turns a.freshRecord turns result r → P r)
    (inside : ∀ b ∈ a.kind.actions, b.LeavesInTurns P)
    (recovery : ∀ b ∈ a.errorActions, b.LeavesInTurns P) : a.LeavesInTurns P := by
  intro turns result r h
  have hstable : Turns.Stable a.key (WithinInTurns P) := ⟨fun _ hk => hk, fun _ hk => hk⟩
  have hstart : WithinInTurns P none [] a.kind.detail := by
    simp [WithinInTurns, Record.detailForest_detail]
  obtain ⟨ran, c, idle, -, -, left⟩ := turns_left hstable (within_kindWays a.key inside) hstart h
  rw [Record.tree_eq]
  refine List.forall_mem_cons.mpr ⟨own turns result r h, ?_⟩
  cases left with
  | passed shut =>
    rw [shut.errorActions, Record.forest_nil, List.append_nil]
    exact shut.kept
  | escaped shut none =>
    rw [shut.errorActions, Record.forest_nil, List.append_nil]
    exact shut.kept
  | recovered d shut some ran rest =>
    exact List.forall_mem_append.mpr ⟨shut.kept, forest_sequenceTurns recovery (by simp) ran⟩

theorem finished_turns {a : Action} {turns : List Turn} {result : Except Fault Unit} {r : Record}
    (h : a.turns a.freshRecord turns result r) :
    r.Finished ∧ r.startedAt.isSome = true := by
  obtain ⟨ran, c, idle, -, -, left⟩ :=
    turns_left (stable_true a.key) (kindWays_true a.key a.kind) trivial h
  cases left with
  | passed shut => exact ⟨shut.finished, shut.startedAt⟩
  | escaped shut none => exact ⟨shut.finished, shut.startedAt⟩
  | recovered d shut some ran rest => exact ⟨shut.finished_with _, shut.startedAt⟩

end Action

theorem Automation.forall_mem_forest {P : Record → Prop} {a : Automation}
    (h : ∀ b ∈ Action.forest a.actions, b.Yields P) {ctx : Context} {o : Outcome}
    (ho : a.outcome ctx = .ok o) : ∀ r ∈ Record.forest o.actions, P r := by
  obtain ⟨hs, rfl⟩ := outcome_eq_ok_iff.mp ho
  exact Action.forest_runSequence (Action.leaves h) (by simp) hs

/-- Every record of a run is finished, whatever the handlers do, and it tells when it was started
unless it stands in for a task that panicked.  However the tasks take turns, every record is
finished and tells when it was started. -/
theorem Automation.records_finished (a : Automation) (ctx : Context) :
    (a.Calm → ∃ o, a.outcome ctx = .ok o) ∧
      (∀ o, a.outcome ctx = .ok o → ∀ r ∈ Record.forest o.actions,
        r.Finished ∧ (a.CalmTasks → r.startedAt.isSome = true)) ∧
      ∀ turns result records last, a.Schedule ctx turns result records last →
        ∀ r ∈ Record.forest records, r.Finished ∧ r.startedAt.isSome = true := by
  refine ⟨fun hc => hc.exists_outcome ctx, fun o ho r hr => ⟨?_, fun hc => ?_⟩, ?_⟩
  · refine forall_mem_forest (P := Record.Finished) (fun b _ => ⟨?_, ?_⟩) ho r hr
    · exact fun c hs => (Action.finished_ending hs).1
    · exact fun actions _ d _ c panic _ now => Action.finished_lost d now panic
  · refine forall_mem_forest (P := fun r => r.startedAt.isSome = true) (fun b hb => ⟨?_, ?_⟩) ho
      r hr
    · exact fun c hs => (Action.finished_ending hs).2
    -- In calm tasks there is no panic to stand in for.
    · intro actions hkind d hd c panic hp
      have hcalm := Action.calm_handle (hc b hb actions hkind) d hd
      exact absurd hp (hcalm _ panic)
  · intro turns result records last hschedule
    have hall : ∀ b ∈ a.actions,
        b.LeavesInTurns fun r => r.Finished ∧ r.startedAt.isSome = true :=
      Action.forest_induction Action.leavesInTurns_node fun b _ _ _ _ => Action.finished_turns
    exact Action.forest_sequenceTurns hall (by simp) hschedule.1

/-- An action that is skipped, and failures that are recovered from, in rounds and side by side. -/
def Automation.mixed : Automation where
  name := "mixed"
  actions :=
    [{ Action.idle "skip" with
       head := { name := "skip", key := "skip"
                 runCondition := some (.typed (.constant (.bool false))) } },
     { head := { name := "each", key := "each" }
       kind := .iterate { list := .constant (.array [.null, .null]) }
        [{ Action.failing "fail" with errorActions := [.idle "note"] }]
       errorActions := [] },
     { head := { name := "all", key := "all" }
       kind := .group true
        [.idle "call", { Action.failing "fail" with errorActions := [.idle "report"] }]
       errorActions := [] }]

theorem Automation.calm_mixed : mixed.Calm := by
  intro b hb
  have hforest : Action.forest mixed.actions = mixed.actions.take 2 ++
      [{ Action.failing "fail" with errorActions := [.idle "note"] }, .idle "note"] ++
      mixed.actions.drop 2 ++ [.idle "call",
        { Action.failing "fail" with errorActions := [.idle "report"] }, .idle "report"] := rfl
  rw [hforest] at hb
  simp only [mixed, List.take, List.drop, List.cons_append, List.nil_append, List.mem_cons,
    List.not_mem_nil, or_false] at hb
  rcases hb with rfl | rfl | rfl | rfl | rfl | rfl | rfl | rfl
  · refine ⟨⟨?_, nofun, nofun⟩, trivial⟩
    rintro c ⟨⟩
    simp [Condition.Calm, Provider.Calm]
  · refine ⟨⟨nofun, nofun, nofun⟩, ?_, nofun, nofun, nofun, nofun⟩
    simp [Provider.Calm]
  · exact ⟨(Action.calm_failing _).head, (Action.calm_failing _).kind⟩
  · exact Action.calm_idle _
  · exact ⟨⟨nofun, nofun, nofun⟩, trivial⟩
  · exact Action.calm_idle _
  · exact ⟨(Action.calm_failing _).head, (Action.calm_failing _).kind⟩
  · exact Action.calm_idle _

theorem Automation.records_finished_mixed :
    ∃ o turns result, mixed.outcome (.start "run" "now" .null) = .ok o ∧
      mixed.Schedule (.start "run" "now" .null) turns result o.actions
        (mixed.run (.start "run" "now" .null)).state.context ∧
      ((Record.forest o.actions).map fun r => (r.key, r.stage, r.succeeded)) =
        [("skip", .skipped, true), ("each", .completed, true),
          ("fail", .completed, false), ("note", .completed, true),
          ("fail", .completed, false), ("note", .completed, true),
          ("all", .completed, true), ("call", .completed, true),
          ("fail", .completed, false), ("report", .completed, true)] ∧
      ∀ r ∈ Record.forest o.actions, r.Finished ∧ r.startedAt.isSome = true := by
  obtain ⟨hexists, -, hschedules⟩ := records_finished mixed (.start "run" "now" .null)
  obtain ⟨o, ho⟩ := hexists calm_mixed
  obtain ⟨turns, result, hschedule, -, -⟩ := exists_schedule_of_outcome calm_mixed.calmTasks ho
  obtain ⟨-, ho'⟩ := outcome_eq_ok_iff.mp ho
  refine ⟨o, turns, result, ho, hschedule, ?_, hschedules turns result _ _ hschedule⟩
  rw [ho']
  decide +kernel

/-- A provider that panics in a task. -/
example :
    let lost : Action :=
      { head := { name := "lost", key := "lost" }
        kind := .simple (.setVariable (.constant (.text "x")) none
          (.custom fun _ => .error (.panic ⟨some "boom"⟩)))
        errorActions := [] }
    let all : Action :=
      { head := { name := "all", key := "all" }
        kind := .group true [lost]
        errorActions := [] }
    (Record.forest ((Automation.mk "lost" [all]).run (.start "run" "now" .null)).state.own).map
        (fun r => (r.key, r.startedAt)) = [("all", some "now"), ("lost", none)] := by
  decide +kernel

end ActionFlow
