import ActionFlow.Proofs.Calm
import Mathlib.Data.List.Forall2

/-!
# Cancelled runs

In a cancelled context an action starts and goes no further: no provider is resolved, no logic runs
and no variable is written.  Its error actions are entered and cancelled in turn, so that the first
of them leaves a record and the cancellation is never handled.
-/
namespace ActionFlow

/-- The record of an action that was cancelled before anything of it ran. -/
structure Record.Cancelled (a : Action) (r : Record) : Prop where
  key : r.key = a.key
  stage : r.stage = .completed
  succeeded : r.succeeded = false
  fault : r.fault = some (.actionCancelled a.key)
  detail : r.detail = a.kind.detail
  /-- One error action is entered if there are any. -/
  errorActions : Entries.keys r.errorActions = (a.errorActions.take 1).map Action.key

/-- The ending fails with a cancellation, and nothing but entering actions and publishing their
records has happened since the context `c`. -/
structure Ending.Cancelled {ρ : Type} (c : Context) (e : Ending (Frame ρ) Unit) : Prop where
  fault : ∃ fault, e.result = .error (.error fault) ∧ fault.code = "automation.action.cancelled"
  context : e.state.context = { c with published := e.state.context.published }
  journal : ∀ m ∈ e.journal, m.event = .entered

theorem Ending.Cancelled.settled {ρ : Type} {c : Context} {e : Ending (Frame ρ) Unit}
    (h : e.Cancelled c) : e.Settled := by
  obtain ⟨fault, hr, -⟩ := h.fault
  exact settled_of_fault hr

theorem Context.cancelled_of_eq {c d : Context} {published : Entries Value}
    (hc : c.cancelled = true) (h : d = { c with published := published }) : d.cancelled = true := by
  rw [h]
  exact hc

namespace Lifecycle

open ActionFlow.Frame

variable {head : Head} {logic : Step (Frame Record) Unit} {r : Record} {c : Context}

/-- The record of a cancelled action before its error actions. -/
def cancelledRecord (key : String) (r : Record) (now : String) : Record :=
  (r.begun now).lost now (.actionCancelled key)

theorem intercept_of_cancelled (key : String) (sequence : Step (Frame (Entries Record)) Unit)
    (r : Record) (c : Context) :
    intercept key (some sequence) (.actionCancelled key) ⟨r.begun c.clock, c⟩ =
      file (.recovery key) [] sequence (fun records r => { r with errorActions := records })
        ⟨cancelledRecord key r c.clock,
          c.publish key (cancelledRecord key r c.clock).snapshot⟩ := rfl

theorem attempted_of_cancelled (hr : r.stage = .notStarted) (hc : c.cancelled = true) :
    attempted head logic ⟨r, c⟩ =
      ⟨.error (.error (.actionCancelled head.key)), ⟨r.begun c.clock, c⟩, []⟩ := by
  have hcheck : ensureNotCancelled head.key ⟨r.begun c.clock, c⟩ =
      (⟨.error (.error (.actionCancelled head.key)), ⟨r.begun c.clock, c⟩, []⟩ :
        Ending (Frame Record) Unit) := ensureNotCancelled_of_cancelled hc head.key
  unfold attempted
  rw [begin_bind hr, Step.bind_of_error (congrArg Ending.result hcheck), hcheck]

theorem guarded_of_cancelled (recovery : Option (Step (Frame (Entries Record)) Unit))
    (hr : r.stage = .notStarted) (hc : c.cancelled = true) :
    guarded head logic recovery ⟨r, c⟩ =
      intercept head.key recovery (.actionCancelled head.key) ⟨r.begun c.clock, c⟩ := by
  have hattempted : attempted head logic ⟨r, c⟩ = _ := attempted_of_cancelled hr hc
  rw [guarded, Step.attempt_bind_of_fault (congrArg Ending.result hattempted), hattempted]
  rfl

theorem handle_of_cancelled (recovery : Option (Step (Frame (Entries Record)) Unit))
    (hr : r.stage = .notStarted) (hc : c.cancelled = true) {e : Ending (Frame Record) Unit}
    (he : intercept head.key recovery (.actionCancelled head.key) ⟨r.begun c.clock, c⟩ = e)
    {fault : Fault} (hf : e.result = .error (.error fault)) :
    handle head logic recovery ⟨r, c⟩ =
      ⟨.error (.error fault),
        ⟨e.state.own, e.state.context.publish head.key e.state.own.snapshot⟩,
        ⟨[.action head.key], .entered, c⟩ :: e.journal⟩ := by
  have hguarded : guarded head logic recovery ⟨r, c⟩ = e :=
    (guarded_of_cancelled recovery hr hc).trans he
  have hpublished : thenPublish head.key (guarded head logic recovery) ⟨r, c⟩ =
      ⟨.error (.error fault), ⟨e.state.own, e.state.context.publish head.key e.state.own.snapshot⟩,
        e.journal⟩ := by
    have hsettled : (guarded head logic recovery ⟨r, c⟩).Settled := by
      rw [hguarded]
      exact Ending.settled_of_fault hf
    rw [thenPublish_eq head.key hsettled, hguarded, hf]
  have hmark : (mark head.key .entered : Step (Frame Record) Unit) ⟨r, c⟩ =
      ⟨.ok (), ⟨r, c⟩, [⟨[.action head.key], .entered, c⟩]⟩ := rfl
  rw [handle_eq, Step.bind_of_ok (congrArg Ending.result hmark), hmark, hpublished]
  rfl

end Lifecycle

namespace Action

open ActionFlow.Frame

/-- Handling the action in a cancelled context is cancelled, and so is every record it leaves. -/
structure Cancels (a : Action) (c : Context) (e : Ending (Frame Record) Unit) : Prop where
  ending : e.Cancelled c
  record : e.state.own.Cancelled a
  inside : ∀ r ∈ e.state.own.tree, ∃ b ∈ a.tree, r.Cancelled b

theorem cancelled_of_record {a : Action} {now : String} {records : Entries Record}
    (hkeys : Entries.keys records = (a.errorActions.take 1).map key) :
    ({ Lifecycle.cancelledRecord a.key a.freshRecord now with errorActions := records } :
      Record).Cancelled a := by
  have hrecord : Lifecycle.cancelledRecord a.key a.freshRecord now =
      { a.freshRecord with
        stage := .completed
        startedAt := some now
        completedAt := some now
        fault := some (.actionCancelled a.key)
        succeeded := false } := by
    rw [Lifecycle.cancelledRecord, Record.lost_eq]
    rfl
  rw [hrecord]
  exact ⟨rfl, rfl, rfl, rfl, rfl, hkeys⟩

theorem tree_cancelledRecord (a : Action) (now : String) (records : Entries Record) :
    Record.tree { Lifecycle.cancelledRecord a.key a.freshRecord now with errorActions := records } =
      { Lifecycle.cancelledRecord a.key a.freshRecord now with errorActions := records } ::
        Record.forest records := by
  have hdetail : (Lifecycle.cancelledRecord a.key a.freshRecord now).detail = a.kind.detail :=
    Record.detail_lost _ _ _
  rw [Record.tree_eq]
  simp only [hdetail, Record.detailForest_detail, List.nil_append]

/-! ### Sequences -/

theorem runSequence_of_cancelled {a : Action} (rest : List Action) {c : Context}
    (h : a.Cancels c (a.ending c)) :
    (runSequence (a :: rest) ⟨[], c⟩).Cancelled c ∧
      (runSequence (a :: rest) ⟨[], c⟩).state.own = [(a.key, (a.ending c).state.own)] := by
  obtain ⟨fault, hr, hcode⟩ := h.ending.fault
  rw [runSequence_of_fault rest [] hr]
  exact ⟨⟨⟨fault, rfl, hcode⟩, h.ending.context, h.ending.journal⟩, rfl⟩

/-! ### The induction -/

/-- What follows the cancellation of `a` before the end of its handling: the records of the error
actions are those of cancelled actions too. -/
structure Intercepts (a : Action) (c : Context) (e : Ending (Frame Record) Unit)
    (records : Entries Record) : Prop where
  ending : e.Cancelled c
  own : e.state.own =
    { Lifecycle.cancelledRecord a.key a.freshRecord c.clock with errorActions := records }
  keys : Entries.keys records = (a.errorActions.take 1).map key
  inside : ∀ r ∈ Record.forest records, ∃ b ∈ forest a.errorActions, r.Cancelled b

theorem intercepts {a : Action} {c : Context} (hc : c.cancelled = true)
    (recovery : ∀ b ∈ a.errorActions, ∀ c : Context, c.cancelled = true →
      b.Cancels c (b.ending c)) :
    ∃ records, a.Intercepts c (Lifecycle.intercept a.key a.recovery (.actionCancelled a.key)
      ⟨a.freshRecord.begun c.clock, c⟩) records := by
  cases he : a.errorActions with
  | nil =>
    have hnone : a.recovery = none := by simp [Action.recovery, he]
    rw [hnone]
    refine ⟨[], ⟨⟨_, rfl, rfl⟩, rfl, nofun⟩, rfl, by rw [he]; rfl, ?_⟩
    simp
  | cons b rest =>
    have hsome : a.recovery = some (runSequence (b :: rest)) := by simp [Action.recovery, he]
    -- The first error action is handled in the context in which `a` is published.
    have hb := recovery b (he ▸ List.mem_cons_self)
      (c.publish a.key (Lifecycle.cancelledRecord a.key a.freshRecord c.clock).snapshot) hc
    obtain ⟨hsequence, hown⟩ := runSequence_of_cancelled rest hb
    rw [hsome, Lifecycle.intercept_of_cancelled, file_of_settled _ _ hsequence.settled]
    refine ⟨_, ⟨hsequence.fault, hsequence.context, ?_⟩, rfl, ?_, ?_⟩
    · intro m hm
      obtain ⟨inner, hinner, rfl⟩ := List.mem_map.mp hm
      exact hsequence.journal inner hinner
    · rw [hown, he]
      rfl
    · intro r hr
      rw [hown, Record.forest_cons, Record.forest_nil, List.append_nil] at hr
      obtain ⟨d, hd, hcancelled⟩ := hb.inside r hr
      exact ⟨d, forest_of_mem (he ▸ List.mem_cons_self) d hd, hcancelled⟩

theorem cancels_node (a : Action)
    (_ : ∀ b ∈ a.kind.actions, ∀ c : Context, c.cancelled = true → b.Cancels c (b.ending c))
    (recovery : ∀ b ∈ a.errorActions, ∀ c : Context, c.cancelled = true →
      b.Cancels c (b.ending c)) (c : Context) (hc : c.cancelled = true) :
    a.Cancels c (a.ending c) := by
  obtain ⟨records, hi⟩ := intercepts hc recovery
  obtain ⟨fault, hfault, hcode⟩ := hi.ending.fault
  have hcancelled : ({ Lifecycle.cancelledRecord a.key a.freshRecord c.clock with
      errorActions := records } : Record).Cancelled a := cancelled_of_record hi.keys
  rw [ending_eq, Lifecycle.handle_of_cancelled a.recovery rfl hc rfl hfault]
  refine ⟨⟨⟨fault, rfl, hcode⟩, ?_, List.forall_mem_cons.mpr ⟨rfl, hi.ending.journal⟩⟩, ?_, ?_⟩
  · exact congrArg (fun d : Context => d.publish a.key _) hi.ending.context
  · exact hi.own ▸ hcancelled
  · intro r hr
    have htree := hi.own ▸ hr
    rw [tree_cancelledRecord, List.mem_cons] at htree
    rcases htree with rfl | hr
    · exact ⟨a, a.self_mem_tree, hcancelled⟩
    · obtain ⟨b, hb, hcancelled⟩ := hi.inside r hr
      exact ⟨b, mem_tree_of_recovery hb, hcancelled⟩

theorem cancels {c : Context} (hc : c.cancelled = true) (a : Action) : a.Cancels c (a.ending c) :=
  Action.induction (P := fun a => ∀ c : Context, c.cancelled = true → a.Cancels c (a.ending c))
    cancels_node a c hc

/-! ### Groups -/

theorem runTasks_of_cancelled (actions : List Action) {c : Context} (hc : c.cancelled = true)
    (done : List Task) :
    afterTasks actions c = { c with published := (afterTasks actions c).published } ∧
      ∀ m ∈ (runTasks actions ⟨done, c⟩).journal, m.event = .entered := by
  induction actions generalizing done c with
  | nil =>
    rw [runTasks]
    exact ⟨rfl, List.forall_mem_nil _⟩
  | cons a rest ih =>
    have ha := cancels hc a
    obtain ⟨hcontext, hjournal⟩ :=
      ih (Context.cancelled_of_eq hc ha.ending.context) (done ++ [a.task c])
    have hspawn : Task.spawn a.freshRecord (handle a) ⟨done, c⟩ =
        ⟨.ok (), ⟨done ++ [a.task c], (a.ending c).state.context⟩, (a.ending c).journal⟩ := rfl
    rw [runTasks, Step.bind_of_ok (congrArg Ending.result hspawn), hspawn]
    constructor
    · rw [afterTasks, hcontext, ha.ending.context]
    · intro m hm
      rcases List.mem_append.mp hm with hm | hm
      · exact ha.ending.journal m hm
      · exact hjournal m hm

theorem forall₂_tasks {actions : List Action} {c : Context} (hc : c.cancelled = true)
    (now : String) :
    List.Forall₂ (fun a entry => entry.1 = a.key ∧ entry.2.Cancelled a) actions
      (Task.table now (tasks actions c)) := by
  induction actions generalizing c with
  | nil => exact .nil
  | cons a rest ih =>
    have ha := cancels hc a
    refine .cons ⟨rfl, ?_⟩ (ih (Context.cancelled_of_eq hc ha.ending.context))
    show ((a.task c).record now).Cancelled a
    rw [record_task ha.ending.settled]
    exact ha.record

theorem journal_runParallel (actions : List Action) (c : Context) :
    (runParallel actions ⟨[], c⟩).journal = (runTasks actions ⟨[], c⟩).journal := by
  rw [runParallel_eq]

/-- The group fails with what its first action fails with. -/
theorem runParallel_of_cancelled {a : Action} {rest : List Action} {c : Context}
    (hc : c.cancelled = true) (hn : ((a :: rest).map key).Nodup) :
    (runParallel (a :: rest) ⟨[], c⟩).Cancelled c := by
  have ha := cancels hc a
  obtain ⟨fault, hr, hcode⟩ := ha.ending.fault
  obtain ⟨hcontext, hjournal⟩ := runTasks_of_cancelled (a :: rest) hc []
  refine ⟨⟨fault, ?_, hcode⟩, ?_, ?_⟩
  · have hfault : (a.task c).fault? = some fault := by
      rw [fault?_task ha.ending.settled, Ending.fault?_of_fault hr]
    rw [result_runParallel, Task.firstFailure_eq, tasks, List.findSome?_cons, hfault]
    rfl
  · rw [state_runParallel hn]
    exact hcontext
  · rw [journal_runParallel]
    exact hjournal

end Action

open ActionFlow.Action in
/-- In a cancelled context nothing goes further than being entered.  An action is cancelled whatever
it is and whatever its error actions are; a sequence leaves the record of its first action, a
parallel group that of each action, and an automation ends with the cancellation. -/
theorem Context.stops_of_cancelled {c : Context} (hc : c.cancelled = true) :
    (∀ a : Action, (a.handle ⟨a.freshRecord, c⟩).Cancelled c ∧
      (a.handle ⟨a.freshRecord, c⟩).state.own.Cancelled a ∧
      ∀ r ∈ (a.handle ⟨a.freshRecord, c⟩).state.own.tree, ∃ b ∈ a.tree, r.Cancelled b) ∧
    (∀ (a : Action) (rest : List Action), (runSequence (a :: rest) ⟨[], c⟩).Cancelled c ∧
      ∃ r : Record, (runSequence (a :: rest) ⟨[], c⟩).state.own = [(a.key, r)] ∧
        r.Cancelled a) ∧
    (∀ actions : List Action, (actions.map key).Nodup →
      (actions ≠ [] → (runParallel actions ⟨[], c⟩).Cancelled c) ∧
      List.Forall₂ (fun a entry => entry.1 = a.key ∧ entry.2.Cancelled a) actions
        (runParallel actions ⟨[], c⟩).state.own) ∧
    ∀ automation : Automation, automation.actions ≠ [] → ∃ o fault,
      automation.outcome c = .ok o ∧ o.error = some fault ∧
        fault.code = "automation.action.cancelled" := by
  refine ⟨fun a => ?_, fun a rest => ?_, fun actions hn => ⟨fun hne => ?_, ?_⟩,
    fun automation hne => ?_⟩
  · exact ⟨(cancels hc a).ending, (cancels hc a).record, (cancels hc a).inside⟩
  · have ha := cancels hc a
    obtain ⟨hsequence, hown⟩ := runSequence_of_cancelled rest ha
    exact ⟨hsequence, _, hown, ha.record⟩
  · obtain ⟨a, rest, rfl⟩ := List.exists_cons_of_ne_nil hne
    exact runParallel_of_cancelled hc hn
  · rw [state_runParallel hn]
    exact forall₂_tasks hc _
  · obtain ⟨a, rest, he⟩ := List.exists_cons_of_ne_nil hne
    have hsequence := (runSequence_of_cancelled rest (cancels hc a)).1
    obtain ⟨fault, hr, hcode⟩ := hsequence.fault
    have hrun : automation.run c = runSequence (a :: rest) ⟨[], c⟩ := by
      rw [Automation.run, he]
    refine ⟨_, fault, Automation.outcome_eq_ok_iff.mpr ⟨hrun ▸ hsequence.settled, rfl⟩, ?_, hcode⟩
    rw [hrun]
    exact Ending.fault?_of_fault hr

open ActionFlow.Action in
theorem Context.stops_of_cancelled_recovering :
    let c := (start "run" "now" .null).cancel
    let a := assigning "write" "x" none (.integer 1)
      [assigning "undo" "x" none .null [idle "report"], idle "log"]
    c.cancelled = true ∧ (a.handle ⟨a.freshRecord, c⟩).Cancelled c ∧
      (a.handle ⟨a.freshRecord, c⟩).state.own.Cancelled a ∧
      (∃ r : Record, (runSequence [a, idle "next"] ⟨[], c⟩).state.own = [("write", r)] ∧
        r.Cancelled a) ∧
      List.Forall₂ (fun a entry => entry.1 = a.key ∧ entry.2.Cancelled a) [a, idle "next"]
        (runParallel [a, idle "next"] ⟨[], c⟩).state.own ∧
      ∃ o fault, (Automation.mk "main" [a]).outcome c = .ok o ∧ o.error = some fault ∧
        fault.code = "automation.action.cancelled" := by
  intro c a
  obtain ⟨handled, sequence, parallel, automation⟩ := stops_of_cancelled (c := c) rfl
  refine ⟨rfl, (handled a).1, (handled a).2.1, (sequence a [idle "next"]).2, ?_, ?_⟩
  · exact (parallel [a, idle "next"] (by decide)).2
  · exact automation ⟨"main", [a]⟩ (by simp)

end ActionFlow
