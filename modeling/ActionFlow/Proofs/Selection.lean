import Mathlib.Data.List.ReduceOption
import ActionFlow.Proofs.TurnMembers

/-!
# What a parallel group makes of its tasks

Tasks end in any order.  Each outcome goes into the slot of its action, so that the group finds the
outcomes in the order of its actions when all of them are there: it records every action once, and
the first failure in that order is its own.
-/
namespace ActionFlow

namespace TaskOutcome

def fault? (key : String) : TaskOutcome → Option Fault
  | finished _ (.ok ()) => none
  | finished _ (.error fault) => some fault
  | panicked panic => some (Task.panicFault key panic)

def Succeeded (o : TaskOutcome) : Prop := ∃ record, o = finished record (.ok ())

theorem fault?_eq_none_iff {key : String} {o : TaskOutcome} :
    o.fault? key = none ↔ o.Succeeded := by
  rcases o with ⟨record, fault | _⟩ | panic <;> simp [fault?, Succeeded]

end TaskOutcome

namespace Task

/-! ### Slots -/

/-- An outcome comes in with the place of its task. -/
def arrive (slots : List (Option TaskOutcome)) (arrival : TaskOutcome × Nat) :
    List (Option TaskOutcome) := slots.set arrival.2 (some arrival.1)

def slots (count : Nat) (arrivals : List (TaskOutcome × Nat)) : List (Option TaskOutcome) :=
  arrivals.foldl arrive (List.replicate count none)

/-- The tasks of the actions with the outcomes that came in. -/
def gather (actions : List Action) (arrivals : List (TaskOutcome × Nat)) : List Task :=
  (actions.zip (slots actions.length arrivals).reduceOption).map fun p => ⟨p.1.freshRecord, p.2⟩

theorem length_arrived (slots : List (Option TaskOutcome)) (arrivals : List (TaskOutcome × Nat)) :
    (arrivals.foldl arrive slots).length = slots.length := by
  induction arrivals generalizing slots with
  | nil => rfl
  | cons x rest ih => rw [List.foldl_cons, ih, arrive, List.length_set]

theorem arrived_of_not_mem {arrivals : List (TaskOutcome × Nat)} {i : Nat}
    (h : i ∉ arrivals.map Prod.snd) (slots : List (Option TaskOutcome)) :
    (arrivals.foldl arrive slots)[i]? = slots[i]? := by
  induction arrivals generalizing slots with
  | nil => rfl
  | cons x rest ih =>
    rw [List.map_cons, List.mem_cons, not_or] at h
    rw [List.foldl_cons, ih h.2, arrive, List.getElem?_set_ne (Ne.symm h.1)]

/-- What has come in once stays in its slot, since nothing else goes there. -/
theorem arrived_of_mem {arrivals : List (TaskOutcome × Nat)}
    (hn : (arrivals.map Prod.snd).Nodup) {o : TaskOutcome} {i : Nat} (h : (o, i) ∈ arrivals)
    {slots : List (Option TaskOutcome)} (hi : i < slots.length) :
    (arrivals.foldl arrive slots)[i]? = some (some o) := by
  induction arrivals generalizing slots with
  | nil => cases h
  | cons x rest ih =>
    obtain ⟨hnot, hrest⟩ := List.nodup_cons.mp hn
    rw [List.foldl_cons]
    rcases List.mem_cons.mp h with rfl | h
    · rw [arrived_of_not_mem hnot, arrive, List.getElem?_set_self hi]
    · exact ih hrest h (by rw [arrive, List.length_set]; exact hi)

/-- Whatever the order in which they come in, the outcomes end up at their places. -/
theorem slots_of_perm {outcomes : List TaskOutcome} {arrivals : List (TaskOutcome × Nat)}
    (h : arrivals.Perm outcomes.zipIdx) :
    slots outcomes.length arrivals = outcomes.map some := by
  have hplaces : (arrivals.map Prod.snd).Nodup := by
    rw [(h.map Prod.snd).nodup_iff, List.zipIdx_map_snd]
    exact List.nodup_range'
  have hlength : (slots outcomes.length arrivals).length = outcomes.length := by
    rw [slots, length_arrived, List.length_replicate]
  apply List.ext_getElem?
  intro i
  rw [List.getElem?_map]
  rcases Nat.lt_or_ge i outcomes.length with hi | hi
  · have hmem : (outcomes[i], i) ∈ arrivals := by
      rw [h.mem_iff, List.mem_zipIdx_iff_getElem?]
      exact List.getElem?_eq_getElem hi
    rw [slots, arrived_of_mem hplaces hmem (by rw [List.length_replicate]; exact hi),
      List.getElem?_eq_getElem hi, Option.map_some]
  · rw [List.getElem?_eq_none (by rw [hlength]; exact hi), List.getElem?_eq_none hi,
      Option.map_none]

theorem reduceOption_map_some (outcomes : List TaskOutcome) :
    (outcomes.map some).reduceOption = outcomes := by
  induction outcomes with
  | nil => rfl
  | cons o rest ih => rw [List.map_cons, List.reduceOption_cons_of_some, ih]

theorem gather_of_perm {actions : List Action} {outcomes : List TaskOutcome}
    (hlength : outcomes.length = actions.length) {arrivals : List (TaskOutcome × Nat)}
    (h : arrivals.Perm outcomes.zipIdx) :
    (gather actions arrivals).map Task.start = actions.map Action.freshRecord ∧
      (gather actions arrivals).map Task.outcome = outcomes := by
  have hgather : gather actions arrivals =
      (actions.zip outcomes).map fun p => ⟨p.1.freshRecord, p.2⟩ := by
    rw [gather, ← hlength, slots_of_perm h, reduceOption_map_some]
  have hstart : ((actions.zip outcomes).map Prod.fst).map Action.freshRecord =
      actions.map Action.freshRecord := by
    rw [List.map_fst_zip (Nat.le_of_eq hlength.symm)]
  have houtcome : (actions.zip outcomes).map Prod.snd = outcomes :=
    List.map_snd_zip (Nat.le_of_eq hlength)
  rw [List.map_map] at hstart
  rw [hgather, List.map_map, List.map_map]
  exact ⟨hstart, houtcome⟩

/-! ### Settling -/

theorem fault?_eq (t : Task) : t.fault? = t.outcome.fault? t.start.key := by
  rcases t with ⟨start, record, fault | _ | panic⟩
  all_goals rfl

end Task

namespace Action

open ActionFlow.Frame

/-- What a group has recorded, and what it ends with, by the outcomes of its actions. -/
structure Selected (actions : List Action) (outcomes : List TaskOutcome)
    (result : Except (Stop Fault) Unit) (records : Entries Record) : Prop where
  keys : Entries.keys records = actions.map key
  finished : ∀ (i : Nat) (a : Action) (r : Record) (ended : Except Fault Unit),
    actions[i]? = some a → outcomes[i]? = some (.finished r ended) → records[i]? = some (a.key, r)
  /-- The record of a task that panicked tells of nothing but the panic. -/
  panicked : ∀ (i : Nat) (a : Action) (panic : Panic), actions[i]? = some a →
    outcomes[i]? = some (.panicked panic) →
    ∃ r : Record, records[i]? = some (a.key, r) ∧ r.stage = .completed ∧ r.succeeded = false ∧
      r.fault = some (.actionFailed a.key panic.report)
  ok_iff : result = .ok () ↔ ∀ o ∈ outcomes, o.Succeeded
  /-- A failed group fails with the first failure in the order of its actions. -/
  failed : result ≠ .ok () → ∃ (i : Nat) (a : Action) (o : TaskOutcome) (fault : Fault),
    actions[i]? = some a ∧ outcomes[i]? = some o ∧ o.fault? a.key = some fault ∧
      result = .error (.error fault) ∧ ∀ p ∈ outcomes.take i, p.Succeeded

section Settling

variable {actions : List Action} {tasks : List Task}
  (hstart : tasks.map Task.start = actions.map freshRecord)

include hstart

theorem task_of_start {i : Nat} {a : Action} {o : TaskOutcome} (ha : actions[i]? = some a)
    (ho : (tasks.map Task.outcome)[i]? = some o) : tasks[i]? = some ⟨a.freshRecord, o⟩ := by
  have hi : (tasks.map Task.start)[i]? = (actions.map freshRecord)[i]? := by rw [hstart]
  rw [List.getElem?_map, List.getElem?_map, ha] at hi
  rw [List.getElem?_map] at ho
  obtain ⟨t, ht, rfl⟩ := Option.map_eq_some_iff.mp ho
  rw [ht] at hi ⊢
  rw [← Option.some.inj hi]

theorem record_of_start {i : Nat} {a : Action} {o : TaskOutcome} (ha : actions[i]? = some a)
    (ho : (tasks.map Task.outcome)[i]? = some o) (now : String) :
    (Task.table now tasks)[i]? = some (a.key, (Task.mk a.freshRecord o).record now) := by
  rw [Task.table, List.getElem?_map, task_of_start hstart ha ho]
  rfl

theorem exists_failed {fault : Fault} (h : tasks.findSome? Task.fault? = some fault) :
    ∃ (i : Nat) (a : Action) (o : TaskOutcome), actions[i]? = some a ∧
      (tasks.map Task.outcome)[i]? = some o ∧ o.fault? a.key = some fault ∧
      ∀ p ∈ (tasks.map Task.outcome).take i, p.Succeeded := by
  obtain ⟨before, t, after, rfl, ht, hbefore⟩ := List.findSome?_eq_some_iff.mp h
  have hi : ((before ++ t :: after).map Task.start)[before.length]? = some t.start := by simp
  rw [hstart, List.getElem?_map] at hi
  obtain ⟨a, ha, hfresh⟩ := Option.map_eq_some_iff.mp hi
  have hkey : t.start.key = a.key := by
    rw [← hfresh]
    rfl
  refine ⟨before.length, a, t.outcome, ha, by simp, ?_, ?_⟩
  · rw [← hkey, ← Task.fault?_eq]
    exact ht
  · intro p hp
    have htake : ((before ++ t :: after).map Task.outcome).take before.length =
        before.map Task.outcome := by
      rw [← List.map_take, List.take_left]
    rw [htake] at hp
    obtain ⟨u, hu, rfl⟩ := List.mem_map.mp hp
    rw [← @TaskOutcome.fault?_eq_none_iff u.start.key, ← Task.fault?_eq]
    exact hbefore u hu

theorem selected_of_start (hn : (actions.map key).Nodup) (c : Context) :
    Selected actions (tasks.map Task.outcome) (Task.settle tasks ⟨[], c⟩).result
      (Task.settle tasks ⟨[], c⟩).state.own := by
  have hkeys := keys_of_start hstart
  have hrecords : Task.putRecords c.clock [] tasks = Task.table c.clock tasks :=
    Task.putRecords_eq (hkeys ▸ hn) (by simp)
  have hnone : tasks.findSome? Task.fault? = none ↔
      ∀ o ∈ tasks.map Task.outcome, o.Succeeded := by
    rw [List.findSome?_eq_none_iff, List.forall_mem_map]
    refine forall₂_congr fun t _ => ?_
    rw [Task.fault?_eq, TaskOutcome.fault?_eq_none_iff]
  rw [Task.settle_eq, hrecords, Task.firstFailure_eq]
  refine ⟨?_, ?_, ?_, ?_, ?_⟩
  · exact (Task.keys_table c.clock tasks).trans hkeys
  · intro i a r ended ha ho
    exact record_of_start hstart ha ho c.clock
  · intro i a panic ha ho
    have hlost : (Task.mk a.freshRecord (.panicked panic)).record c.clock =
        a.freshRecord.lost c.clock (.actionFailed a.key panic.report) := rfl
    refine ⟨_, record_of_start hstart ha ho c.clock, ?_⟩
    rw [hlost]
    exact ⟨rfl, rfl, rfl⟩
  · rw [← hnone]
    cases tasks.findSome? Task.fault? with
    | none => exact ⟨fun _ => rfl, fun _ => rfl⟩
    | some fault => exact ⟨nofun, nofun⟩
  · intro hfails
    cases hfind : tasks.findSome? Task.fault? with
    | none =>
      rw [hfind] at hfails
      exact absurd rfl hfails
    | some fault =>
      obtain ⟨i, a, o, ha, ho, hfault, hbefore⟩ := exists_failed hstart hfind
      exact ⟨i, a, o, fault, ha, ho, hfault, rfl, hbefore⟩

end Settling

/-! ### The ways to end -/

theorem start_tasks (actions : List Action) (c : Context) :
    (tasks actions c).map Task.start = actions.map freshRecord := by
  induction actions generalizing c with
  | nil => rfl
  | cons a rest ih =>
    rw [tasks, List.map_cons, List.map_cons, ih]
    rfl

/-- The outcomes of the actions of a group decide what it records and what it ends with: when its
tasks run one after another, when their outcomes come in by any order, and when the tasks take
turns in any way. -/
theorem runParallel_selects {actions : List Action} (hn : (actions.map key).Nodup) :
    (∀ c, Selected actions ((tasks actions c).map Task.outcome) (runParallel actions ⟨[], c⟩).result
      (runParallel actions ⟨[], c⟩).state.own) ∧
    (∀ (outcomes : List TaskOutcome) (arrivals : List (TaskOutcome × Nat)) (c : Context),
      outcomes.length = actions.length → arrivals.Perm outcomes.zipIdx →
        Selected actions outcomes (Task.settle (Task.gather actions arrivals) ⟨[], c⟩).result
          (Task.settle (Task.gather actions arrivals) ⟨[], c⟩).state.own) ∧
    ∀ turns result records, Turns.together (taskTurns actions) [] turns result records →
      ∃ each tasks, Turns.Ended (taskTurns actions) each tasks ∧
        Selected actions (tasks.map Task.outcome) (result.mapError .error) records := by
  refine ⟨?_, ?_, ?_⟩
  · intro c
    have hsettle : (runParallel actions ⟨[], c⟩).result =
          (Task.settle (tasks actions c) ⟨[], afterTasks actions c⟩).result ∧
        (runParallel actions ⟨[], c⟩).state =
          (Task.settle (tasks actions c) ⟨[], afterTasks actions c⟩).state :=
      ⟨result_runParallel actions c, state_runParallel_put actions c⟩
    rw [hsettle.1, hsettle.2]
    exact selected_of_start (start_tasks actions c) hn _
  · intro outcomes arrivals c hlength harrivals
    obtain ⟨hstart, houtcomes⟩ := Task.gather_of_perm hlength harrivals
    have hselected := selected_of_start hstart hn c
    rw [houtcomes] at hselected
    exact hselected
  · intro turns result records h
    obtain ⟨each, tasks, inner, idle, c, hended, -, -, -, hresult, hown⟩ := together_ways h
    have hselected := selected_of_start (start_ended hended) hn c
    rw [hresult, hown] at hselected
    exact ⟨each, tasks, hended, hselected⟩

/-- The last action fails first, and a panic of the second one comes in at the end. -/
theorem runParallel_selects_panic :
    let actions := [idle "one", idle "two", failing "three"]
    let c : Context := .start "run" "now" .null
    let passed : TaskOutcome := .finished ((idle "one").ending c).state.own (.ok ())
    let lost : TaskOutcome := .panicked ⟨some "boom"⟩
    let failed : TaskOutcome :=
      .finished ((failing "three").ending c).state.own (.error (.actionCancelled "three"))
    let arrivals := [(failed, 2), (passed, 0), (lost, 1)]
    (actions.map key).Nodup ∧ arrivals.Perm [passed, lost, failed].zipIdx ∧
      Selected actions [passed, lost, failed]
        (Task.settle (Task.gather actions arrivals) ⟨[], c⟩).result
        (Task.settle (Task.gather actions arrivals) ⟨[], c⟩).state.own ∧
      (Task.settle (Task.gather actions arrivals) ⟨[], c⟩).fault?.map Fault.code =
        some "automation.action.failed" ∧
      Selected actions ((tasks actions c).map Task.outcome) (runParallel actions ⟨[], c⟩).result
        (runParallel actions ⟨[], c⟩).state.own := by
  intro actions c passed lost failed arrivals
  have hn : (actions.map key).Nodup := by decide
  have harrivals : arrivals.Perm [passed, lost, failed].zipIdx :=
    @List.perm_append_comm _ [(failed, 2)] [(passed, 0), (lost, 1)]
  obtain ⟨hrun, hsettled, -⟩ := runParallel_selects hn
  exact ⟨hn, harrivals, hsettled _ _ c rfl harrivals, by decide +kernel, hrun c⟩

end Action

end ActionFlow
