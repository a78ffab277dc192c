import ActionFlow.Proofs.Rounds

/-!
# Members of sequences and groups

`SequenceRule` says what has to be shown of one member of a sequence and carries it through the
sequence.  The tasks of a parallel group are a function of the context they start in.  What a kind
runs leaves the shell of the record alone, so that only the fault and the detail are its own.
-/
namespace ActionFlow

/-! ### Sequences -/

namespace Action

open ActionFlow.Frame

def ending (a : Action) (c : Context) : Ending (Frame Record) Unit := a.handle ⟨a.freshRecord, c⟩

/-- A condition on the records that a sequence adds, its fault, and the context around it. -/
structure SequenceRule (actions : List Action)
    (R : Context → Entries Record → Option Fault → Context → Prop) : Prop where
  nil : ∀ c, R c [] none c
  stop : ∀ a ∈ actions, ∀ c fault, (a.ending c).result = .error (.error fault) →
    R c [(a.key, (a.ending c).state.own)] (some fault) (a.ending c).state.context
  step : ∀ a ∈ actions, ∀ c rest x c', (a.ending c).result = .ok () →
    R (a.ending c).state.context rest x c' → R c ((a.key, (a.ending c).state.own) :: rest) x c'

/-- What a sequence owns after a member of it. -/
def filed (a : Action) (done : Entries Record) (c : Context) : Frame (Entries Record) :=
  ⟨Entries.put done a.key (a.ending c).state.own, (a.ending c).state.context⟩

theorem runMember_of_settled {a : Action} (done : Entries Record) {c : Context}
    (h : (a.ending c).Settled) :
    runMember a.key a.freshRecord a.handle ⟨done, c⟩ =
      ⟨(a.ending c).result, a.filed done c, (a.ending c).journal⟩ := by
  have hending : a.handle ⟨a.freshRecord, c⟩ = a.ending c := rfl
  rcases h.ok_or_fault with ⟨_, hr⟩ | ⟨fault, hr⟩
  · simp [runMember, Step.bind_eq, Step.andThen, nested, Frame.modify, Step.update,
      Step.ofExcept_ok, hending, hr, filed]
  · simp [runMember, Step.bind_eq, Step.andThen, nested, Frame.modify, Step.update,
      Step.ofExcept_error, hending, hr, filed]

/-- A panic leaves no record of its action. -/
theorem runMember_of_panic {a : Action} (done : Entries Record) {c : Context} {panic : Panic}
    (h : (a.ending c).result = .error (.panic panic)) :
    runMember a.key a.freshRecord a.handle ⟨done, c⟩ =
      ⟨.error (.panic panic), ⟨done, (a.ending c).state.context⟩, (a.ending c).journal⟩ := by
  have hending : a.handle ⟨a.freshRecord, c⟩ = a.ending c := rfl
  simp [runMember, Step.bind_eq, Step.andThen, nested, hending, h]

theorem runSequence_nil (done : Entries Record) (c : Context) :
    runSequence [] ⟨done, c⟩ = ⟨.ok (), ⟨done, c⟩, []⟩ := by
  rw [runSequence]
  rfl

theorem settled_of_runSequence {a : Action} {rest : List Action} {done : Entries Record}
    {c : Context} (h : (runSequence (a :: rest) ⟨done, c⟩).Settled) : (a.ending c).Settled := by
  rw [runSequence] at h
  intro panic hp
  exact Step.settled_of_bind h panic (congrArg Ending.result (runMember_of_panic done hp))

theorem runSequence_of_ok {a : Action} (rest : List Action) (done : Entries Record) {c : Context}
    {u : Unit} (h : (a.ending c).result = .ok u) :
    runSequence (a :: rest) ⟨done, c⟩ =
      ⟨(runSequence rest (a.filed done c)).result, (runSequence rest (a.filed done c)).state,
        (a.ending c).journal ++ (runSequence rest (a.filed done c)).journal⟩ := by
  have hmember := runMember_of_settled done (Ending.settled_of_ok h)
  rw [runSequence, Step.bind_of_ok (by rw [hmember, h]), hmember]

theorem runSequence_of_fault {a : Action} (rest : List Action) (done : Entries Record)
    {c : Context} {fault : Fault} (h : (a.ending c).result = .error (.error fault)) :
    runSequence (a :: rest) ⟨done, c⟩ =
      ⟨.error (.error fault), a.filed done c, (a.ending c).journal⟩ := by
  have hmember := runMember_of_settled done (Ending.settled_of_fault h)
  rw [runSequence, Step.bind_of_error (by rw [hmember, h]), hmember]

theorem runSequence_of_panic {a : Action} (rest : List Action) (done : Entries Record)
    {c : Context} {panic : Panic} (h : (a.ending c).result = .error (.panic panic)) :
    runSequence (a :: rest) ⟨done, c⟩ =
      ⟨.error (.panic panic), ⟨done, (a.ending c).state.context⟩, (a.ending c).journal⟩ := by
  have hmember := runMember_of_panic done h
  rw [runSequence, Step.bind_of_error (congrArg Ending.result hmember), hmember]

theorem filed_of_not_mem {a : Action} {done : Entries Record} (h : a.key ∉ Entries.keys done)
    (c : Context) :
    a.filed done c =
      ⟨done ++ [(a.key, (a.ending c).state.own)], (a.ending c).state.context⟩ := by
  rw [filed, Entries.put_of_not_mem h]

/-- A sequence adds records of its first actions, of all of them unless a fault stops it. -/
theorem SequenceRule.run {actions : List Action}
    {R : Context → Entries Record → Option Fault → Context → Prop} (h : SequenceRule actions R)
    (hn : (actions.map key).Nodup) {done : Entries Record} {c : Context}
    (hd : ∀ a ∈ actions, a.key ∉ Entries.keys done)
    (hs : (runSequence actions ⟨done, c⟩).Settled) :
    ∃ added, (runSequence actions ⟨done, c⟩).state.own = done ++ added ∧
      Entries.keys added <+: actions.map key ∧
      ((runSequence actions ⟨done, c⟩).fault? = none → Entries.keys added = actions.map key) ∧
      R c added (runSequence actions ⟨done, c⟩).fault?
        (runSequence actions ⟨done, c⟩).state.context := by
  -- The records so far only grow at the end, since no key of the rest is among theirs.
  induction actions generalizing done c with
  | nil =>
    exact ⟨[], by simp [runSequence, Step.pure_eq, Step.done], by simp, fun _ => rfl, h.nil c⟩
  | cons a rest ih =>
    have hfiled := filed_of_not_mem (hd a List.mem_cons_self) c
    rcases (settled_of_runSequence hs).ok_or_fault with ⟨u, hr⟩ | ⟨fault, hr⟩
    · rw [runSequence_of_ok rest done hr, hfiled] at hs ⊢
      obtain ⟨hnot, hrest⟩ := List.nodup_cons.mp hn
      have hd' : ∀ b ∈ rest,
          b.key ∉ Entries.keys (done ++ [(a.key, (a.ending c).state.own)]) := by
        intro b hb
        refine Entries.not_mem_keys_concat (hd b (List.mem_cons_of_mem _ hb)) fun he => ?_
        exact hnot (he ▸ List.mem_map_of_mem hb)
      obtain ⟨added, ho, hp, ha, hR⟩ := ih
        ⟨h.nil, fun b hb => h.stop b (List.mem_cons_of_mem _ hb),
          fun b hb => h.step b (List.mem_cons_of_mem _ hb)⟩ hrest hd' hs
      refine ⟨(a.key, (a.ending c).state.own) :: added, ?_, ?_, ?_, ?_⟩
      · rw [ho]
        simp
      · exact List.cons_prefix_cons.mpr ⟨rfl, hp⟩
      · intro hx
        rw [Entries.keys_cons, ha hx, List.map_cons]
      · exact h.step a List.mem_cons_self c added _ _ hr hR
    · rw [runSequence_of_fault rest done hr, hfiled]
      refine ⟨[(a.key, (a.ending c).state.own)], rfl, ?_, nofun, ?_⟩
      · exact List.cons_prefix_cons.mpr ⟨rfl, List.nil_prefix⟩
      · exact h.stop a List.mem_cons_self c fault hr

/-! ### Tasks -/

def task (a : Action) (c : Context) : Task where
  start := a.freshRecord
  outcome := match (a.ending c).result with
    | .ok () => .finished (a.ending c).state.own (.ok ())
    | .error (.error fault) => .finished (a.ending c).state.own (.error fault)
    | .error (.panic panic) => .panicked panic

def tasks : List Action → Context → List Task
  | [], _ => []
  | a :: rest, c => a.task c :: tasks rest (a.ending c).state.context

def afterTasks : List Action → Context → Context
  | [], c => c
  | a :: rest, c => afterTasks rest (a.ending c).state.context

theorem runTasks_eq (actions : List Action) (done : List Task) (c : Context) :
    (runTasks actions ⟨done, c⟩).result = .ok () ∧
      (runTasks actions ⟨done, c⟩).state = ⟨done ++ tasks actions c, afterTasks actions c⟩ := by
  induction actions generalizing done c with
  | nil => simp [runTasks, tasks, afterTasks, Step.pure_eq, Step.done]
  | cons a rest ih =>
    have hspawn : (Task.spawn a.freshRecord (handle a) ⟨done, c⟩).state =
        ⟨done ++ [a.task c], (a.ending c).state.context⟩ := rfl
    have hbind : runTasks (a :: rest) =
        (do Task.spawn a.freshRecord (handle a); runTasks rest) := by rw [runTasks]
    rw [hbind, Step.bind_of_ok rfl, hspawn]
    obtain ⟨h1, h2⟩ := ih (done ++ [a.task c]) (a.ending c).state.context
    refine ⟨h1, ?_⟩
    rw [h2, tasks, afterTasks, List.append_assoc, List.singleton_append]

theorem keys_tasks (actions : List Action) (c : Context) :
    ((tasks actions c).map fun t => t.start.key) = actions.map key := by
  induction actions generalizing c with
  | nil => rfl
  | cons a rest ih =>
    rw [tasks, List.map_cons, List.map_cons, ih]
    rfl

end Action

namespace Task

def table (now : String) (tasks : List Task) : Entries Record :=
  tasks.map fun t => (t.start.key, t.record now)

def fault? (t : Task) : Option Fault :=
  match t.result with
  | .ok () => none
  | .error fault => some fault

theorem firstFailure_eq (tasks : List Task) :
    firstFailure tasks =
      match tasks.findSome? fault? with
      | none => .ok ()
      | some fault => .error fault := by
  induction tasks with
  | nil => rfl
  | cons t rest ih =>
    rw [firstFailure, List.findSome?_cons]
    unfold fault?
    cases t.result with
    | ok u => exact ih
    | error fault => rfl

theorem settle_eq (tasks : List Task) (s : Frame (Entries Record)) :
    settle tasks s =
      ⟨(firstFailure tasks).mapError .error,
        ⟨putRecords s.context.clock s.own tasks, s.context⟩, []⟩ := rfl

theorem keys_table (now : String) (tasks : List Task) :
    Entries.keys (table now tasks) = tasks.map fun t => t.start.key := by
  simp [table, Entries.keys]

theorem putRecords_eq {now : String} {done : Entries Record} {tasks : List Task}
    (hn : (tasks.map fun t => t.start.key).Nodup)
    (hd : ∀ t ∈ tasks, t.start.key ∉ Entries.keys done) :
    putRecords now done tasks = done ++ table now tasks := by
  induction tasks generalizing done with
  | nil => simp [putRecords, table]
  | cons t rest ih =>
    obtain ⟨hnot, hrest⟩ := List.nodup_cons.mp hn
    have hput : Entries.put done t.start.key (t.record now) =
        done ++ [(t.start.key, t.record now)] :=
      Entries.put_of_not_mem (hd t List.mem_cons_self) _
    have hd' : ∀ u ∈ rest,
        u.start.key ∉ Entries.keys (done ++ [(t.start.key, t.record now)]) := by
      intro u hu
      refine Entries.not_mem_keys_concat (hd u (List.mem_cons_of_mem _ hu)) fun he => ?_
      exact hnot (List.mem_map.mpr ⟨u, hu, he⟩)
    have hcons : putRecords now done (t :: rest) =
        putRecords now (Entries.put done t.start.key (t.record now)) rest := rfl
    rw [hcons, hput, ih hrest hd']
    simp [table]

end Task

namespace Action

open ActionFlow.Frame

theorem record_task {a : Action} {c : Context} (hs : (a.ending c).Settled) (now : String) :
    (a.task c).record now = (a.ending c).state.own := by
  rcases hs.ok_or_fault with ⟨u, hr⟩ | ⟨fault, hr⟩
  · simp [task, Task.record, hr]
  · simp [task, Task.record, hr]

theorem fault?_task {a : Action} {c : Context} (hs : (a.ending c).Settled) :
    (a.task c).fault? = (a.ending c).fault? := by
  rcases hs.ok_or_fault with ⟨u, hr⟩ | ⟨fault, hr⟩
  · rw [Ending.fault?_of_ok hr]
    simp [task, Task.fault?, Task.result, hr]
  · rw [Ending.fault?_of_fault hr]
    simp [task, Task.fault?, Task.result, hr]

/-- A task that panics leaves a record that tells nothing but the panic. -/
theorem task_of_panic {a : Action} {c : Context} {panic : Panic}
    (hr : (a.ending c).result = .error (.panic panic)) (now : String) :
    (a.task c).record now = a.freshRecord.lost now (Task.panicFault a.key panic) ∧
      (a.task c).fault? = some (Task.panicFault a.key panic) := by
  have hkey : a.freshRecord.key = a.key := rfl
  constructor
  · simp [task, Task.record, hr, hkey]
  · simp [task, Task.fault?, Task.result, hr, hkey]

theorem tree_lost (a : Action) (now : String) (fault : Fault) :
    (a.freshRecord.lost now fault).tree = [a.freshRecord.lost now fault] := by
  rw [Record.tree_eq, Record.detail_lost, Record.errorActions_lost]
  have hd : a.freshRecord.detail = a.kind.detail := rfl
  have he : a.freshRecord.errorActions = [] := rfl
  rw [hd, he, Record.detailForest_detail, Record.forest_nil, List.append_nil]

theorem table_cons (a : Action) (rest : List Action) (c : Context) (now : String) :
    Task.table now (tasks (a :: rest) c) =
      (a.key, (a.task c).record now) :: Task.table now (tasks rest (a.ending c).state.context) :=
  rfl

/-- Records of one key take each other's place. -/
theorem runParallel_eq (actions : List Action) (s : Frame (Entries Record)) :
    runParallel actions s =
      ⟨(Task.firstFailure (tasks actions s.context)).mapError .error,
        ⟨Task.putRecords (afterTasks actions s.context).clock s.own (tasks actions s.context),
          afterTasks actions s.context⟩, (runTasks actions ⟨[], s.context⟩).journal⟩ := by
  obtain ⟨hresult, hstate⟩ := runTasks_eq actions [] s.context
  have hnested : nested [] (runTasks actions) s =
      ⟨.ok (tasks actions s.context, .ok ()), ⟨s.own, afterTasks actions s.context⟩,
        (runTasks actions ⟨[], s.context⟩).journal⟩ := by
    simp [nested, hresult, hstate]
  rw [runParallel, Task.together, Step.bind_of_ok (congrArg Ending.result hnested), hnested]
  simp only [Task.settle_eq, List.append_nil]

theorem result_runParallel (actions : List Action) (c : Context) :
    (runParallel actions ⟨[], c⟩).result =
      (Task.firstFailure (tasks actions c)).mapError .error := by
  rw [runParallel_eq]

theorem state_runParallel_put (actions : List Action) (c : Context) :
    (runParallel actions ⟨[], c⟩).state =
      ⟨Task.putRecords (afterTasks actions c).clock [] (tasks actions c),
        afterTasks actions c⟩ := by
  rw [runParallel_eq]

theorem state_runParallel {actions : List Action} (hn : (actions.map key).Nodup) (c : Context) :
    (runParallel actions ⟨[], c⟩).state =
      ⟨Task.table (afterTasks actions c).clock (tasks actions c), afterTasks actions c⟩ := by
  have hput : Task.putRecords (afterTasks actions c).clock [] (tasks actions c) =
      Task.table (afterTasks actions c).clock (tasks actions c) :=
    Task.putRecords_eq (keys_tasks actions c ▸ hn) (by simp)
  rw [state_runParallel_put, hput]

theorem fault?_runParallel (actions : List Action) (c : Context) :
    (runParallel actions ⟨[], c⟩).fault? = (tasks actions c).findSome? Task.fault? := by
  have hr := result_runParallel actions c
  rw [Task.firstFailure_eq] at hr
  cases hf : (tasks actions c).findSome? Task.fault? with
  | none =>
    rw [hf] at hr
    exact Ending.fault?_of_ok hr
  | some fault =>
    rw [hf] at hr
    exact Ending.fault?_of_fault hr

end Action

end ActionFlow
