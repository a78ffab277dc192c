import ActionFlow.Proofs.Calm

/-!
# Sequences and parallel groups

With its tasks taking turns in their order, a parallel group does what a sequence does for as long
as no action fails.  From the first failure on the sequence is over and the group goes on, but what
the group fails with is that first failure.
-/
namespace ActionFlow

namespace Action

/-- The ending of a sequence of `actions` in the context `c`, told by the first `k` tasks of a group
of the same actions: only they were started, and the last of them may have failed. -/
structure Started (actions : List Action) (c : Context) (done : Entries Record)
    (e : Ending (Frame (Entries Record)) Unit) (k : Nat) : Prop where
  bound : k ≤ actions.length
  own : ∀ now, e.state.own = done ++ (Task.table now (tasks actions c)).take k
  fault : e.fault? = (tasks actions c).findSome? Task.fault?
  passed : e.fault? = none → k = actions.length ∧ e.state.context = afterTasks actions c
  failed : e.fault? ≠ none → 0 < k

theorem Started.nil (c : Context) (done : Entries Record) :
    Started [] c done (runSequence [] ⟨done, c⟩) 0 := by
  rw [runSequence_nil]
  exact ⟨Nat.le_refl 0, fun now => (List.append_nil done).symm, rfl, fun _ => ⟨rfl, rfl⟩,
    fun h => absurd rfl h⟩

/-- A sequence that fails at its first action has started that one only. -/
theorem Started.stop {a : Action} (rest : List Action) {c : Context} {done : Entries Record}
    {fault : Fault} (hr : (a.ending c).result = .error (.error fault))
    (hd : a.key ∉ Entries.keys done) :
    Started (a :: rest) c done (runSequence (a :: rest) ⟨done, c⟩) 1 := by
  have hs := Ending.settled_of_fault hr
  rw [runSequence_of_fault rest done hr, filed_of_not_mem hd]
  have htask : (a.task c).fault? = some fault := by
    rw [fault?_task hs]
    exact Ending.fault?_of_fault hr
  constructor
  case bound => simp
  case own =>
    intro now
    show done ++ [_] = _
    rw [table_cons, record_task hs, List.take_succ_cons, List.take_zero]
  case fault =>
    rw [tasks, List.findSome?_cons, htask]
    rfl
  case passed =>
    intro h
    cases h
  case failed => exact fun _ => Nat.one_pos

theorem Started.cons {a : Action} {rest : List Action} {c : Context} {done : Entries Record}
    {k : Nat} (hr : (a.ending c).result = .ok ())
    (h : Started rest (a.ending c).state.context (done ++ [(a.key, (a.ending c).state.own)])
      (runSequence rest (a.filed done c)) k) :
    Started (a :: rest) c done (runSequence (a :: rest) ⟨done, c⟩) (k + 1) := by
  have hs := Ending.settled_of_ok hr
  have htask : (a.task c).fault? = none := by
    rw [fault?_task hs]
    exact Ending.fault?_of_ok hr
  rw [runSequence_of_ok rest done hr]
  constructor
  case bound =>
    have hk := h.bound
    simp only [List.length_cons]
    omega
  case own =>
    intro now
    rw [table_cons, record_task hs, List.take_succ_cons]
    have hown := h.own now
    rw [List.append_assoc, List.singleton_append] at hown
    exact hown
  case fault =>
    rw [tasks, List.findSome?_cons, htask]
    exact h.fault
  case passed =>
    intro hx
    obtain ⟨hk, hcontext⟩ := h.passed hx
    rw [hk]
    exact ⟨rfl, hcontext⟩
  case failed => exact fun _ => Nat.succ_pos k

theorem exists_started {actions : List Action} (hn : (actions.map key).Nodup)
    {done : Entries Record} {c : Context} (hd : ∀ a ∈ actions, a.key ∉ Entries.keys done)
    (hs : (runSequence actions ⟨done, c⟩).Settled) :
    ∃ k, Started actions c done (runSequence actions ⟨done, c⟩) k := by
  induction actions generalizing done c with
  | nil => exact ⟨0, .nil c done⟩
  | cons a rest ih =>
    have hfresh := hd a List.mem_cons_self
    rcases (settled_of_runSequence hs).ok_or_fault with ⟨u, hr⟩ | ⟨fault, hr⟩
    · obtain ⟨hnot, hrest⟩ := List.nodup_cons.mp hn
      have hd' : ∀ b ∈ rest,
          b.key ∉ Entries.keys (done ++ [(a.key, (a.ending c).state.own)]) := by
        intro b hb
        apply Entries.not_mem_keys_concat (hd b (List.mem_cons_of_mem _ hb))
        intro he
        exact hnot (he ▸ List.mem_map_of_mem hb)
      rw [runSequence_of_ok rest done hr, filed_of_not_mem hfresh] at hs
      obtain ⟨k, hk⟩ := ih hrest hd' hs
      rw [← filed_of_not_mem hfresh] at hk
      exact ⟨k + 1, .cons hr hk⟩
    · exact ⟨1, .stop rest hr hfresh⟩

theorem length_table (actions : List Action) (c : Context) (now : String) :
    (Task.table now (tasks actions c)).length = actions.length := by
  have hkeys := congrArg List.length (keys_tasks actions c)
  simpa [Task.table] using hkeys

/-- A parallel group extends a sequence of the same actions.  If the sequence succeeds, the group
succeeds with the same records and the same context; if the sequence fails after `k` actions, the
group fails with the same fault, its first `k` records are those of the sequence, and it has a
record of every other action too. -/
theorem runParallel_extends {actions : List Action} (hn : (actions.map key).Nodup) (c : Context) :
    ((∀ a ∈ forest actions, a.Calm) → (runSequence actions ⟨[], c⟩).Settled) ∧
    ((runSequence actions ⟨[], c⟩).result = .ok () →
      (runParallel actions ⟨[], c⟩).result = .ok () ∧
        (runParallel actions ⟨[], c⟩).state = (runSequence actions ⟨[], c⟩).state) ∧
    ∀ fault, (runSequence actions ⟨[], c⟩).result = .error (.error fault) →
      (runParallel actions ⟨[], c⟩).result = .error (.error fault) ∧
      Entries.keys (runParallel actions ⟨[], c⟩).state.own = actions.map key ∧
      ∃ k, 0 < k ∧ k ≤ actions.length ∧
        Entries.keys (runSequence actions ⟨[], c⟩).state.own = (actions.take k).map key ∧
        (runParallel actions ⟨[], c⟩).state.own.take k =
          (runSequence actions ⟨[], c⟩).state.own := by
  have hfresh : ∀ a ∈ actions, a.key ∉ Entries.keys ([] : Entries Record) := fun _ _ => nofun
  have hresult := result_runParallel actions c
  rw [Task.firstFailure_eq] at hresult
  have hstate := state_runParallel hn c
  refine ⟨fun calm => ?_, fun hr => ?_, fun fault hr => ?_⟩
  · exact calm_runSequence (calm_handle calm) _
  · obtain ⟨k, h⟩ := exists_started hn hfresh (Ending.settled_of_ok hr)
    have hnone := Ending.fault?_of_ok hr
    obtain ⟨hk, hcontext⟩ := h.passed hnone
    have hown := h.own (afterTasks actions c).clock
    rw [hk, ← length_table actions c (afterTasks actions c).clock, List.take_length,
      List.nil_append] at hown
    constructor
    · rw [hresult, ← h.fault, hnone]
      rfl
    · rw [hstate, ← hown, ← hcontext]
  · obtain ⟨k, h⟩ := exists_started hn hfresh (Ending.settled_of_fault hr)
    have hsome := Ending.fault?_of_fault hr
    have hown := h.own (afterTasks actions c).clock
    rw [List.nil_append] at hown
    have hkeys : Entries.keys (Task.table (afterTasks actions c).clock (tasks actions c)) =
        actions.map key := by rw [Task.keys_table, keys_tasks]
    refine ⟨?_, ?_, k, h.failed (by simp [hsome]), h.bound, ?_, ?_⟩
    · rw [hresult, ← h.fault, hsome]
      rfl
    · rw [hstate]
      exact hkeys
    · rw [hown, Entries.keys, List.map_take]
      show List.take k (Entries.keys _) = _
      rw [hkeys, List.map_take]
    · rw [hstate]
      exact hown.symm

/-- The sequence ends with its second action, and the group goes on to the third. -/
theorem runParallel_extends_failing :
    let actions := [idle "first", failing "second", idle "third"]
    let c := Context.start "run" "now" .null
    let fault := Fault.simple "second" "" "" 400
    (actions.map key).Nodup ∧ (runSequence actions ⟨[], c⟩).result = .error (.error fault) ∧
      (runParallel actions ⟨[], c⟩).result = .error (.error fault) ∧
      Entries.keys (runParallel actions ⟨[], c⟩).state.own = ["first", "second", "third"] ∧
      ∃ k, 0 < k ∧ k ≤ 3 ∧
        Entries.keys (runSequence actions ⟨[], c⟩).state.own = (actions.take k).map key ∧
        (runParallel actions ⟨[], c⟩).state.own.take k =
          (runSequence actions ⟨[], c⟩).state.own := by
  intro actions c fault
  have hn : (actions.map key).Nodup := by decide
  have hr : (runSequence actions ⟨[], c⟩).result = .error (.error fault) := by rfl
  obtain ⟨hparallel, hkeys, hrecords⟩ := (runParallel_extends hn c).2.2 fault hr
  exact ⟨hn, hr, hparallel, hkeys, hrecords⟩

end Action

end ActionFlow
