import ActionFlow.Proofs.Soundness

/-!
# Runs with valid faults

Each part of a run is sound if the parts inside it are, and calls are sound if the handlers are.  So
what a run records and what escapes it are valid faults, as far as the handlers keep to them.
-/
namespace ActionFlow

open Step

open ActionFlow.Frame

namespace Lifecycle

variable {head : Head} {logic : Step (Frame Record) Unit}
  {recovery : Option (Step (Frame (Entries Record)) Unit)}

theorem sound_check (key : String) (conditions : List ErrorCondition) :
    Step.Sound Record.Sound (check key conditions) Unchecked := by
  induction conditions with
  | nil => exact sound_pure trivial
  | cons e rest ih =>
    refine sound_bind (sound_resolve_any key _) fun holds _ => ?_
    cases holds with
    | true =>
      exact sound_bind (sound_resolveFault key e.fault) fun _ hvalid => sound_fail hvalid
    | false => exact ih

theorem sound_wanted (head : Head) : Step.Sound Record.Sound (wanted head) Unchecked := by
  unfold wanted
  cases head.runCondition with
  | none => exact sound_pure trivial
  | some c => exact sound_resolve_any _ _

theorem sound_attempted (h : Step.Sound Record.Sound logic Unchecked) :
    Step.Sound Record.Sound (attempted head logic) Unchecked := by
  refine sound_bind (sound_move _) fun _ _ => ?_
  refine sound_bind (sound_ensureNotCancelled _) fun _ _ => ?_
  refine sound_bind (sound_wanted head) fun wants _ => ?_
  cases wants with
  | false => exact sound_bind (sound_move _) fun _ _ => sound_succeed
  | true =>
    refine sound_bind (sound_move _) fun _ _ => ?_
    refine sound_bind (sound_check _ _) fun _ _ => ?_
    refine sound_bind (sound_move _) fun _ _ => ?_
    refine sound_bind h fun _ _ => ?_
    refine sound_bind (sound_move _) fun _ _ => ?_
    refine sound_bind (sound_check _ _) fun _ _ => ?_
    exact sound_bind (sound_move _) fun _ _ => sound_succeed

theorem sound_intercept (key : String)
    (hr : ∀ sequence ∈ recovery, Step.Sound Record.AllSound sequence Unchecked) {fault : Fault}
    (hv : fault.Valid) : Step.Sound Record.Sound (intercept key recovery fault) Unchecked := by
  refine sound_bind (sound_close hv) fun _ _ => ?_
  cases recovery with
  | none => exact sound_fail hv
  | some sequence =>
    have hfile : Step.Sound Record.Sound (file (.recovery key) [] sequence
        fun records r => { r with errorActions := records }) Unchecked :=
      sound_file _ Record.allSound_nil (hr sequence rfl)
        fun _ own hrecords hown => Record.Sound.withErrorActions hown hrecords
    exact sound_bind (sound_publish key) fun _ _ => hfile

theorem sound_handle (h : Step.Sound Record.Sound logic Unchecked)
    (hr : ∀ sequence ∈ recovery, Step.Sound Record.AllSound sequence Unchecked) :
    Step.Sound Record.Sound (handle head logic recovery) Unchecked := by
  rw [handle_eq]
  refine sound_bind (sound_mark _ _) fun _ _ => sound_thenPublish _ ?_
  refine sound_bind (sound_attempt (sound_attempted h)) fun result hresult => ?_
  cases result with
  | ok u => exact sound_pure trivial
  | error fault => exact sound_intercept _ hr (hresult fault rfl)

end Lifecycle

namespace Loop

variable {key : String} {loop : Loop} {body : Step (Frame (Entries Record)) Unit}

theorem sound_progress (f : Progress → Progress) :
    Step.Sound Record.Sound (modify (Record.updateProgress f)) Unchecked :=
  sound_modify fun _ hs => hs.updateProgress f

theorem sound_once (h : Step.Sound Record.AllSound body Unchecked) (items : List Value)
    (i : IterationItem) : Step.Sound Record.Sound (once key items body i) Unchecked := by
  rw [once_eq]
  refine sound_bind (sound_ensureNotCancelled _) fun _ _ => ?_
  refine sound_bind (sound_progress _) fun _ _ => ?_
  refine sound_bind (sound_publish _) fun _ _ => ?_
  refine sound_bind (sound_file _ Record.allSound_nil h fun _ _ hrecords hr =>
    hr.addIteration i.index hrecords) fun _ _ => ?_
  exact sound_bind (sound_progress _) fun _ _ => sound_publish _

theorem sound_continues (key : String) (loop : Loop) :
    Step.Sound Record.Sound (continues key loop) Unchecked := by
  unfold continues
  cases loop.doWhile with
  | none => exact sound_pure trivial
  | some c => exact sound_resolve_any _ _

theorem sound_visit (h : Step.Sound Record.AllSound body Unchecked) (items : List Value)
    (places : List IterationItem) :
    Step.Sound Record.Sound (visit key loop items body places) Unchecked := by
  induction places with
  | nil => exact sound_pure trivial
  | cons i rest ih =>
    refine sound_bind (sound_once h items i) fun _ _ => ?_
    refine sound_bind (sound_continues key loop) fun goesOn _ => ?_
    cases goesOn with
    | true => exact ih
    | false => exact sound_pure trivial

theorem sound_traverse (h : Step.Sound Record.AllSound body Unchecked) (items : List Value)
    (first last : Option Int) (reverse : Bool) :
    Step.Sound Record.Sound (traverse key loop body items first last reverse) Unchecked := by
  unfold traverse
  split
  · exact sound_progress _
  · cases Range.resolve items.length first last reverse with
    | ok range =>
      refine sound_bind (sound_progress _) fun _ _ => ?_
      exact sound_bind (sound_visit h items _) fun _ _ => sound_progress _
    | error index => exact sound_fail (Fault.valid_indexOutOfRange _ _ _)

theorem sound_run (h : Step.Sound Record.AllSound body Unchecked) :
    Step.Sound Record.Sound (run key loop body) Unchecked := by
  rw [run_eq]
  refine sound_bind (sound_resolve_any _ _) fun items _ => ?_
  refine sound_bind (sound_resolveOptional _ _ _) fun first _ => ?_
  refine sound_bind (sound_resolveOptional _ _ _) fun last _ => ?_
  refine sound_bind (sound_resolveOptional _ _ _) fun reverse _ => ?_
  exact sound_traverse h items first last _

end Loop

namespace Logic

theorem sound_record {fault : Fault} (h : fault.Valid) :
    Step.Sound Record.Sound (modify (Record.recordFault fault)) Unchecked :=
  sound_modify fun _ hs => hs.with_fault h rfl rfl rfl

theorem sound_raise (key : String) (p : FaultProvider) :
    Step.Sound Record.Sound (raise key p) Unchecked := by
  refine sound_bind (sound_resolveFault key p) fun fault hvalid => ?_
  exact sound_bind (sound_record hvalid) fun _ _ => sound_fail hvalid

theorem sound_write (property : String) (path : Option Path) (value : Value) :
    Step.Sound Record.Sound (write property path value) Unchecked := by
  intro s hs
  unfold write Context.setVariable
  cases Entries.writeAt s.context.vars ((path.map Path.segments).getD []) property value with
  | ok vars => exact ⟨hs, fun _ _ => trivial, nofun⟩
  | error blocked =>
    refine ⟨hs, nofun, ?_⟩
    rintro _ ⟨⟩
    exact Fault.valid_setVariableFailed _ _ _

theorem sound_assign (key : String) (property : Provider) (path : Option Provider)
    (value : Provider) : Step.Sound Record.Sound (assign key property path value) Unchecked := by
  refine sound_bind (sound_resolve_any _ _) fun name _ => ?_
  split
  · refine sound_bind (sound_resolveOptional _ _ _) fun path _ => ?_
    refine sound_bind (sound_resolve_any _ _) fun value _ => ?_
    refine sound_bind (sound_modify fun _ hs => hs.setWrite _) fun _ _ => ?_
    exact sound_write _ _ _
  · exact sound_fail (ProviderError.valid_toFault _)

theorem sound_call (key : String) {handler : Handler} (h : handler.Sound) :
    Step.Sound Record.Sound (call key handler) Unchecked := by
  intro s hs
  refine ⟨hs.setOutput _, fun _ _ => trivial, ?_⟩
  intro fault hf
  have hresult : ((handler.handle s.context).result.mapError
      (HandlerError.toFault key)).mapError Stop.error = .error (.error fault) := hf
  cases hr : (handler.handle s.context).result with
  | ok u =>
    rw [hr] at hresult
    cases hresult
  | error e =>
    rw [hr] at hresult
    cases hresult
    exact h.valid key hr

theorem sound_run (key : String) {logic : Logic}
    (h : (Kind.simple logic : Kind Action).Sound) :
    Step.Sound Record.Sound (logic.run key) Unchecked := by
  cases logic with
  | raiseError p => exact sound_raise key p
  | setVariable property path value => exact sound_assign key property path value
  | external handler => exact sound_call key (h handler rfl)

end Logic

/-! ### Tasks -/

namespace Task

/-- What a task leaves is sound, also if it panicked. -/
structure Sound (t : Task) : Prop where
  record : ∀ now, (t.record now).Sound
  fault : ∀ fault ∈ t.fault?, fault.Valid

theorem allSound_putRecords {tasks : List Task} (h : ∀ t ∈ tasks, t.Sound) (now : String)
    {records : Entries Record} (hr : Record.AllSound records) :
    Record.AllSound (putRecords now records tasks) :=
  Record.forest_putRecords hr fun t ht => (h t ht).record now

theorem caught_firstFailure {tasks : List Task} (h : ∀ t ∈ tasks, t.Sound) :
    Caught (firstFailure tasks) := by
  intro fault hf
  rw [firstFailure_eq] at hf
  cases hs : tasks.findSome? fault? with
  | none =>
    rw [hs] at hf
    cases hf
  | some found =>
    rw [hs] at hf
    cases hf
    obtain ⟨t, ht, hfault⟩ := List.exists_of_findSome?_eq_some hs
    exact (h t ht).fault fault hfault

theorem sound_settle {tasks : List Task} (h : ∀ t ∈ tasks, t.Sound) :
    Step.Sound Record.AllSound (settle tasks) Unchecked := by
  have hput : Step.Sound Record.AllSound
      (.update fun s => { s with own := putRecords s.context.clock s.own tasks }) Unchecked :=
    fun s hs => ⟨allSound_putRecords h s.context.clock hs, fun _ _ => trivial, nofun⟩
  exact sound_bind hput fun _ _ => sound_ofExcept (caught_firstFailure h)

end Task

namespace Action

theorem sound_task {a : Action} (h : Step.Sound Record.Sound a.handle Unchecked) (c : Context) :
    (a.task c).Sound := by
  obtain ⟨hown, -, hfault⟩ := h ⟨a.freshRecord, c⟩ (Record.sound_fresh a)
  by_cases hs : (a.ending c).Settled
  · constructor
    · intro now
      rw [record_task hs]
      exact hown
    · intro fault hf
      rw [fault?_task hs] at hf
      exact hfault fault (Ending.fault?_eq_some_iff.mp hf)
  · obtain ⟨panic, hp⟩ := Ending.panic_of_not_settled hs
    have hvalid : (Task.panicFault a.key panic).Valid := Fault.valid_actionFailed _ _
    constructor
    · intro now
      rw [(task_of_panic hp now).1]
      exact (Record.sound_fresh a).lost hvalid now
    · intro fault hf
      rw [(task_of_panic hp "").2] at hf
      cases hf
      exact hvalid

theorem sound_runParallel {actions : List Action}
    (h : ∀ b ∈ actions, Step.Sound Record.Sound b.handle Unchecked) :
    Step.Sound Record.AllSound (runParallel actions) Unchecked := by
  intro s hs
  have htasks := forall_mem_tasks (fun b hb c => sound_task (h b hb) c) s.context
  have hsettle := Task.sound_settle htasks ⟨s.own, afterTasks actions s.context⟩ hs
  rw [runParallel_eq]
  exact hsettle

theorem sound_runSequence {actions : List Action}
    (h : ∀ b ∈ actions, Step.Sound Record.Sound b.handle Unchecked) :
    Step.Sound Record.AllSound (runSequence actions) Unchecked := by
  induction actions with
  | nil =>
    rw [runSequence]
    exact sound_pure trivial
  | cons a rest ih =>
    have hmember : Step.Sound Record.AllSound (runMember a.key a.freshRecord a.handle)
        Unchecked := by
      refine sound_bind (sound_nested (Record.sound_fresh a) (h a List.mem_cons_self))
        fun left hleft => ?_
      refine sound_bind (sound_modify fun _ hs => hs.put hleft.1 a.key) fun _ _ => ?_
      exact sound_ofExcept hleft.2
    rw [runSequence]
    exact sound_bind hmember fun _ _ => ih fun b hb => h b (List.mem_cons_of_mem _ hb)

theorem sound_runKind (key : String) {kind : Kind Action} (hk : kind.Sound)
    (h : ∀ b ∈ kind.actions, Step.Sound Record.Sound b.handle Unchecked) :
    Step.Sound Record.Sound (runKind key kind) Unchecked := by
  cases kind with
  | group parallel actions =>
    rw [runKind]
    refine sound_bind (sound_mark _ _) fun _ _ => ?_
    refine sound_file _ Record.allSound_nil ?_ fun _ _ hrecords hr => hr.setChildren hrecords
    cases parallel with
    | true => exact sound_runParallel h
    | false => exact sound_runSequence h
  | iterate loop actions =>
    rw [runKind]
    exact sound_bind (sound_mark _ _) fun _ _ => Loop.sound_run (sound_runSequence h)
  | simple logic =>
    rw [runKind]
    exact sound_bind (sound_mark _ _) fun _ _ => Logic.sound_run key hk

theorem sound_node (a : Action) (h : a.kind.Sound)
    (inside : ∀ b ∈ a.kind.actions, Step.Sound Record.Sound b.handle Unchecked)
    (recovery : ∀ b ∈ a.errorActions, Step.Sound Record.Sound b.handle Unchecked) :
    Step.Sound Record.Sound a.handle Unchecked := by
  rw [handle_eq]
  apply Lifecycle.sound_handle (sound_runKind _ h inside)
  intro sequence hs
  rw [(recovery_eq_some hs).2]
  exact sound_runSequence recovery

theorem sound_handle {actions : List Action} (h : ∀ b ∈ forest actions, b.kind.Sound) :
    ∀ a ∈ actions, Step.Sound Record.Sound a.handle Unchecked := forest_induction sound_node h

end Action

/-- An outcome has only valid faults, its own and those in its records. -/
structure Outcome.Sound (o : Outcome) : Prop where
  error : ∀ fault ∈ o.error, fault.Valid
  records : ∀ r ∈ Record.forest o.actions, r.FaultValid

theorem Automation.sound_outcome {a : Automation} (h : ∀ b ∈ Action.forest a.actions, b.kind.Sound)
    {ctx : Context} {o : Outcome} (ho : a.outcome ctx = .ok o) : o.Sound := by
  obtain ⟨-, rfl⟩ := outcome_eq_ok_iff.mp ho
  obtain ⟨hown, -, hfault⟩ := Action.sound_runSequence (Action.sound_handle h) ⟨[], ctx⟩
    Record.allSound_nil
  exact ⟨fun fault hf => hfault fault (Ending.fault?_eq_some_iff.mp hf), hown⟩

end ActionFlow
