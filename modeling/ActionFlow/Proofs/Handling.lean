import ActionFlow.Proofs.Members

/-!
# What an action leaves

`KindRule` says what has to be shown of the logic of an action, kind by kind, for a condition on
its fault, on the detail of the record and on the context.  `ending_left` carries the condition
through the whole handling of the action, and says in which of three ways the handling ended.
-/
namespace ActionFlow

def Record.Working (r : Record) (K : Option Fault → Detail Record → Context → Prop)
    (x : Option Fault) (left : Record) (c : Context) : Prop :=
  ∃ detail fault succeeded,
    left = { r with fault := fault, succeeded := succeeded, detail := detail } ∧
      (x = none → fault = r.fault) ∧ K x detail c

theorem Record.eq_with_detail {r : Record} {detail : Detail Record} (h : r.detail = detail) :
    r = { r with detail := detail } := by
  cases r
  subst h
  rfl

theorem Record.working_of_detail {r : Record} {K : Option Fault → Detail Record → Context → Prop}
    {x : Option Fault} {detail : Detail Record} {c : Context} (h : K x detail c) :
    r.Working K x { r with detail := detail } c :=
  ⟨detail, r.fault, r.succeeded, rfl, fun _ => rfl, h⟩

theorem Record.working_self {r : Record} {K : Option Fault → Detail Record → Context → Prop}
    {x : Option Fault} {detail : Detail Record} {c : Context} (hr : r.detail = detail)
    (h : K x detail c) : r.Working K x r c := by
  rw [Record.eq_with_detail hr]
  exact working_of_detail h

namespace Action

open ActionFlow.Frame

variable {K : Option Fault → Detail Record → Context → Prop} {key : String} {r : Record}
  {c : Context}

def childrenEnding (parallel : Bool) (actions : List Action) (c : Context) :
    Ending (Frame (Entries Record)) Unit :=
  (if parallel then runParallel actions else runSequence actions) ⟨[], c⟩

/-- A condition on the logic of a kind: it survives the children of a group, each round of an
iteration, a write and a call. -/
def KindRule (key : String) (K : Option Fault → Detail Record → Context → Prop) :
    Kind Action → Prop
  | .group parallel actions => ∀ c, K none (.group parallel []) c →
    (childrenEnding parallel actions c).Settled →
      K (childrenEnding parallel actions c).fault?
        (.group parallel (childrenEnding parallel actions c).state.own)
        (childrenEnding parallel actions c).state.context
  | .iterate _ actions =>
    Loop.RoundRule key (runSequence actions) fun x iterations c =>
      K x (.iterate {} iterations) c
  | .simple (.raiseError _) => True
  | .simple (.setVariable _ _ _) => ∀ name path value c, K none (.setVariable {}) c →
    match c.setVariable name (path.map Path.parse) value with
    | .ok c' => K none (.setVariable ⟨some name, path, some value⟩) c'
    | .error fault => K (some fault) (.setVariable ⟨some name, path, some value⟩) c
  | .simple (.external handler) => ∀ x c, K none (.external none) c →
    K x (.external (handler.handle c).output) (handler.handle c).context

/-- The condition does not mind that a step which changes nothing stops, nor how far an iteration
says it came. -/
structure Steady (K : Option Fault → Detail Record → Context → Prop) : Prop where
  stop : ∀ {detail c} (x : Option Fault), K none detail c → K x detail c
  progress : ∀ {x p iterations c} (q : Progress), K x (.iterate p iterations) c →
    K x (.iterate q iterations) c

theorem raise_working (steady : Steady K) (p : FaultProvider) (hr : r.detail = .raiseError)
    (hk : K none .raiseError c) : (Logic.raise key p ⟨r, c⟩).Meets (r.Working K) := by
  intro hs
  unfold Logic.raise at hs ⊢
  rcases (reads_resolve key p.resolve).bind_cases _ ⟨r, c⟩ with ⟨e, h1, h2⟩ | ⟨fault, -, h1, h2⟩
  · cases e with
    | panic panic => exact absurd h1 (hs panic)
    | error fault =>
      rw [Ending.fault?_of_fault h1, h2]
      exact Record.working_self hr (steady.stop _ hk)
  · rw [Ending.fault?_of_fault h1, h2]
    exact ⟨r.detail, some fault, false, rfl, nofun, hr ▸ steady.stop _ hk⟩

theorem write_working {name : String} {path : Option Path} {value : Value} {detail : Detail Record}
    (h : match c.setVariable name path value with
      | .ok c' => K none detail c'
      | .error fault => K (some fault) detail c) :
    (Logic.write name path value ⟨{ r with detail := detail }, c⟩).Meets (r.Working K) := by
  intro _
  unfold Logic.write
  cases hw : c.setVariable name path value with
  | ok c' =>
    rw [hw] at h
    exact Record.working_of_detail h
  | error fault =>
    rw [hw] at h
    exact Record.working_of_detail h

theorem assign_working (steady : Steady K) (property : Provider) (path : Option Provider)
    (value : Provider) (rule : KindRule key K (.simple (.setVariable property path value)))
    (hr : r.detail = .setVariable {}) (hk : K none (.setVariable {}) c) :
    (Logic.assign key property path value ⟨r, c⟩).Meets (r.Working K) := by
  have unchanged : ∀ x, r.Working K x r c := fun x => Record.working_self hr (steady.stop x hk)
  unfold Logic.assign
  refine meets_bind (meets_reads (reads_resolve key _) unchanged) fun name _ _ => ?_
  rw [reads_resolve key]
  split
  · refine meets_bind (meets_reads (reads_resolveOptional key _ _) unchanged) fun path _ _ => ?_
    rw [reads_resolveOptional key]
    refine meets_bind (meets_reads (reads_resolve key _) unchanged) fun value _ _ => ?_
    rw [reads_resolve key, modify_bind]
    have hset : Record.setWrite ⟨some name, path, some value⟩ r =
        { r with detail := .setVariable ⟨some name, path, some value⟩ } := by
      simp [Record.setWrite, hr]
    rw [hset]
    exact write_working (rule name path value c hk)
  · exact meets_fail (unchanged _)

theorem call_working (handler : Handler) (rule : KindRule key K (.simple (.external handler)))
    (hr : r.detail = .external none) (hk : K none (.external none) c) :
    (Logic.call key handler ⟨r, c⟩).Meets (r.Working K) := by
  intro _
  have hset : r.setOutput (handler.handle c).output =
      { r with detail := .external (handler.handle c).output } := by
    simp [Record.setOutput, hr]
  show r.Working K _ (r.setOutput (handler.handle c).output) (handler.handle c).context
  rw [hset]
  exact Record.working_of_detail (rule _ c hk)

theorem group_working {parallel : Bool} {actions : List Action}
    (rule : KindRule key K (.group parallel actions)) (hr : r.detail = .group parallel [])
    (hk : K none (.group parallel []) c) :
    (runGroup key (if parallel then runParallel actions else runSequence actions) ⟨r, c⟩).Meets
      (r.Working K) := by
  refine meets_file fun hs => ?_
  have hset : ∀ records,
      Record.setChildren records r = { r with detail := .group parallel records } := by
    intro records
    simp [Record.setChildren, hr]
  rw [hset]
  exact Record.working_of_detail (rule c hk hs)

theorem iterate_working (steady : Steady K) {loop : Loop} {actions : List Action}
    (rule : KindRule key K (.iterate loop actions)) (hr : r.detail = .iterate {} [])
    (hk : K none (.iterate {} []) c) :
    (loop.run key (runSequence actions) ⟨r, c⟩).Meets (r.Working K) := by
  have rounds : Loop.RoundRule key (runSequence actions) fun x iterations c =>
      K x (.iterate {} iterations) c := rule
  intro hs
  have start : Loop.Iterating r (fun x iterations c => K x (.iterate {} iterations) c) none r c :=
    ⟨{}, [], Record.eq_with_detail hr, hk⟩
  obtain ⟨progress, iterations, he, h⟩ := rounds.run start hs
  rw [he]
  exact Record.working_of_detail (steady.progress progress h)

theorem runKind_working (steady : Steady K) {kind : Kind Action} (rule : KindRule key K kind)
    (hr : r.detail = kind.detail) (hk : K none kind.detail c) :
    (runKind key kind ⟨r, c⟩).Meets (r.Working K) := by
  have marked : (mark key .running ⟨r, c⟩ : Ending (Frame Record) Unit).Meets (r.Working K) :=
    meets_mark (Record.working_self hr hk)
  cases kind with
  | group parallel actions =>
    rw [runKind]
    exact meets_bind marked fun _ _ _ => group_working rule hr hk
  | iterate loop actions =>
    rw [runKind]
    exact meets_bind marked fun _ _ _ => iterate_working steady rule hr hk
  | simple logic =>
    rw [runKind]
    refine meets_bind marked fun _ _ _ => ?_
    cases logic with
    | raiseError p => exact raise_working steady p hr hk
    | setVariable property path value => exact assign_working steady property path value rule hr hk
    | external handler => exact call_working handler rule hr hk

/-! ### The whole handling -/

/-- A record of `a` once the fault `x` or none is put down, in the context `c`. -/
structure Closed (a : Action) (K : Option Fault → Detail Record → Context → Prop)
    (x : Option Fault) (r : Record) (c : Context) : Prop where
  key : r.key = a.key
  fault : r.fault = x
  errorActions : r.errorActions = []
  kept : K x r.detail c

/-- How a settled handling of `a` ends: its result and the state that it leaves. -/
inductive Left (a : Action) (K : Option Fault → Detail Record → Context → Prop) :
    Except (Stop Fault) Unit → Frame Record → Prop
  | passed {r : Record} {c : Context} (closed : a.Closed K none r c) :
      Left a K (.ok ()) ⟨r, c.publish a.key r.snapshot⟩
  | escaped {r : Record} {c : Context} {fault : Fault} (closed : a.Closed K (some fault) r c)
      (none : a.errorActions = []) :
      Left a K (.error (.error fault)) ⟨r, c.publish a.key r.snapshot⟩
  | recovered {r : Record} {c : Context} {fault : Fault}
      {e : Ending (Frame (Entries Record)) Unit} (closed : a.Closed K (some fault) r c)
      (some : a.errorActions ≠ [])
      (ran : runSequence a.errorActions ⟨[], c.publish a.key r.snapshot⟩ = e)
      (settled : e.Settled) :
      Left a K e.result
        ⟨{ r with errorActions := e.state.own }, e.state.context.publish a.key r.snapshot⟩

def recovery (a : Action) : Option (Step (Frame (Entries Record)) Unit) :=
  if a.errorActions.isEmpty then none else some (runSequence a.errorActions)

theorem handle_eq (a : Action) :
    a.handle = Lifecycle.handle a.head (runKind a.key a.kind) a.recovery := by
  obtain ⟨head, kind, errorActions⟩ := a
  rw [handle]
  rfl

theorem ending_eq (a : Action) (c : Context) :
    a.ending c =
      Lifecycle.handle a.head (runKind a.key a.kind) a.recovery ⟨a.freshRecord, c⟩ := by
  rw [ending, handle_eq]

theorem recovery_eq_none {a : Action} (h : a.recovery = none) : a.errorActions = [] := by
  unfold recovery at h
  split at h
  · next he => exact List.isEmpty_iff.mp he
  · cases h

theorem recovery_eq_some {a : Action} {sequence : Step (Frame (Entries Record)) Unit}
    (h : a.recovery = some sequence) :
    a.errorActions ≠ [] ∧ sequence = runSequence a.errorActions := by
  unfold recovery at h
  split at h
  · cases h
  · next he =>
    cases h
    exact ⟨fun hn => he (List.isEmpty_iff.mpr hn), rfl⟩

section Ending

variable {a : Action} (steady : Steady K) (rule : KindRule a.key K a.kind)
  (start : K none a.kind.detail c)

include steady rule start

theorem logicEnding_working
    (hs : (Lifecycle.logicEnding (runKind a.key a.kind) a.freshRecord c).Settled) :
    ((a.freshRecord.begun c.clock).atStage .running).Working K
      (Lifecycle.logicEnding (runKind a.key a.kind) a.freshRecord c).fault?
      (Lifecycle.logicEnding (runKind a.key a.kind) a.freshRecord c).state.own
      (Lifecycle.logicEnding (runKind a.key a.kind) a.freshRecord c).state.context :=
  runKind_working steady rule rfl start hs

theorem keepsStage_runKind :
    Lifecycle.KeepsStage (runKind a.key a.kind) a.freshRecord c := by
  intro hr
  obtain ⟨detail, fault, succeeded, he, -, -⟩ :=
    logicEnding_working steady rule start (Ending.settled_of_ok hr)
  rw [he]
  rfl

theorem closed_of_ok {s : Frame Record}
    (h : Lifecycle.Attempt (runKind a.key a.kind) a.freshRecord c (.ok ()) s) :
    a.Closed K none s.own s.context := by
  cases h with
  | skipped => exact ⟨rfl, rfl, rfl, start⟩
  | completed result =>
    obtain ⟨detail, fault, succeeded, he, hf, hk⟩ :=
      logicEnding_working steady rule start (Ending.settled_of_ok result)
    rw [Ending.fault?_of_ok result] at hf hk
    rw [he]
    exact ⟨rfl, hf rfl, rfl, hk⟩

theorem closed_of_fault {s : Frame Record} {fault : Fault}
    (h : Lifecycle.Attempt (runKind a.key a.kind) a.freshRecord c (.error (.error fault)) s) :
    a.Closed K (some fault) (s.own.lost s.context.clock fault) s.context := by
  rw [Record.lost_eq]
  cases h with
  | stopped stage unfinished => exact ⟨rfl, rfl, rfl, steady.stop _ start⟩
  | failed result =>
    obtain ⟨detail, _, succeeded, he, -, hk⟩ :=
      logicEnding_working steady rule start (Ending.settled_of_fault result)
    rw [Ending.fault?_of_fault result] at hk
    rw [he]
    exact ⟨rfl, rfl, rfl, hk⟩
  | refused result =>
    obtain ⟨detail, _, succeeded, he, -, hk⟩ :=
      logicEnding_working steady rule start (Ending.settled_of_ok result)
    rw [Ending.fault?_of_ok result] at hk
    rw [he]
    exact ⟨rfl, rfl, rfl, steady.stop _ hk⟩

/-- A condition on the logic of an action lasts to the end of its handling. -/
theorem ending_left (hs : (a.ending c).Settled) :
    Left a K (a.ending c).result (a.ending c).state := by
  rw [ending_eq] at hs ⊢
  have hh := Lifecycle.handle_handled rfl (keepsStage_runKind steady rule start) hs
  -- The constructors speak of any result and state, so these must not be terms any more.
  generalize (Lifecycle.handle _ _ _ _).result = result at hh ⊢
  generalize (Lifecycle.handle _ _ _ _).state = state at hh ⊢
  cases hh with
  | passed attempt => exact .passed (closed_of_ok steady rule start attempt)
  | escaped attempt none =>
    exact .escaped (closed_of_fault steady rule start attempt) (recovery_eq_none none)
  | recovered attempt some ran settled =>
    obtain ⟨hne, rfl⟩ := recovery_eq_some some
    exact .recovered (closed_of_fault steady rule start attempt) hne ran settled

end Ending

end Action

end ActionFlow
