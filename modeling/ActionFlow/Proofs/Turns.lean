import ActionFlow.Proofs.Calm

/-!
# Runs in turns

The tasks of a parallel group share the context, and any of them may go on next.  `Turns` describes
a part of a run by the turns that it may take: between two of its turns others may have changed the
context, so that each turn starts from whatever context it finds.  The parts mirror those of a run,
with one turn for each of their steps.  The resolution of a provider is one step, however often it
looks something up, and so is the call of a handler: nothing comes in between there.  A task that
goes on until it ends is one of the ways to take turns, so what holds of all of them holds of the
run.
-/
namespace ActionFlow

/-- What a part of a run does at one go, and the contexts that it finds and leaves. -/
structure Turn where
  before : Context
  journal : List Moment
  after : Context

def Turn.within (place : Place) (t : Turn) : Turn :=
  { t with journal := t.journal.map (Moment.within place) }

/-- The ways of a part of a run among others: what it owns at first, its turns, its result and what
it owns at last.  A panic is not a way. -/
def Turns (ρ α : Type) := ρ → List Turn → Except Fault α → ρ → Prop

/-- The turns follow one another from the context `c` to the context `d`, and no others come
between them. -/
def Linked : Context → List Turn → Context → Prop
  | c, [], d => c = d
  | c, t :: rest, d => t.before = c ∧ Linked t.after rest d

/-- The turns of several parts in one order, which keeps the order of each part. -/
inductive Interleaving : List (List Turn) → List Turn → Prop
  | none {parts : List (List Turn)} (empty : ∀ part ∈ parts, part = []) : Interleaving parts []
  | next (before : List (List Turn)) {after : List (List Turn)} {t : Turn} {rest turns : List Turn}
      (others : Interleaving (before ++ rest :: after) turns) :
      Interleaving (before ++ (t :: rest) :: after) (t :: turns)

namespace Turns

open ActionFlow.Frame

variable {ρ τ α β : Type}

def done (a : α) : Turns ρ α := fun own turns result last =>
  turns = [] ∧ result = .ok a ∧ last = own

def andThen (p : Turns ρ α) (next : α → Turns ρ β) : Turns ρ β := fun own turns result last =>
  (∃ fault, p own turns (.error fault) last ∧ result = .error fault) ∨
    ∃ a middle first second, p own first (.ok a) middle ∧ next a middle second result last ∧
      turns = first ++ second

instance : Monad (Turns ρ) where
  pure := done
  bind := andThen

/-- The step, in one turn. -/
def one (m : Step (Frame ρ) α) : Turns ρ α := fun own turns result last =>
  ∃ c, (m ⟨own, c⟩).result = result.mapError .error ∧ (m ⟨own, c⟩).state.own = last ∧
    turns = [⟨c, (m ⟨own, c⟩).journal, (m ⟨own, c⟩).state.context⟩]

/-- The fault that a result stands for, if it does. -/
def fault? : Except Fault α → Option Fault
  | .ok _ => none
  | .error fault => some fault

def attempt (p : Turns ρ α) : Turns ρ (Except Fault α) := fun own turns result last =>
  ∃ caught, p own turns caught last ∧ result = .ok caught

def nested (own : τ) (part : Turns τ Unit) : Turns ρ (τ × Except Fault Unit) :=
  fun outer turns result last =>
    last = outer ∧ ∃ left ended, part own turns ended left ∧ result = .ok (left, ended)

def within (place : Place) (part : Turns ρ α) : Turns ρ α := fun own turns result last =>
  ∃ inner, part own inner result last ∧ turns = inner.map (Turn.within place)

def file (place : Place) (own : τ) (part : Turns τ Unit) (f : τ → ρ → ρ) : Turns ρ Unit := do
  let (left, result) ← within place (nested own part)
  one (modify (f left))
  one (.ofExcept result)

/-- Tasks that end with their turns, each from its record. -/
inductive Ended : List (Record × Turns Record Unit) → List (List Turn) → List Task → Prop
  | nil : Ended [] [] []
  | cons {start last : Record} {part : Turns Record Unit} {turns : List Turn}
      {result : Except Fault Unit} {rest : List (Record × Turns Record Unit)}
      {parts : List (List Turn)} {tasks : List Task}
      (ends : part start turns result last) (others : Ended rest parts tasks) :
      Ended ((start, part) :: rest) (turns :: parts) (⟨start, .finished last result⟩ :: tasks)

def fork (parts : List (Record × Turns Record Unit)) : Turns ρ (List Task) :=
  fun own turns result last =>
    last = own ∧ ∃ each tasks, Ended parts each tasks ∧ Interleaving each turns ∧ result = .ok tasks

def together (parts : List (Record × Turns Record Unit)) : Turns (Entries Record) Unit := do
  let tasks ← fork parts
  one (Task.settle tasks)

/-! ### The parts of a run -/

def resolveOptional {π : Type} (key : String) (p : Option π) (f : π → Context → Resolution α) :
    Turns ρ (Option α) :=
  match p with
  | none => pure none
  | some p => do
    let a ← one (resolve key (f p))
    pure (some a)

def thenPublish (key : String) (part : Turns Record Unit) : Turns Record Unit := do
  let result ← part.attempt
  one (publish key)
  one (.ofExcept result)

def check (key : String) : List ErrorCondition → Turns Record Unit
  | [] => pure ()
  | c :: rest => do
    let holds ← one (resolve key fun ctx => c.condition.resolve ctx)
    if holds then
      let fault ← one (resolve key c.fault.resolve)
      one (.fail fault)
    else check key rest

def wanted (head : Head) : Turns Record Bool :=
  match head.runCondition with
  | none => pure true
  | some c => one (resolve head.key fun ctx => c.resolve ctx)

def course (head : Head) (logic : Turns Record Unit) : Turns Record Unit := do
  one (move .beforeRunErrorChecking)
  check head.key head.before
  one (move .running)
  logic
  one (move .afterRunErrorChecking)
  check head.key head.after
  one (move .completed)
  one succeed

def attempted (head : Head) (logic : Turns Record Unit) : Turns Record Unit := do
  one (move .started)
  one (ensureNotCancelled head.key)
  if ← wanted head then course head logic
  else
    one (move .skipped)
    one succeed

def intercept (key : String) (recovery : Option (Turns (Entries Record) Unit)) (fault : Fault) :
    Turns Record Unit := do
  one (close fault)
  match recovery with
  | none => one (.fail fault)
  | some sequence =>
    one (publish key)
    file (.recovery key) [] sequence fun records r => { r with errorActions := records }

def guarded (head : Head) (logic : Turns Record Unit)
    (recovery : Option (Turns (Entries Record) Unit)) : Turns Record Unit := do
  match ← (attempted head logic).attempt with
  | .ok () => pure ()
  | .error fault => intercept head.key recovery fault

def handle (head : Head) (logic : Turns Record Unit)
    (recovery : Option (Turns (Entries Record) Unit)) : Turns Record Unit := do
  one (mark head.key .entered)
  thenPublish head.key (guarded head logic recovery)

def once (key : String) (items : List Value) (body : Turns (Entries Record) Unit)
    (i : IterationItem) : Turns Record Unit := do
  one (ensureNotCancelled key)
  one (modify (Record.updateProgress fun p => { p with current := some i }))
  one (publish key)
  file (.iteration key items i.index) [] body fun records => Record.addIteration ⟨i.index, records⟩
  one (modify (Record.updateProgress fun p =>
    { p with completed := p.completed + 1, last := some i }))
  one (publish key)

def continues (key : String) (loop : Loop) : Turns Record Bool :=
  match loop.doWhile with
  | none => pure true
  | some c => one (resolve key fun ctx => c.resolve ctx)

def visit (key : String) (loop : Loop) (items : List Value) (body : Turns (Entries Record) Unit) :
    List IterationItem → Turns Record Unit
  | [] => pure ()
  | i :: rest => do
    once key items body i
    if ← continues key loop then visit key loop items body rest
    else pure ()

def visitRange (key : String) (loop : Loop) (body : Turns (Entries Record) Unit)
    (items : List Value) (range : Range) : Turns Record Unit := do
  one (modify (Record.updateProgress (Loop.bounded range)))
  visit key loop items body (Loop.visited items range)
  one (modify (Record.updateProgress fun p => { p with current := none }))

def traverse (key : String) (loop : Loop) (body : Turns (Entries Record) Unit)
    (items : List Value) (first last : Option Int) (reverse : Bool) : Turns Record Unit :=
  if items.isEmpty then one (modify (Record.updateProgress (Loop.idle first last reverse)))
  else
    match Range.resolve items.length first last reverse with
    | .ok range => visitRange key loop body items range
    | .error index => one (.fail (.indexOutOfRange key index items.length))

def iterate (key : String) (loop : Loop) (body : Turns (Entries Record) Unit) :
    Turns Record Unit := do
  let items ← one (resolve key (loop.list.resolveAs Conversion.list))
  let first ← resolveOptional key loop.startIndex fun p ctx => p.resolve ctx
  let last ← resolveOptional key loop.endIndex fun p ctx => p.resolve ctx
  let reverse ← resolveOptional key loop.reverse fun c ctx => c.resolve ctx
  traverse key loop body items first last (reverse.getD false)

def raise (key : String) (p : FaultProvider) : Turns Record Unit := do
  let fault ← one (resolve key p.resolve)
  one (modify (Record.recordFault fault))
  one (.fail fault)

def assign (key : String) (property : Provider) (path : Option Provider) (value : Provider) :
    Turns Record Unit := do
  let name ← one (resolve key (property.resolveAs Conversion.text))
  if isPropertyName name then
    let path ← resolveOptional key path (Provider.resolveAs Conversion.text)
    let value ← one (resolve key fun ctx => value.resolve ctx)
    one (modify (Record.setWrite ⟨some name, path, some value⟩))
    one (Logic.write name (path.map Path.parse) value)
  else one (.fail (ProviderError.invalidPropertyName name).toFault)

def logic (key : String) : Logic → Turns Record Unit
  | .raiseError p => raise key p
  | .setVariable property path value => assign key property path value
  | .external handler => one (Logic.call key handler)

def member (key : String) (start : Record) (part : Turns Record Unit) :
    Turns (Entries Record) Unit := do
  let (record, result) ← nested start part
  one (modify fun records => Entries.put records key record)
  one (.ofExcept result)

end Turns

namespace Action

open ActionFlow.Frame Turns

mutual
/-- The ways of handling an action in turns. -/
def turns (a : Action) : Turns Record Unit :=
  match a with
  | ⟨head, kind, errorActions⟩ =>
    Turns.handle head (kindTurns head.key kind)
      (if errorActions.isEmpty then none else some (sequenceTurns errorActions))

def kindTurns (key : String) (kind : Kind Action) : Turns Record Unit :=
  match kind with
  | .group parallel actions => do
    one (mark key .running)
    file (.children key) []
      (if parallel then together (taskTurns actions) else sequenceTurns actions) Record.setChildren
  | .iterate loop actions => do
    one (mark key .running)
    iterate key loop (sequenceTurns actions)
  | .simple logic => do
    one (mark key .running)
    Turns.logic key logic

def sequenceTurns (actions : List Action) : Turns (Entries Record) Unit :=
  match actions with
  | [] => pure ()
  | a :: rest => do
    member a.key a.freshRecord (turns a)
    sequenceTurns rest

def taskTurns (actions : List Action) : List (Record × Turns Record Unit) :=
  match actions with
  | [] => []
  | a :: rest => (a.freshRecord, turns a) :: taskTurns rest
end

end Action

/-- The turns of a run from the context `c` to the context `d`, in any order that the tasks may
take, with its result and its records. -/
def Automation.Schedule (a : Automation) (c : Context) (turns : List Turn)
    (result : Except Fault Unit) (records : Entries Record) (d : Context) : Prop :=
  Action.sequenceTurns a.actions [] turns result records ∧ Linked c turns d

/-! ### A run is one of its schedules -/

theorem Linked.append {c d e : Context} {first second : List Turn} (h : Linked c first d)
    (h' : Linked d second e) : Linked c (first ++ second) e := by
  induction first generalizing c with
  | nil =>
    obtain rfl : c = d := h
    exact h'
  | cons t rest ih => exact ⟨h.1, ih h.2⟩

theorem Linked.within {c d : Context} {turns : List Turn} (place : Place) (h : Linked c turns d) :
    Linked c (turns.map (Turn.within place)) d := by
  induction turns generalizing c with
  | nil => exact h
  | cons t rest ih => exact ⟨h.1, ih h.2⟩

theorem Turn.journal_within (place : Place) (turns : List Turn) :
    (turns.map (Turn.within place)).flatMap Turn.journal =
      (turns.flatMap Turn.journal).map (Moment.within place) := by
  induction turns with
  | nil => rfl
  | cons t rest ih =>
    rw [List.map_cons, List.flatMap_cons, List.flatMap_cons, List.map_append, ih]
    rfl

theorem Interleaving.cons_nil {parts : List (List Turn)} {turns : List Turn}
    (h : Interleaving parts turns) : Interleaving ([] :: parts) turns := by
  induction h with
  | none empty => exact .none (List.forall_mem_cons.mpr ⟨rfl, empty⟩)
  | @next before after t rest turns others ih => exact .next ([] :: before) ih

/-- The parts one after another. -/
theorem Interleaving.flatten (parts : List (List Turn)) : Interleaving parts parts.flatten := by
  induction parts with
  | nil => exact .none nofun
  | cons part rest ih =>
    induction part with
    | nil => exact ih.cons_nil
    | cons t turns ihturns => exact .next [] ihturns

theorem Interleaving.mem {parts : List (List Turn)} {turns : List Turn}
    (h : Interleaving parts turns) {t : Turn} : t ∈ turns ↔ ∃ part ∈ parts, t ∈ part := by
  induction h with
  | none empty =>
    refine ⟨nofun, ?_⟩
    rintro ⟨part, hpart, ht⟩
    rw [empty part hpart] at ht
    exact ht
  | next before others ih =>
    rw [List.mem_cons, ih]
    simp only [List.mem_append, List.mem_cons, or_and_right, exists_or, exists_eq_left]
    grind

namespace Turns

open ActionFlow.Frame

variable {ρ τ α β : Type}

/-- The ending is that of a way whose turns nothing comes between. -/
structure Gives (p : Turns ρ α) (s : Frame ρ) (e : Ending (Frame ρ) α) (turns : List Turn)
    (result : Except Fault α) : Prop where
  ends : e.result = result.mapError .error
  journal : e.journal = turns.flatMap Turn.journal
  linked : Linked s.context turns e.state.context
  goes : p s.own turns result e.state.own

/-- Every ending of the step, panics apart, is that of a way. -/
def Admits (p : Turns ρ α) (m : Step (Frame ρ) α) : Prop :=
  ∀ s, (m s).Settled → ∃ turns result, p.Gives s (m s) turns result

theorem Gives.of_ok {p : Turns ρ α} {s : Frame ρ} {e : Ending (Frame ρ) α} {turns : List Turn}
    {result : Except Fault α} {a : α} (h : p.Gives s e turns result) (hr : e.result = .ok a) :
    p.Gives s e turns (.ok a) := by
  have hresult := h.ends
  rw [hr] at hresult
  cases result with
  | ok b =>
    cases hresult
    exact h
  | error fault => cases hresult

theorem Gives.of_fault {p : Turns ρ α} {s : Frame ρ} {e : Ending (Frame ρ) α} {turns : List Turn}
    {result : Except Fault α} {fault : Fault} (h : p.Gives s e turns result)
    (hr : e.result = .error (.error fault)) : p.Gives s e turns (.error fault) := by
  have hresult := h.ends
  rw [hr] at hresult
  cases result with
  | ok b => cases hresult
  | error other =>
    cases hresult
    exact h

theorem admits_pure (a : α) : (pure a : Turns ρ α).Admits (pure a) := fun _ _ =>
  ⟨[], .ok a, rfl, rfl, rfl, rfl, rfl, rfl⟩

theorem admits_one (m : Step (Frame ρ) α) : (one m).Admits m := by
  intro s hs
  rcases hs.ok_or_fault with ⟨a, hr⟩ | ⟨fault, hr⟩
  · refine ⟨[⟨s.context, (m s).journal, (m s).state.context⟩], .ok a, hr, ?_, ⟨rfl, rfl⟩, ?_⟩
    · simp
    · exact ⟨s.context, hr, rfl, rfl⟩
  · refine ⟨[⟨s.context, (m s).journal, (m s).state.context⟩], .error fault, hr, ?_, ⟨rfl, rfl⟩, ?_⟩
    · simp
    · exact ⟨s.context, hr, rfl, rfl⟩

theorem admits_bind {p : Turns ρ α} {m : Step (Frame ρ) α} {next : α → Turns ρ β}
    {next' : α → Step (Frame ρ) β} (hm : p.Admits m) (hnext : ∀ a, (next a).Admits (next' a)) :
    (p >>= next).Admits (m >>= next') := by
  intro s hs
  have hfirst := Step.settled_of_bind hs
  obtain ⟨first, result, hgives⟩ := hm s hfirst
  rcases hfirst.ok_or_fault with ⟨a, hr⟩ | ⟨fault, hr⟩
  · have hgives := hgives.of_ok hr
    rw [Step.bind_of_ok hr] at hs ⊢
    obtain ⟨second, result, hgives'⟩ := hnext a (m s).state hs
    refine ⟨first ++ second, result, hgives'.ends, ?_, hgives.linked.append hgives'.linked, ?_⟩
    · rw [List.flatMap_append, ← hgives.journal, ← hgives'.journal]
    · exact .inr ⟨a, _, first, second, hgives.goes, hgives'.goes, rfl⟩
  · have hgives := hgives.of_fault hr
    rw [Step.bind_of_error hr]
    exact ⟨first, .error fault, rfl, hgives.journal, hgives.linked, .inl ⟨fault, hgives.goes, rfl⟩⟩

theorem attempt_eq {m : Step (Frame ρ) α} {s : Frame ρ} {result : Except Fault α}
    (h : (m s).result = result.mapError .error) :
    m.attempt s = ⟨.ok result, (m s).state, (m s).journal⟩ := by
  cases result with
  | ok a =>
    have hr : (m s).result = .ok a := h
    simp only [Step.attempt, hr]
  | error fault =>
    have hr : (m s).result = .error (.error fault) := h
    simp only [Step.attempt, hr]

theorem nested_eq {own : τ} {m : Step (Frame τ) Unit} {s : Frame ρ} {result : Except Fault Unit}
    (h : (m ⟨own, s.context⟩).result = result.mapError .error) :
    Frame.nested own m s =
      ⟨.ok ((m ⟨own, s.context⟩).state.own, result), ⟨s.own, (m ⟨own, s.context⟩).state.context⟩,
        (m ⟨own, s.context⟩).journal⟩ := by
  cases result with
  | ok u =>
    have hr : (m ⟨own, s.context⟩).result = .ok u := h
    simp only [Frame.nested, hr]
  | error fault =>
    have hr : (m ⟨own, s.context⟩).result = .error (.error fault) := h
    simp only [Frame.nested, hr]

theorem admits_attempt {p : Turns ρ α} {m : Step (Frame ρ) α} (h : p.Admits m) :
    p.attempt.Admits m.attempt := by
  intro s hs
  have hm : (m s).Settled := fun panic hp => hs panic (by simp [Step.attempt, hp])
  obtain ⟨turns, result, hgives⟩ := h s hm
  rw [attempt_eq hgives.ends]
  exact ⟨turns, .ok result, rfl, hgives.journal, hgives.linked, result, hgives.goes, rfl⟩

theorem admits_nested (own : τ) {p : Turns τ Unit} {m : Step (Frame τ) Unit} (h : p.Admits m) :
    (nested own p : Turns ρ (τ × Except Fault Unit)).Admits (Frame.nested own m) := by
  intro s hs
  have hm : (m ⟨own, s.context⟩).Settled :=
    fun panic hp => hs panic (by simp [Frame.nested, hp])
  obtain ⟨turns, result, hgives⟩ := h ⟨own, s.context⟩ hm
  rw [nested_eq hgives.ends]
  exact ⟨turns, .ok _, rfl, hgives.journal, hgives.linked, rfl, _, result, hgives.goes, rfl⟩

theorem admits_within (place : Place) {p : Turns ρ α} {m : Step (Frame ρ) α} (h : p.Admits m) :
    (within place p).Admits (Frame.within place m) := by
  intro s hs
  obtain ⟨turns, result, hgives⟩ := h s hs
  refine ⟨turns.map (Turn.within place), result, hgives.ends, ?_, hgives.linked.within place, ?_⟩
  · rw [Turn.journal_within, ← hgives.journal]
    rfl
  · exact ⟨turns, hgives.goes, rfl⟩

theorem admits_file (place : Place) (own : τ) {p : Turns τ Unit} {m : Step (Frame τ) Unit}
    (f : τ → ρ → ρ) (h : p.Admits m) : (file place own p f).Admits (Frame.file place own m f) := by
  refine admits_bind (admits_within place (admits_nested own h)) fun left => ?_
  exact admits_bind (admits_one _) fun _ => admits_one _

theorem admits_resolveOptional {π : Type} (key : String) (p : Option π)
    (f : π → Context → Resolution α) :
    (resolveOptional key p f : Turns ρ (Option α)).Admits (Frame.resolveOptional key p f) := by
  cases p with
  | none => exact admits_pure none
  | some q => exact admits_bind (admits_one _) fun a => admits_pure (some a)

/-! ### Actions -/

section Lifecycle

variable {head : Head} {part : Turns Record Unit} {step : Step (Frame Record) Unit}
  {recovery : Option (Turns (Entries Record) Unit)}
  {recovery' : Option (Step (Frame (Entries Record)) Unit)}

theorem admits_check (key : String) (conditions : List ErrorCondition) :
    (check key conditions).Admits (Lifecycle.check key conditions) := by
  induction conditions with
  | nil => exact admits_pure ()
  | cons e rest ih =>
    refine admits_bind (admits_one _) fun holds => ?_
    cases holds with
    | true => exact admits_bind (admits_one _) fun fault => admits_one _
    | false => exact ih

theorem admits_wanted (head : Head) : (wanted head).Admits (Lifecycle.wanted head) := by
  unfold wanted Lifecycle.wanted
  cases head.runCondition with
  | none => exact admits_pure true
  | some c => exact admits_one _

theorem admits_attempted (head : Head) (h : part.Admits step) :
    (attempted head part).Admits (Lifecycle.attempted head step) := by
  refine admits_bind (admits_one _) fun _ => ?_
  refine admits_bind (admits_one _) fun _ => ?_
  refine admits_bind (admits_wanted head) fun wants => ?_
  cases wants with
  | false => exact admits_bind (admits_one _) fun _ => admits_one _
  | true =>
    refine admits_bind (admits_one _) fun _ => ?_
    refine admits_bind (admits_check _ _) fun _ => ?_
    refine admits_bind (admits_one _) fun _ => ?_
    refine admits_bind h fun _ => ?_
    refine admits_bind (admits_one _) fun _ => ?_
    refine admits_bind (admits_check _ _) fun _ => ?_
    exact admits_bind (admits_one _) fun _ => admits_one _

theorem admits_intercept (key : String) (fault : Fault)
    (h : Option.Rel Admits recovery recovery') :
    (intercept key recovery fault).Admits (Lifecycle.intercept key recovery' fault) := by
  refine admits_bind (admits_one _) fun _ => ?_
  cases h with
  | none => exact admits_one _
  | some h => exact admits_bind (admits_one _) fun _ => admits_file _ _ _ h

theorem admits_handle (h : part.Admits step) (hr : Option.Rel Admits recovery recovery') :
    (handle head part recovery).Admits (Lifecycle.handle head step recovery') := by
  have hguarded : (guarded head part recovery).Admits (Lifecycle.guarded head step recovery') := by
    refine admits_bind (admits_attempt (admits_attempted head h)) fun result => ?_
    cases result with
    | ok u => exact admits_pure ()
    | error fault => exact admits_intercept head.key fault hr
  rw [Lifecycle.handle_eq]
  refine admits_bind (admits_one _) fun _ => ?_
  refine admits_bind (admits_attempt hguarded) fun _ => ?_
  exact admits_bind (admits_one _) fun _ => admits_one _

end Lifecycle

section Loop

variable {key : String} {loop : Loop} {body : Turns (Entries Record) Unit}
  {step : Step (Frame (Entries Record)) Unit}

theorem admits_once (h : body.Admits step) (items : List Value) (i : IterationItem) :
    (once key items body i).Admits (Loop.once key items step i) := by
  rw [Loop.once_eq]
  refine admits_bind (admits_one _) fun _ => ?_
  refine admits_bind (admits_one _) fun _ => ?_
  refine admits_bind (admits_one _) fun _ => ?_
  refine admits_bind (admits_file _ _ _ h) fun _ => ?_
  exact admits_bind (admits_one _) fun _ => admits_one _

theorem admits_continues (key : String) (loop : Loop) :
    (continues key loop).Admits (Loop.continues key loop) := by
  unfold continues Loop.continues
  cases loop.doWhile with
  | none => exact admits_pure true
  | some c => exact admits_one _

theorem admits_visit (h : body.Admits step) (items : List Value) (places : List IterationItem) :
    (visit key loop items body places).Admits (Loop.visit key loop items step places) := by
  induction places with
  | nil => exact admits_pure ()
  | cons i rest ih =>
    refine admits_bind (admits_once h items i) fun _ => ?_
    refine admits_bind (admits_continues key loop) fun goesOn => ?_
    cases goesOn with
    | true => exact ih
    | false => exact admits_pure ()

theorem admits_traverse (h : body.Admits step) (items : List Value) (first last : Option Int)
    (reverse : Bool) :
    (traverse key loop body items first last reverse).Admits
      (Loop.traverse key loop step items first last reverse) := by
  unfold traverse Loop.traverse
  split
  · exact admits_one _
  · cases Range.resolve items.length first last reverse with
    | ok range =>
      refine admits_bind (admits_one _) fun _ => ?_
      exact admits_bind (admits_visit h items _) fun _ => admits_one _
    | error index => exact admits_one _

theorem admits_iterate (key : String) (loop : Loop) (h : body.Admits step) :
    (iterate key loop body).Admits (loop.run key step) := by
  rw [Loop.run_eq]
  refine admits_bind (admits_one _) fun items => ?_
  refine admits_bind (admits_resolveOptional _ _ _) fun first => ?_
  refine admits_bind (admits_resolveOptional _ _ _) fun last => ?_
  refine admits_bind (admits_resolveOptional _ _ _) fun reverse => ?_
  exact admits_traverse h items first last _

end Loop

theorem admits_assign (key : String) (property : Provider) (path : Option Provider)
    (value : Provider) :
    (assign key property path value).Admits (Logic.assign key property path value) := by
  refine admits_bind (admits_one _) fun name => ?_
  split
  · refine admits_bind (admits_resolveOptional _ _ _) fun path => ?_
    refine admits_bind (admits_one _) fun value => ?_
    exact admits_bind (admits_one _) fun _ => admits_one _
  · exact admits_one _

theorem admits_logic (key : String) (logic : Logic) :
    (Turns.logic key logic).Admits (logic.run key) := by
  cases logic with
  | raiseError p =>
    refine admits_bind (admits_one _) fun fault => ?_
    exact admits_bind (admits_one _) fun _ => admits_one _
  | setVariable property path value => exact admits_assign key property path value
  | external handler => exact admits_one _

end Turns

namespace Action

open ActionFlow.Frame Turns

theorem turns_eq (a : Action) :
    a.turns = Turns.handle a.head (kindTurns a.key a.kind)
      (if a.errorActions.isEmpty then none else some (sequenceTurns a.errorActions)) := by
  obtain ⟨head, kind, errorActions⟩ := a
  rw [turns]
  rfl

theorem admits_sequence {actions : List Action} (h : ∀ b ∈ actions, b.turns.Admits b.handle) :
    (sequenceTurns actions).Admits (runSequence actions) := by
  induction actions with
  | nil =>
    rw [sequenceTurns, runSequence]
    exact admits_pure ()
  | cons a rest ih =>
    rw [sequenceTurns, runSequence]
    refine admits_bind ?_ fun _ => ih fun b hb => h b (List.mem_cons_of_mem _ hb)
    refine admits_bind (admits_nested _ (h a List.mem_cons_self)) fun left => ?_
    exact admits_bind (admits_one _) fun _ => admits_one _

/-- The tasks one after another. -/
theorem exists_ended {actions : List Action} (h : ∀ b ∈ actions, b.turns.Admits b.handle)
    (calm : ∀ b ∈ actions, Step.Calm b.handle) (done : List Task) (c : Context) :
    ∃ parts, Ended (taskTurns actions) parts (tasks actions c) ∧
      Linked c parts.flatten (afterTasks actions c) ∧
      (runTasks actions ⟨done, c⟩).journal = parts.flatten.flatMap Turn.journal := by
  induction actions generalizing done c with
  | nil =>
    rw [taskTurns, runTasks]
    exact ⟨[], .nil, rfl, rfl⟩
  | cons a rest ih =>
    have hs : (a.ending c).Settled := calm a List.mem_cons_self _
    obtain ⟨turns, result, hgives⟩ := h a List.mem_cons_self ⟨a.freshRecord, c⟩ hs
    obtain ⟨parts, hended, hlinked, hjournal⟩ := ih
      (fun b hb => h b (List.mem_cons_of_mem _ hb)) (fun b hb => calm b (List.mem_cons_of_mem _ hb))
      (done ++ [a.task c]) (a.ending c).state.context
    have htask : a.task c = ⟨a.freshRecord, .finished (a.ending c).state.own result⟩ := by
      have hends : (a.ending c).result = result.mapError .error := hgives.ends
      unfold task
      rw [hends]
      cases result <;> rfl
    have hspawn : Task.spawn a.freshRecord (handle a) ⟨done, c⟩ =
        ⟨.ok (), ⟨done ++ [a.task c], (a.ending c).state.context⟩, (a.ending c).journal⟩ := rfl
    rw [taskTurns, tasks, htask, runTasks, Step.bind_of_ok (congrArg Ending.result hspawn), hspawn]
    refine ⟨turns :: parts, .cons hgives.goes hended, ?_, ?_⟩
    · exact hgives.linked.append hlinked
    · rw [hjournal, List.flatten_cons, List.flatMap_append]
      exact congrArg (· ++ _) hgives.journal

theorem admits_parallel {actions : List Action} (h : ∀ b ∈ actions, b.turns.Admits b.handle)
    (calm : ∀ b ∈ actions, Step.Calm b.handle) :
    (together (taskTurns actions)).Admits (runParallel actions) := by
  intro s hs
  obtain ⟨parts, hended, hlinked, hjournal⟩ := exists_ended h calm [] s.context
  obtain ⟨hok, hstate⟩ := runTasks_eq actions [] s.context
  have hresult : (runTasks actions ⟨[], s.context⟩).result =
      (Except.ok () : Except Fault Unit).mapError .error := hok
  have hnested : Frame.nested [] (runTasks actions) s =
      (⟨.ok (tasks actions s.context, .ok ()), ⟨s.own, afterTasks actions s.context⟩,
        (runTasks actions ⟨[], s.context⟩).journal⟩ :
        Ending (Frame (Entries Record)) (List Task × Except Fault Unit)) := by
    rw [nested_eq hresult, hstate]
    rfl
  have hrun : runParallel actions s =
      let e := Task.settle (tasks actions s.context) ⟨s.own, afterTasks actions s.context⟩
      ⟨e.result, e.state, (runTasks actions ⟨[], s.context⟩).journal ++ e.journal⟩ := by
    unfold runParallel Task.together
    rw [Step.bind_of_ok (congrArg Ending.result hnested), hnested]
  rw [hrun] at hs ⊢
  obtain ⟨last, result, hgives⟩ := admits_one (Task.settle (tasks actions s.context)) _ hs
  refine ⟨parts.flatten ++ last, result, hgives.ends, ?_, hlinked.append hgives.linked, ?_⟩
  · rw [List.flatMap_append, ← hjournal, ← hgives.journal]
  · exact .inr ⟨_, s.own, parts.flatten, last,
      ⟨rfl, parts, _, hended, .flatten parts, rfl⟩, hgives.goes, rfl⟩

theorem admits_kind (key : String) {kind : Kind Action}
    (h : ∀ b ∈ kind.actions, b.turns.Admits b.handle)
    (calm : ∀ actions, kind = .group true actions → ∀ b ∈ actions, Step.Calm b.handle) :
    (kindTurns key kind).Admits (runKind key kind) := by
  cases kind with
  | group parallel actions =>
    rw [kindTurns, runKind]
    refine admits_bind (admits_one _) fun _ => admits_file _ _ _ ?_
    cases parallel with
    | true => exact admits_parallel h (calm actions rfl)
    | false => exact admits_sequence h
  | iterate loop actions =>
    rw [kindTurns, runKind]
    exact admits_bind (admits_one _) fun _ => admits_iterate key loop (admits_sequence h)
  | simple logic =>
    rw [kindTurns, runKind]
    exact admits_bind (admits_one _) fun _ => admits_logic key logic

theorem admits_node (a : Action)
    (calm : ∀ actions, a.kind = .group true actions → ∀ b ∈ actions, Step.Calm b.handle)
    (inside : ∀ b ∈ a.kind.actions, b.turns.Admits b.handle)
    (recovery : ∀ b ∈ a.errorActions, b.turns.Admits b.handle) : a.turns.Admits a.handle := by
  rw [turns_eq, handle_eq]
  refine admits_handle (admits_kind a.key inside calm) ?_
  unfold Action.recovery
  split
  · exact .none
  · exact .some (admits_sequence recovery)

end Action

/-- A run without panics is one of the schedules of its automation. -/
theorem Automation.exists_schedule {a : Automation} (hc : a.CalmTasks) {ctx : Context}
    (hs : (a.run ctx).Settled) :
    ∃ turns result, a.Schedule ctx turns result (a.run ctx).state.own (a.run ctx).state.context ∧
      (a.run ctx).result = result.mapError .error ∧
      (a.run ctx).journal = turns.flatMap Turn.journal := by
  have hadmits : ∀ b ∈ a.actions, b.turns.Admits b.handle := by
    refine Action.forest_induction Action.admits_node fun b hb actions hkind => ?_
    exact Action.calm_handle (hc b hb actions hkind)
  obtain ⟨turns, result, hgives⟩ := Action.admits_sequence hadmits ⟨[], ctx⟩ hs
  exact ⟨turns, result, ⟨hgives.goes, hgives.linked⟩, hgives.ends, hgives.journal⟩

/-- What an outcome tells is what one of the schedules leaves. -/
theorem Automation.exists_schedule_of_outcome {a : Automation} (hc : a.CalmTasks) {ctx : Context}
    {o : Outcome} (ho : a.outcome ctx = .ok o) :
    ∃ turns result, a.Schedule ctx turns result o.actions (a.run ctx).state.context ∧
      o.error = Turns.fault? result ∧ (a.run ctx).journal = turns.flatMap Turn.journal := by
  obtain ⟨hs, rfl⟩ := outcome_eq_ok_iff.mp ho
  obtain ⟨turns, result, hschedule, hresult, hjournal⟩ := exists_schedule hc hs
  refine ⟨turns, result, hschedule, ?_, hjournal⟩
  cases result with
  | ok u => exact Ending.fault?_of_ok hresult
  | error fault => exact Ending.fault?_of_fault hresult

end ActionFlow
