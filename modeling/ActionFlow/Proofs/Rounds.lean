import ActionFlow.Proofs.Course

/-!
# Conditions through steps and rounds

`Meets` follows a condition on the fault, on what is owned and on the context through a step.
`RoundRule` says what has to be shown of one round of an iteration and carries it through all of
them.
-/
namespace ActionFlow

/-! ### A condition through a step -/

namespace Ending

variable {ρ α : Type}

/-- Unless it is a panic, the ending has its fault, what is owned and the context in `J`. -/
def Meets (J : Option Fault → ρ → Context → Prop) (e : Ending (Frame ρ) α) : Prop :=
  e.Settled → J e.fault? e.state.own e.state.context

end Ending

namespace Frame

variable {ρ τ α β : Type} {J : Option Fault → ρ → Context → Prop} {s : Frame ρ}

theorem meets_bind {m : Step (Frame ρ) α} {next : α → Step (Frame ρ) β} (hm : (m s).Meets J)
    (hnext : ∀ a, (m s).result = .ok a → J none (m s).state.own (m s).state.context →
      (next a (m s).state).Meets J) : ((m >>= next) s).Meets J := by
  intro hs
  have hj := hm (Step.settled_of_bind hs)
  cases hr : (m s).result with
  | ok a =>
    rw [Ending.fault?_of_ok hr] at hj
    rw [Step.bind_of_ok hr] at hs ⊢
    exact hnext a hr hj hs
  | error stop =>
    have hf : ((m >>= next) s).fault? = (m s).fault? := by
      rw [Step.bind_of_error hr]
      simp only [Ending.fault?, hr]
      cases stop <;> rfl
    have hstate : ((m >>= next) s).state = (m s).state := by
      rw [Step.bind_of_error hr]
    rw [hf, hstate]
    exact hj

theorem meets_pure (a : α) (h : J none s.own s.context) : ((pure a : Step (Frame ρ) α) s).Meets J :=
  fun _ => h

theorem meets_fail {fault : Fault} (h : J (some fault) s.own s.context) :
    ((.fail fault : Step (Frame ρ) α) s).Meets J := fun _ => h

theorem meets_reads {m : Step (Frame ρ) α} (hm : Reads m) (h : ∀ x, J x s.own s.context) :
    (m s).Meets J := by
  intro _
  rw [hm s]
  exact h _

theorem meets_modify {f : ρ → ρ} (h : J none (f s.own) s.context) : (modify f s).Meets J :=
  fun _ => h

theorem meets_mark {key : String} {event : Event} (h : J none s.own s.context) :
    ((mark key event : Step (Frame ρ) Unit) s).Meets J := fun _ => h

theorem meets_publish {J : Option Fault → Record → Context → Prop} {key : String}
    {s : Frame Record} (h : J none s.own (s.context.publish key s.own.snapshot)) :
    (publish key s).Meets J := fun _ => h

theorem meets_file {place : Place} {own : τ} {part : Step (Frame τ) Unit} {f : τ → ρ → ρ}
    (h : (part ⟨own, s.context⟩).Settled →
      J (part ⟨own, s.context⟩).fault? (f (part ⟨own, s.context⟩).state.own s.own)
        (part ⟨own, s.context⟩).state.context) : (file place own part f s).Meets J := by
  intro hs
  have hpart := settled_of_file hs
  rw [file_of_settled place f hpart]
  exact h hpart

end Frame

/-! ### Rounds -/

namespace Loop

open ActionFlow.Frame

def Iterating (r : Record) (K : Option Fault → List (Iteration Record) → Context → Prop)
    (x : Option Fault) (left : Record) (c : Context) : Prop :=
  ∃ progress iterations, left = { r with detail := .iterate progress iterations } ∧ K x iterations c

/-- A condition on the way of an iteration: it survives publication, a stop between two rounds, and
one round. -/
structure RoundRule (key : String) (body : Step (Frame (Entries Record)) Unit)
    (K : Option Fault → List (Iteration Record) → Context → Prop) : Prop where
  publish : ∀ {x iterations c} (snapshot : Value), K x iterations c →
    K x iterations (c.publish key snapshot)
  stop : ∀ {iterations c} (x : Option Fault), K none iterations c → K x iterations c
  round : ∀ {iterations c} (index : Nat), K none iterations c → (body ⟨[], c⟩).Settled →
    K (body ⟨[], c⟩).fault? (iterations ++ [⟨index, (body ⟨[], c⟩).state.own⟩])
      (body ⟨[], c⟩).state.context

variable {key : String} {loop : Loop} {items : List Value} {i : IterationItem}
  {body : Step (Frame (Entries Record)) Unit} {r : Record}
  {K : Option Fault → List (Iteration Record) → Context → Prop} {s : Frame Record}

theorem once_eq (key : String) (items : List Value) (body : Step (Frame (Entries Record)) Unit)
    (i : IterationItem) :
    once key items body i = (do
      ensureNotCancelled key
      modify (Record.updateProgress fun p => { p with current := some i })
      publish key
      file (.iteration key items i.index) [] body fun records =>
        Record.addIteration ⟨i.index, records⟩
      modify (Record.updateProgress fun p =>
        { p with completed := p.completed + 1, last := some i })
      publish key) := by
  simp only [once, file, bind_assoc]

def traverse (key : String) (loop : Loop) (body : Step (Frame (Entries Record)) Unit)
    (items : List Value) (first last : Option Int) (reverse : Bool) : Step (Frame Record) Unit :=
  if items.isEmpty then modify (Record.updateProgress (idle first last reverse))
  else
    match Range.resolve items.length first last reverse with
    | .ok range => visitRange key loop body items range
    | .error index => .fail (.indexOutOfRange key index items.length)

theorem run_eq (key : String) (loop : Loop) (body : Step (Frame (Entries Record)) Unit) :
    run key loop body = (do
      let items ← resolve key (loop.list.resolveAs Conversion.list)
      let first ← resolveOptional key loop.startIndex fun p ctx => p.resolve ctx
      let last ← resolveOptional key loop.endIndex fun p ctx => p.resolve ctx
      let reverse ← resolveOptional key loop.reverse fun c ctx => c.resolve ctx
      traverse key loop body items first last (reverse.getD false)) := rfl

theorem reads_continues (key : String) (loop : Loop) : Reads (continues key loop) := by
  unfold continues
  cases loop.doWhile with
  | none => exact reads_pure true
  | some c => exact reads_resolve key _

theorem Iterating.updateProgress {x : Option Fault} {left : Record} {c : Context}
    (f : Progress → Progress) (h : Iterating r K x left c) :
    Iterating r K x (left.updateProgress f) c := by
  obtain ⟨progress, iterations, rfl, hk⟩ := h
  exact ⟨f progress, iterations, rfl, hk⟩

namespace RoundRule

theorem published (h : RoundRule key body K) {x : Option Fault} {left : Record} {c : Context}
    (snapshot : Value) (hi : Iterating r K x left c) :
    Iterating r K x left (c.publish key snapshot) := by
  obtain ⟨progress, iterations, he, hk⟩ := hi
  exact ⟨progress, iterations, he, h.publish snapshot hk⟩

theorem stopped (h : RoundRule key body K) {left : Record} {c : Context} (x : Option Fault)
    (hi : Iterating r K none left c) : Iterating r K x left c := by
  obtain ⟨progress, iterations, he, hk⟩ := hi
  exact ⟨progress, iterations, he, h.stop x hk⟩

theorem added (h : RoundRule key body K) {left : Record} {c : Context} (index : Nat)
    (hi : Iterating r K none left c) (hs : (body ⟨[], c⟩).Settled) :
    Iterating r K (body ⟨[], c⟩).fault?
      (left.addIteration ⟨index, (body ⟨[], c⟩).state.own⟩) (body ⟨[], c⟩).state.context := by
  obtain ⟨progress, iterations, rfl, hk⟩ := hi
  exact ⟨progress, _, rfl, h.round index hk hs⟩

theorem once (h : RoundRule key body K) (hi : Iterating r K none s.own s.context) :
    (once key items body i s).Meets (Iterating r K) := by
  rw [once_eq]
  refine meets_bind (meets_reads (reads_ensureNotCancelled key) fun x => h.stopped x hi) ?_
  intro u _ hi
  refine meets_bind (meets_modify (hi.updateProgress _)) fun u _ hi => ?_
  refine meets_bind (meets_publish (h.published _ hi)) fun u _ hi => ?_
  refine meets_bind (meets_file fun hs => h.added i.index hi hs) fun u _ hi => ?_
  refine meets_bind (meets_modify (hi.updateProgress _)) fun u _ hi => ?_
  exact meets_publish (h.published _ hi)

theorem visit (h : RoundRule key body K) (places : List IterationItem) {s : Frame Record}
    (hi : Iterating r K none s.own s.context) :
    (visit key loop items body places s).Meets (Iterating r K) := by
  induction places generalizing s with
  | nil => exact meets_pure () hi
  | cons i rest ih =>
    unfold Loop.visit
    refine meets_bind (h.once hi) fun u _ hi => ?_
    refine meets_bind (meets_reads (reads_continues key loop) fun x => h.stopped x hi) ?_
    intro goesOn _ hi
    cases goesOn with
    | true => exact ih hi
    | false => exact meets_pure () hi

theorem visitRange (h : RoundRule key body K) (range : Range)
    (hi : Iterating r K none s.own s.context) :
    (visitRange key loop body items range s).Meets (Iterating r K) := by
  unfold Loop.visitRange
  refine meets_bind (meets_modify (hi.updateProgress _)) fun u _ hi => ?_
  refine meets_bind (h.visit _ hi) fun u _ hi => ?_
  exact meets_modify (hi.updateProgress _)

theorem traverse (h : RoundRule key body K) (items : List Value) (first last : Option Int)
    (reverse : Bool) (hi : Iterating r K none s.own s.context) :
    (traverse key loop body items first last reverse s).Meets (Iterating r K) := by
  unfold Loop.traverse
  split
  · exact meets_modify (hi.updateProgress _)
  · cases Range.resolve items.length first last reverse with
    | ok range => exact h.visitRange range hi
    | error index => exact meets_fail (h.stopped _ hi)

/-- What survives a round survives the iteration. -/
theorem run (h : RoundRule key body K) (hi : Iterating r K none s.own s.context) :
    (Loop.run key loop body s).Meets (Iterating r K) := by
  rw [run_eq]
  refine meets_bind (meets_reads (reads_resolve key _) fun x => h.stopped x hi) ?_
  intro items _ hi
  refine meets_bind (meets_reads (reads_resolveOptional key _ _) fun x => h.stopped x hi) ?_
  intro first _ hi
  refine meets_bind (meets_reads (reads_resolveOptional key _ _) fun x => h.stopped x hi) ?_
  intro last _ hi
  refine meets_bind (meets_reads (reads_resolveOptional key _ _) fun x => h.stopped x hi) ?_
  intro reverse _ hi
  exact h.traverse items first last (reverse.getD false) hi

end RoundRule

end Loop

end ActionFlow
