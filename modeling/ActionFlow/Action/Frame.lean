import ActionFlow.Action.Step
import ActionFlow.Record.Snapshot

/-!
# Frames

A frame is the state of a part of a run: what the part owns, which is a record or a table of
records, and the context that it shares with the rest.  A part inside another one starts with its
own state and the context as it is, and the context comes back from it.
-/
namespace ActionFlow

/-- The state of a part of a run. -/
structure Frame (ρ : Type) where
  own : ρ
  context : Context

namespace Frame

variable {ρ τ α : Type}

def mark (key : String) (event : Event) : Step (Frame ρ) Unit := fun s =>
  ⟨.ok (), s, [⟨[.action key], event, s.context⟩]⟩

def resolve (key : String) (p : Context → Resolution α) : Step (Frame ρ) α := fun s =>
  let result := match p s.context with
    | .ok a => .ok a
    | .error (.error e) => .error (.error e.toFault)
    | .error (.panic panic) => .error (.panic panic)
  ⟨result, s, [⟨[.action key], .resolving, s.context⟩]⟩

def resolveOptional {π : Type} (key : String) (p : Option π) (f : π → Context → Resolution α) :
    Step (Frame ρ) (Option α) :=
  match p with
  | none => pure none
  | some p => do
    let a ← resolve key (f p)
    pure (some a)

def modify (f : ρ → ρ) : Step (Frame ρ) Unit := .update fun s => { s with own := f s.own }

def ensureNotCancelled (key : String) : Step (Frame ρ) Unit := do
  let s ← Step.state
  .ofExcept (s.context.ensureNotCancelled key)

/-- Runs a part that owns a state of its own.  Gives what the part owned in the end and whether it
failed; only a panic stops the step. -/
def nested (own : τ) (part : Step (Frame τ) Unit) : Step (Frame ρ) (τ × Except Fault Unit) :=
  fun s =>
    let ending := part ⟨own, s.context⟩
    let result := match ending.result with
      | .ok () => .ok (ending.state.own, .ok ())
      | .error (.error fault) => .ok (ending.state.own, .error fault)
      | .error (.panic panic) => .error (.panic panic)
    ⟨result, ⟨s.own, ending.state.context⟩, ending.journal⟩

def within (place : Place) (part : Step (Frame ρ) α) : Step (Frame ρ) α := fun s =>
  let ending := part s
  ⟨ending.result, ending.state, ending.journal.map (Moment.within place)⟩

/-! ### Records -/

def move (target : Stage) : Step (Frame Record) Unit := fun s =>
  match s.own.transition s.context.clock target with
  | .ok record => ⟨.ok (), ⟨record, s.context⟩, []⟩
  | .error fault => ⟨.error (.error fault), s, []⟩

def succeed : Step (Frame Record) Unit := modify fun r => { r with succeeded := true }

/-- Puts a fault down and closes the record. -/
def close (fault : Fault) : Step (Frame Record) Unit :=
  .update fun s => { s with own := s.own.lost s.context.clock fault }

def publish (key : String) : Step (Frame Record) Unit :=
  .update fun s => { s with context := s.context.publish key s.own.snapshot }

/-- Publishes the record once a step is over, whether it failed or not. -/
def thenPublish (key : String) (step : Step (Frame Record) Unit) : Step (Frame Record) Unit := do
  let result ← step.attempt
  publish key
  .ofExcept result

end Frame

end ActionFlow
