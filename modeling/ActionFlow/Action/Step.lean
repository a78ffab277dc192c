import ActionFlow.Action.Basic

/-!
# Steps of a run

A step changes a state, may stop, and leaves a journal of moments: what happened for which action,
and how the context was then.  What a step did before it stopped stays done.  Steps form a monad in
which journals are joined in order; a fault can be caught, a panic passes through.
-/
namespace ActionFlow

inductive Event where
  | entered
  | resolving
  | running
  | handling
  | noted (text : String)
  deriving DecidableEq, Repr

/-- A part of a run that a moment lies in. -/
inductive Place where
  | action (key : String)
  | children (key : String)
  | iteration (key : String) (items : List Value) (index : Nat)
  | recovery (key : String)

structure Moment where
  /-- The parts from the outermost one in view to the action concerned. -/
  path : List Place
  event : Event
  context : Context

def Moment.within (place : Place) (m : Moment) : Moment := { m with path := place :: m.path }

/-- How a step ends. -/
structure Ending (σ α : Type) where
  result : Except (Stop Fault) α
  state : σ
  journal : List Moment

/-- A step from a state to an ending. -/
def Step (σ α : Type) := σ → Ending σ α

namespace Step

variable {σ α β : Type}

def done (a : α) : Step σ α := fun s => ⟨.ok a, s, []⟩

def andThen (m : Step σ α) (next : α → Step σ β) : Step σ β := fun s =>
  let first := m s
  match first.result with
  | .ok a =>
    let second := next a first.state
    ⟨second.result, second.state, first.journal ++ second.journal⟩
  | .error stop => ⟨.error stop, first.state, first.journal⟩

instance : Monad (Step σ) where
  pure := done
  bind := andThen

def fail (fault : Fault) : Step σ α := fun s => ⟨.error (.error fault), s, []⟩

def state : Step σ σ := fun s => ⟨.ok s, s, []⟩

def update (f : σ → σ) : Step σ Unit := fun s => ⟨.ok (), f s, []⟩

def ofExcept (result : Except Fault α) : Step σ α := fun s => ⟨result.mapError .error, s, []⟩

/-- Catches a fault; a panic passes. -/
def attempt (m : Step σ α) : Step σ (Except Fault α) := fun s =>
  let ending := m s
  match ending.result with
  | .ok a => ⟨.ok (.ok a), ending.state, ending.journal⟩
  | .error (.error fault) => ⟨.ok (.error fault), ending.state, ending.journal⟩
  | .error (.panic panic) => ⟨.error (.panic panic), ending.state, ending.journal⟩

/-! ### Laws -/

theorem pure_eq (a : α) : (pure a : Step σ α) = done a := rfl

theorem bind_eq (m : Step σ α) (next : α → Step σ β) : m >>= next = andThen m next := rfl

theorem bind_of_ok {m : Step σ α} {next : α → Step σ β} {s : σ} {a : α}
    (h : (m s).result = .ok a) :
    (m >>= next) s =
      ⟨(next a (m s).state).result, (next a (m s).state).state,
        (m s).journal ++ (next a (m s).state).journal⟩ := by
  simp [bind_eq, andThen, h]

theorem bind_of_error {m : Step σ α} {next : α → Step σ β} {s : σ} {stop : Stop Fault}
    (h : (m s).result = .error stop) :
    (m >>= next) s = ⟨.error stop, (m s).state, (m s).journal⟩ := by
  simp [bind_eq, andThen, h]

instance : LawfulMonad (Step σ) :=
  LawfulMonad.mk' (Step σ)
    (by
      intro α m
      funext s
      simp only [Functor.map, andThen]
      cases h : (m s).result <;> simp [done, ← h])
    (by
      intro α β a next
      funext s
      simp [pure_eq, bind_eq, andThen, done])
    (by
      intro α β γ m f g
      funext s
      simp only [bind_eq, andThen]
      cases (m s).result with
      | error stop => rfl
      | ok a =>
        dsimp only
        cases (f a (m s).state).result <;> simp [List.append_assoc])

end Step

end ActionFlow
