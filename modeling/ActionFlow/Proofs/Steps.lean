import ActionFlow.Proofs.Tree

/-!
# How steps end

An ending is settled unless it is a panic; a settled one has a fault or none.  The lemmas say how
the steps on frames end, so that what a whole action does can be read off without opening them
again.
-/
namespace ActionFlow

namespace Ending

variable {σ α : Type}

def Settled (e : Ending σ α) : Prop := ∀ panic, e.result ≠ .error (.panic panic)

def fault? (e : Ending σ α) : Option Fault :=
  match e.result with
  | .error (.error fault) => some fault
  | _ => none

theorem settled_of_ok {e : Ending σ α} {a : α} (h : e.result = .ok a) : e.Settled := by
  intro panic hp
  rw [h] at hp
  cases hp

theorem settled_of_fault {e : Ending σ α} {fault : Fault}
    (h : e.result = .error (.error fault)) : e.Settled := by
  intro panic hp
  rw [h] at hp
  cases hp

theorem fault?_of_ok {e : Ending σ α} {a : α} (h : e.result = .ok a) : e.fault? = none := by
  simp [fault?, h]

theorem fault?_of_fault {e : Ending σ α} {fault : Fault}
    (h : e.result = .error (.error fault)) : e.fault? = some fault := by
  simp [fault?, h]

theorem fault?_eq_some_iff {e : Ending σ α} {fault : Fault} :
    e.fault? = some fault ↔ e.result = .error (.error fault) := by
  constructor
  · intro h
    unfold fault? at h
    split at h
    · next hr =>
      cases h
      exact hr
    · cases h
  · exact fault?_of_fault

theorem fault?_congr {τ : Type} {e : Ending σ α} {e' : Ending τ α} (h : e.result = e'.result) :
    e.fault? = e'.fault? := by
  simp [fault?, h]

theorem settled_congr {τ : Type} {e : Ending σ α} {e' : Ending τ α} (h : e.result = e'.result) :
    e.Settled ↔ e'.Settled := by
  simp [Settled, h]

theorem Settled.ok_or_fault {e : Ending σ α} (h : e.Settled) :
    (∃ a, e.result = .ok a) ∨ ∃ fault, e.result = .error (.error fault) := by
  cases hr : e.result with
  | ok a => exact Or.inl ⟨a, rfl⟩
  | error stop =>
    cases stop with
    | error fault => exact Or.inr ⟨fault, rfl⟩
    | panic panic => exact absurd hr (h panic)

theorem panic_of_not_settled {e : Ending σ α} (h : ¬ e.Settled) :
    ∃ panic, e.result = .error (.panic panic) := by
  cases hr : e.result with
  | ok a => exact absurd (settled_of_ok hr) h
  | error stop =>
    cases stop with
    | error fault => exact absurd (settled_of_fault hr) h
    | panic panic => exact ⟨panic, rfl⟩

end Ending

namespace Step

variable {σ α β : Type}

theorem attempt_bind_of_ok {m : Step σ α} {s : σ} {a : α} (h : (m s).result = .ok a)
    (next : Except Fault α → Step σ β) :
    (m.attempt >>= next) s =
      ⟨(next (.ok a) (m s).state).result, (next (.ok a) (m s).state).state,
        (m s).journal ++ (next (.ok a) (m s).state).journal⟩ := by
  simp [bind_eq, andThen, attempt, h]

theorem attempt_bind_of_fault {m : Step σ α} {s : σ} {fault : Fault}
    (h : (m s).result = .error (.error fault)) (next : Except Fault α → Step σ β) :
    (m.attempt >>= next) s =
      ⟨(next (.error fault) (m s).state).result, (next (.error fault) (m s).state).state,
        (m s).journal ++ (next (.error fault) (m s).state).journal⟩ := by
  simp [bind_eq, andThen, attempt, h]

theorem attempt_bind_of_panic {m : Step σ α} {s : σ} {panic : Panic}
    (h : (m s).result = .error (.panic panic)) (next : Except Fault α → Step σ β) :
    (m.attempt >>= next) s = ⟨.error (.panic panic), (m s).state, (m s).journal⟩ := by
  simp [bind_eq, andThen, attempt, h]

/-- A fault is caught from what a step comes to, however the step is written. -/
theorem attempt_bind_congr {m m' : Step σ α} {s : σ} (h : m s = m' s)
    (next : Except Fault α → Step σ β) : (m.attempt >>= next) s = (m'.attempt >>= next) s := by
  simp [bind_eq, andThen, attempt, h]

theorem journal_bind (m : Step σ α) (next : α → Step σ β) (s : σ) :
    ∃ later, ((m >>= next) s).journal = (m s).journal ++ later := by
  cases hr : (m s).result with
  | ok a =>
    rw [bind_of_ok hr]
    exact ⟨_, rfl⟩
  | error stop =>
    rw [bind_of_error hr]
    exact ⟨[], (List.append_nil _).symm⟩

theorem settled_of_bind {m : Step σ α} {next : α → Step σ β} {s : σ}
    (h : ((m >>= next) s).Settled) : (m s).Settled := by
  intro panic hp
  rw [bind_of_error hp] at h
  exact h panic rfl

theorem ofExcept_ok (a : α) (s : σ) : ofExcept (.ok a) s = ⟨.ok a, s, []⟩ := rfl

theorem ofExcept_error (fault : Fault) (s : σ) :
    (ofExcept (.error fault) : Step σ α) s = ⟨.error (.error fault), s, []⟩ := rfl

end Step

namespace Frame

variable {ρ τ α : Type}

theorem modify_bind (f : ρ → ρ) (next : Unit → Step (Frame ρ) α) (s : Frame ρ) :
    (modify f >>= next) s = next () ⟨f s.own, s.context⟩ := rfl

theorem publish_bind (key : String) (next : Unit → Step (Frame Record) α) (s : Frame Record) :
    (publish key >>= next) s = next () ⟨s.own, s.context.publish key s.own.snapshot⟩ := rfl

theorem move_of_canMove {target : Stage} {s : Frame Record}
    (h : s.own.stage.canMove target = true) :
    move target s =
      ⟨.ok (), ⟨Record.stamp s.context.clock target { s.own with stage := target }, s.context⟩,
        []⟩ := by
  simp only [move, Record.transition_of_canMove h]

theorem move_of_not_canMove {target : Stage} {s : Frame Record}
    (h : s.own.stage.canMove target = false) :
    move target s =
      ⟨.error (.error (.invalidTransition s.own.key ⟨s.own.stage, target⟩)), s, []⟩ := by
  simp only [move, Record.transition_of_not_canMove h]

theorem move_bind {target : Stage} {s : Frame Record} (h : s.own.stage.canMove target = true)
    (next : Unit → Step (Frame Record) α) :
    (move target >>= next) s =
      next () ⟨Record.stamp s.context.clock target { s.own with stage := target }, s.context⟩ := by
  have hm := move_of_canMove h
  rw [Step.bind_of_ok (by rw [hm]), hm]
  rfl

theorem context_move (target : Stage) (s : Frame Record) :
    (move target s).state.context = s.context := by
  unfold move
  cases s.own.transition s.context.clock target <;> rfl

/-! ### Filing what a part leaves -/

/-- Runs a part at a place, files what it owned in the end and goes on with its result. -/
def file (place : Place) (own : τ) (part : Step (Frame τ) Unit) (f : τ → ρ → ρ) :
    Step (Frame ρ) Unit := do
  let (left, result) ← within place (nested own part)
  modify (f left)
  .ofExcept result

theorem file_of_settled (place : Place) {own : τ} {part : Step (Frame τ) Unit} (f : τ → ρ → ρ)
    {r : ρ} {c : Context} (h : (part ⟨own, c⟩).Settled) :
    file place own part f ⟨r, c⟩ =
      ⟨(part ⟨own, c⟩).result, ⟨f (part ⟨own, c⟩).state.own r, (part ⟨own, c⟩).state.context⟩,
        (part ⟨own, c⟩).journal.map (Moment.within place)⟩ := by
  rcases h.ok_or_fault with ⟨_, hr⟩ | ⟨fault, hr⟩
  · simp [file, Step.bind_eq, Step.andThen, within, nested, modify, Step.update,
      Step.ofExcept_ok, hr]
  · simp [file, Step.bind_eq, Step.andThen, within, nested, modify, Step.update,
      Step.ofExcept_error, hr]

theorem file_of_panic (place : Place) {own : τ} {part : Step (Frame τ) Unit} (f : τ → ρ → ρ)
    {r : ρ} {c : Context} {panic : Panic} (h : (part ⟨own, c⟩).result = .error (.panic panic)) :
    file place own part f ⟨r, c⟩ =
      ⟨.error (.panic panic), ⟨r, (part ⟨own, c⟩).state.context⟩,
        (part ⟨own, c⟩).journal.map (Moment.within place)⟩ := by
  simp [file, Step.bind_eq, Step.andThen, within, nested, h]

theorem result_file (place : Place) (own : τ) (part : Step (Frame τ) Unit) (f : τ → ρ → ρ) (r : ρ)
    (c : Context) : (file place own part f ⟨r, c⟩).result = (part ⟨own, c⟩).result := by
  by_cases h : (part ⟨own, c⟩).Settled
  · rw [file_of_settled place f h]
  · obtain ⟨panic, hp⟩ := Ending.panic_of_not_settled h
    rw [file_of_panic place f hp, hp]

theorem journal_file (place : Place) (own : τ) (part : Step (Frame τ) Unit) (f : τ → ρ → ρ) (r : ρ)
    (c : Context) :
    (file place own part f ⟨r, c⟩).journal =
      (part ⟨own, c⟩).journal.map (Moment.within place) := by
  by_cases h : (part ⟨own, c⟩).Settled
  · rw [file_of_settled place f h]
  · obtain ⟨panic, hp⟩ := Ending.panic_of_not_settled h
    rw [file_of_panic place f hp]

theorem settled_of_file {place : Place} {own : τ} {part : Step (Frame τ) Unit} {f : τ → ρ → ρ}
    {r : ρ} {c : Context} (h : (file place own part f ⟨r, c⟩).Settled) :
    (part ⟨own, c⟩).Settled := fun panic hp => h panic (by rw [file_of_panic place f hp])

/-! ### Steps that only read -/

/-- The step leaves its state as it is. -/
def Reads (m : Step (Frame ρ) α) : Prop := ∀ s, (m s).state = s

theorem reads_pure (a : α) : Reads (pure a : Step (Frame ρ) α) := fun _ => rfl

theorem reads_fail (fault : Fault) : Reads (.fail fault : Step (Frame ρ) α) := fun _ => rfl

theorem reads_resolve (key : String) (p : Context → Resolution α) :
    Reads (resolve key p : Step (Frame ρ) α) := fun _ => rfl

theorem reads_bind {β : Type} {m : Step (Frame ρ) α} {next : α → Step (Frame ρ) β} (hm : Reads m)
    (hnext : ∀ a, Reads (next a)) : Reads (m >>= next) := by
  intro s
  cases hr : (m s).result with
  | ok a =>
    rw [Step.bind_of_ok hr, hm s]
    exact hnext a s
  | error stop =>
    rw [Step.bind_of_error hr]
    exact hm s

theorem reads_resolveOptional {π : Type} (key : String) (p : Option π)
    (f : π → Context → Resolution α) :
    Reads (resolveOptional key p f : Step (Frame ρ) (Option α)) := by
  cases p with
  | none => exact reads_pure none
  | some p => exact reads_bind (reads_resolve key (f p)) fun a => reads_pure (some a)

theorem reads_ensureNotCancelled (key : String) :
    Reads (ensureNotCancelled key : Step (Frame ρ) Unit) := fun _ => rfl

/-- How a provider that gives no value stops what asked for it. -/
def reported : Stop ProviderError → Stop Fault
  | .error e => .error e.toFault
  | .panic panic => .panic panic

theorem result_resolve (key : String) (p : Context → Resolution α) (s : Frame ρ) :
    (resolve key p s).result = (p s.context).mapError reported := by
  unfold resolve
  rcases p s.context with (e | panic) | a
  · rfl
  · rfl
  · rfl

theorem of_resolve_ok {key : String} {p : Context → Resolution α} {a : α} {s : Frame ρ}
    (h : (resolve key p s).result = .ok a) : p s.context = .ok a := by
  unfold resolve at h
  cases hp : p s.context with
  | ok b =>
    rw [hp] at h
    cases h
    rfl
  | error stop =>
    rw [hp] at h
    cases stop <;> cases h

theorem ensureNotCancelled_of_cancelled {s : Frame ρ} (h : s.context.cancelled = true)
    (key : String) :
    ensureNotCancelled key s = ⟨.error (.error (.actionCancelled key)), s, []⟩ := by
  unfold ensureNotCancelled
  simp only [Step.bind_eq, Step.andThen, Step.state, Context.ensureNotCancelled, h, if_true,
    Step.ofExcept_error, List.nil_append]

theorem ensureNotCancelled_bind {s : Frame ρ} (h : s.context.cancelled = false) (key : String)
    (next : Unit → Step (Frame ρ) α) : (ensureNotCancelled key >>= next) s = next () s := by
  have hpass : ensureNotCancelled key s = ⟨.ok (), s, []⟩ := by
    show Ending.mk _ _ _ = _
    simp [Step.state, Context.ensureNotCancelled, h, Step.ofExcept_ok]
  rw [Step.bind_of_ok (by rw [hpass]), hpass]
  rfl

theorem result_resolveOptional {π : Type} (key : String) (p : Option π)
    (f : π → Context → Resolution α) (s : Frame ρ) :
    (resolveOptional key p f s).result = (p.mapM fun q => f q s.context).mapError reported := by
  cases p with
  | none => rfl
  | some q =>
    have hresolve := result_resolve key (f q) s
    have hmap : (some q).mapM (fun q => f q s.context) = some <$> f q s.context := rfl
    rw [resolveOptional, hmap]
    cases hq : f q s.context with
    | ok a =>
      rw [hq] at hresolve
      rw [Step.bind_of_ok hresolve]
      rfl
    | error stop =>
      rw [hq] at hresolve
      rw [Step.bind_of_error hresolve]
      rfl

theorem Reads.bind_eq {β : Type} {m : Step (Frame ρ) α} (h : Reads m) {s : Frame ρ} {a : α}
    (hr : (m s).result = .ok a) (next : α → Step (Frame ρ) β) :
    (m >>= next) s =
      ⟨(next a s).result, (next a s).state, (m s).journal ++ (next a s).journal⟩ := by
  rw [Step.bind_of_ok hr, h s]

theorem Reads.bind_of_ok {β : Type} {m : Step (Frame ρ) α} (h : Reads m) {s : Frame ρ} {a : α}
    (hr : (m s).result = .ok a) (next : α → Step (Frame ρ) β) :
    ((m >>= next) s).result = (next a s).result ∧ ((m >>= next) s).state = (next a s).state := by
  rw [h.bind_eq hr]
  exact ⟨rfl, rfl⟩

/-- What follows a step that only reads starts from the same state, if it starts at all. -/
theorem Reads.bind_cases {β : Type} {m : Step (Frame ρ) α} (h : Reads m)
    (next : α → Step (Frame ρ) β) (s : Frame ρ) :
    (∃ stop, ((m >>= next) s).result = .error stop ∧ ((m >>= next) s).state = s) ∨
      ∃ a, (m s).result = .ok a ∧ ((m >>= next) s).result = (next a s).result ∧
        ((m >>= next) s).state = (next a s).state := by
  cases hr : (m s).result with
  | ok a =>
    right
    exact ⟨a, rfl, h.bind_of_ok hr next⟩
  | error stop =>
    left
    rw [Step.bind_of_error hr]
    exact ⟨stop, rfl, h s⟩

theorem resolve_bind_of_ok {β : Type} {p : Context → Resolution α} {s : Frame ρ} {a : α}
    (h : p s.context = .ok a) (key : String) (next : α → Step (Frame ρ) β) :
    ((resolve key p >>= next) s).result = (next a s).result ∧
      ((resolve key p >>= next) s).state = (next a s).state := by
  have hresult := result_resolve key p s
  rw [h] at hresult
  exact (reads_resolve key p).bind_of_ok hresult next

theorem resolveOptional_bind_of_ok {β π : Type} {p : Option π} {f : π → Context → Resolution α}
    {s : Frame ρ} {a : Option α} (h : (p.mapM fun q => f q s.context) = .ok a) (key : String)
    (next : Option α → Step (Frame ρ) β) :
    ((resolveOptional key p f >>= next) s).result = (next a s).result ∧
      ((resolveOptional key p f >>= next) s).state = (next a s).state := by
  have hresult := result_resolveOptional key p f s
  rw [h] at hresult
  exact (reads_resolveOptional key p f).bind_of_ok hresult next

end Frame

end ActionFlow
