import ActionFlow.Proofs.Calm
import ActionFlow.Proofs.Places

/-!
# How an iteration ends

An iteration goes from round to round until the range is at its end, the condition of the loop does
not hold or gives no answer, the run is cancelled, or the actions inside let a fault escape.  The
rounds that it passes and the round that it stops at decide what its record tells: the rounds that
ran, how many of them were completed, which came last, and whether one is still open.
-/
namespace ActionFlow

namespace Loop

open ActionFlow.Frame

/-! ### One round -/

section Round

variable (key : String) (body : Step (Frame (Entries Record)) Unit) (s : Frame Record)
  (i : IterationItem)

/-- The frame in which the actions inside run in the round for `i`. -/
def opened : Frame Record :=
  let record := s.own.updateProgress fun p => { p with current := some i }
  ⟨record, s.context.publish key record.snapshot⟩

/-- How the actions inside end in the round for `i`. -/
def inside : Ending (Frame (Entries Record)) Unit := body ⟨[], (opened key s i).context⟩

/-- What the record keeps of the round. -/
def iteration : Iteration Record := ⟨i.index, (inside key body s i).state.own⟩

/-- The frame after a round, before it counts as completed. -/
def ran : Frame Record :=
  ⟨(opened key s i).own.addIteration (iteration key body s i), (inside key body s i).state.context⟩

def completed : Frame Record :=
  let record := (ran key body s i).own.updateProgress fun p =>
    { p with completed := p.completed + 1, last := some i }
  ⟨record, (ran key body s i).context.publish key record.snapshot⟩

end Round

variable {key : String} {loop : Loop} {body : Step (Frame (Entries Record)) Unit}
  {items : List Value} {s : Frame Record} {i : IterationItem}

theorem once_of_cancelled (h : s.context.cancelled = true) (key : String) (items : List Value)
    (body : Step (Frame (Entries Record)) Unit) (i : IterationItem) :
    once key items body i s = ⟨.error (.error (.actionCancelled key)), s, []⟩ := by
  have hstop : (ensureNotCancelled key : Step (Frame Record) Unit) s =
      ⟨.error (.error (.actionCancelled key)), s, []⟩ := ensureNotCancelled_of_cancelled h key
  rw [once, Step.bind_of_error (congrArg Ending.result hstop), hstop]

theorem once_of_live (h : s.context.cancelled = false) :
    once key items body i s = (do
      file (.iteration key items i.index) [] body fun records =>
        Record.addIteration ⟨i.index, records⟩
      modify (Record.updateProgress fun p =>
        { p with completed := p.completed + 1, last := some i })
      publish key) (opened key s i) := by
  rw [once_eq, ensureNotCancelled_bind h, modify_bind, publish_bind]
  rfl

theorem file_of_inside (items : List Value) (h : (inside key body s i).Settled) :
    file (.iteration key items i.index) [] body
        (fun records => Record.addIteration ⟨i.index, records⟩) (opened key s i) =
      ⟨(inside key body s i).result, ran key body s i,
        (inside key body s i).journal.map (Moment.within (.iteration key items i.index))⟩ :=
  file_of_settled _ _ h

theorem once_of_ok (items : List Value) (h : s.context.cancelled = false)
    (hr : (inside key body s i).result = .ok ()) :
    (once key items body i s).result = .ok () ∧
      (once key items body i s).state = completed key body s i := by
  have hfile := file_of_inside items (Ending.settled_of_ok hr)
  rw [once_of_live h, Step.bind_of_ok (by rw [hfile, hr]), hfile]
  exact ⟨rfl, rfl⟩

theorem once_of_fault (items : List Value) (h : s.context.cancelled = false) {fault : Fault}
    (hr : (inside key body s i).result = .error (.error fault)) :
    (once key items body i s).result = .error (.error fault) ∧
      (once key items body i s).state = ran key body s i := by
  have hfile := file_of_inside items (Ending.settled_of_fault hr)
  rw [once_of_live h, Step.bind_of_error (by rw [hfile, hr]), hfile]
  exact ⟨rfl, rfl⟩

theorem once_of_panic (items : List Value) (h : s.context.cancelled = false) {panic : Panic}
    (hr : (inside key body s i).result = .error (.panic panic)) :
    (once key items body i s).result = .error (.panic panic) ∧
      (once key items body i s).state =
        ⟨(opened key s i).own, (inside key body s i).state.context⟩ := by
  have hfile : file (.iteration key items i.index) [] body
      (fun records => Record.addIteration ⟨i.index, records⟩) (opened key s i) = _ :=
    file_of_panic _ _ hr
  rw [once_of_live h, Step.bind_of_error (by rw [hfile]), hfile]
  exact ⟨rfl, rfl⟩

/-! ### From round to round -/

/-- What the condition of the loop says; without one it always goes on. -/
def decision (loop : Loop) (c : Context) : Resolution Bool :=
  match loop.doWhile with
  | none => .ok true
  | some condition => condition.resolve c

theorem decision_of_some {condition : Condition} (h : loop.doWhile = some condition) (c : Context) :
    loop.decision c = condition.resolve c := by
  rw [decision, h]

theorem exists_condition {c : Context} (h : loop.decision c = .ok false) :
    ∃ condition, loop.doWhile = some condition := by
  unfold decision at h
  cases hw : loop.doWhile with
  | none =>
    rw [hw] at h
    cases h
  | some condition => exact ⟨condition, rfl⟩

theorem result_continues (key : String) (loop : Loop) (s : Frame Record) :
    (continues key loop s).result = (loop.decision s.context).mapError reported := by
  unfold continues decision
  cases loop.doWhile with
  | none => rfl
  | some condition => exact result_resolve key _ s

section Rounds

variable (key : String) (loop : Loop) (body : Step (Frame (Entries Record)) Unit)

/-- The frame after the rounds for the items, each of them completed. -/
def after (s : Frame Record) (done : List IterationItem) : Frame Record :=
  done.foldl (completed key body) s

def iterations : Frame Record → List IterationItem → List (Iteration Record)
  | _, [] => []
  | s, i :: rest => iteration key body s i :: iterations (completed key body s i) rest

/-- The loop completes the rounds for the items and goes on after each of them. -/
inductive Passes : Frame Record → List IterationItem → Prop
  | nil (s : Frame Record) : Passes s []
  | cons {s : Frame Record} {i : IterationItem} {rest : List IterationItem}
      (live : s.context.cancelled = false) (ended : (inside key body s i).result = .ok ())
      (goesOn : loop.decision (completed key body s i).context = .ok true)
      (others : Passes (completed key body s i) rest) : Passes s (i :: rest)

/-- How a loop stops at the round for `i`: its result and the frame that it leaves. -/
inductive Exit (s : Frame Record) (i : IterationItem) :
    Except (Stop Fault) Unit → Frame Record → Prop
  | cancelled (cancelled : s.context.cancelled = true) :
      Exit s i (.error (.error (.actionCancelled key))) s
  | escaped {fault : Fault} (live : s.context.cancelled = false)
      (ended : (inside key body s i).result = .error (.error fault)) :
      Exit s i (.error (.error fault)) (ran key body s i)
  | panicked {panic : Panic} (live : s.context.cancelled = false)
      (ended : (inside key body s i).result = .error (.panic panic)) :
      Exit s i (.error (.panic panic)) ⟨(opened key s i).own, (inside key body s i).state.context⟩
  | decided (live : s.context.cancelled = false) (ended : (inside key body s i).result = .ok ())
      (stops : loop.decision (completed key body s i).context = .ok false) :
      Exit s i (.ok ()) (completed key body s i)
  | undecided {stop : Stop ProviderError} (live : s.context.cancelled = false)
      (ended : (inside key body s i).result = .ok ())
      (stops : loop.decision (completed key body s i).context = .error stop) :
      Exit s i (.error (reported stop)) (completed key body s i)

end Rounds

@[simp] theorem after_nil (s : Frame Record) : after key body s [] = s := rfl

@[simp] theorem after_cons (s : Frame Record) (i : IterationItem) (rest : List IterationItem) :
    after key body s (i :: rest) = after key body (completed key body s i) rest := rfl

@[simp] theorem after_concat (s : Frame Record) (done : List IterationItem) (i : IterationItem) :
    after key body s (done ++ [i]) = completed key body (after key body s done) i := by
  simp [after]

theorem iterations_concat (s : Frame Record) (done : List IterationItem) (i : IterationItem) :
    iterations key body s (done ++ [i]) =
      iterations key body s done ++ [iteration key body (after key body s done) i] := by
  induction done generalizing s with
  | nil => rfl
  | cons j rest ih => simp [iterations, ih]

theorem index_iterations (s : Frame Record) (done : List IterationItem) :
    (iterations key body s done).map Iteration.index = done.map IterationItem.index := by
  induction done generalizing s with
  | nil => rfl
  | cons i rest ih => simp [iterations, iteration, ih]

theorem length_iterations (s : Frame Record) (done : List IterationItem) :
    (iterations key body s done).length = done.length := by
  simpa using congrArg List.length (@index_iterations key body s done)

theorem iterations_getElem? {done : List IterationItem} {n : Nat} (h : done[n]? = some i) :
    (iterations key body s done)[n]? =
      some (iteration key body (after key body s (done.take n)) i) := by
  induction done generalizing s n with
  | nil => simp at h
  | cons j rest ih =>
    cases n with
    | zero =>
      obtain rfl : j = i := by simpa using h
      rfl
    | succ n => exact ih (by simpa using h)

theorem Passes.take {done : List IterationItem} (h : Passes key loop body s done) (n : Nat) :
    Passes key loop body s (done.take n) := by
  induction h generalizing n with
  | nil s =>
    rw [List.take_nil]
    exact .nil s
  | cons live ended goesOn _ ih =>
    cases n with
    | zero => exact .nil _
    | succ n => exact .cons live ended goesOn (ih n)

/-- What a passed round is like, in the frame that the rounds before it leave. -/
theorem Passes.at {done : List IterationItem} (h : Passes key loop body s done) {n : Nat}
    (hi : done[n]? = some i) :
    (after key body s (done.take n)).context.cancelled = false ∧
      (inside key body (after key body s (done.take n)) i).result = .ok () ∧
      loop.decision (after key body s (done.take (n + 1))).context = .ok true := by
  induction h generalizing n with
  | nil s => simp at hi
  | @cons s j rest live ended goesOn _ ih =>
    cases n with
    | zero =>
      obtain rfl : j = i := by simpa using hi
      exact ⟨live, ended, goesOn⟩
    | succ n => exact ih (by simpa using hi)

/-- A round that the loop does not stop at is passed. -/
theorem visit_cons (key : String) (loop : Loop) (items : List Value)
    (body : Step (Frame (Entries Record)) Unit) (s : Frame Record) (i : IterationItem)
    (rest : List IterationItem) :
    (Passes key loop body s [i] ∧
        (visit key loop items body (i :: rest) s).result =
          (visit key loop items body rest (completed key body s i)).result ∧
        (visit key loop items body (i :: rest) s).state =
          (visit key loop items body rest (completed key body s i)).state) ∨
      Exit key loop body s i (visit key loop items body (i :: rest) s).result
        (visit key loop items body (i :: rest) s).state := by
  rw [visit]
  cases hc : s.context.cancelled with
  | true =>
    right
    have honce := once_of_cancelled hc key items body i
    rw [Step.bind_of_error (congrArg Ending.result honce), honce]
    exact .cancelled hc
  | false =>
    rcases hi : (inside key body s i).result with (fault | panic) | u
    · right
      obtain ⟨hresult, hstate⟩ := once_of_fault items hc hi
      rw [Step.bind_of_error hresult, hstate]
      exact .escaped hc hi
    · right
      obtain ⟨hresult, hstate⟩ := once_of_panic items hc hi
      rw [Step.bind_of_error hresult, hstate]
      exact .panicked hc hi
    · obtain ⟨hresult, hstate⟩ := once_of_ok items hc hi
      rw [Step.bind_of_ok hresult, hstate]
      have hcontinues := result_continues key loop (completed key body s i)
      have hreads := reads_continues key loop (completed key body s i)
      rcases hd : loop.decision (completed key body s i).context with stop | goesOn
      · right
        rw [hd] at hcontinues
        rw [Step.bind_of_error hcontinues, hreads]
        exact .undecided hc hi hd
      · rw [hd] at hcontinues
        rw [Step.bind_of_ok hcontinues, hreads]
        cases goesOn with
        | true =>
          left
          exact ⟨.cons hc hi hd (.nil _), rfl, rfl⟩
        | false =>
          right
          exact .decided hc hi hd

/-- The loop passes all rounds, or passes some and stops at the next. -/
theorem visit_cases (key : String) (loop : Loop) (items : List Value)
    (body : Step (Frame (Entries Record)) Unit) (s : Frame Record)
    (places : List IterationItem) :
    (Passes key loop body s places ∧ (visit key loop items body places s).result = .ok () ∧
        (visit key loop items body places s).state = after key body s places) ∨
      ∃ passed i rest, places = passed ++ i :: rest ∧ Passes key loop body s passed ∧
        Exit key loop body (after key body s passed) i
          (visit key loop items body places s).result
          (visit key loop items body places s).state := by
  induction places generalizing s with
  | nil =>
    left
    exact ⟨.nil s, rfl, rfl⟩
  | cons i rest ih =>
    rcases visit_cons key loop items body s i rest with ⟨hfirst, hresult, hstate⟩ | hexit
    · rw [hresult, hstate]
      cases hfirst with
      | cons live ended goesOn _ =>
        rcases ih (completed key body s i) with
          ⟨hpasses, hrest⟩ | ⟨passed, j, others, rfl, hp, hexit⟩
        · left
          exact ⟨.cons live ended goesOn hpasses, hrest⟩
        · right
          exact ⟨i :: passed, j, others, rfl, .cons live ended goesOn hp, hexit⟩
    · right
      exact ⟨[], i, rest, rfl, .nil s, hexit⟩

section Own

variable {r : Record} {p : Progress} {rounds : List (Iteration Record)}
  (h : s.own = { r with detail := .iterate p rounds })

include h

theorem own_opened (key : String) (i : IterationItem) :
    (opened key s i).own = { r with detail := .iterate { p with current := some i } rounds } := by
  simp [opened, h, Record.updateProgress, Record.updateIteration]

theorem own_ran (key : String) (body : Step (Frame (Entries Record)) Unit) (i : IterationItem) :
    (ran key body s i).own =
      { r with
        detail := .iterate { p with current := some i } (rounds ++ [iteration key body s i]) } := by
  simp [ran, own_opened h, Record.addIteration, Record.updateIteration]

theorem own_completed (key : String) (body : Step (Frame (Entries Record)) Unit)
    (i : IterationItem) :
    (completed key body s i).own =
      { r with
        detail := .iterate
          { p with completed := p.completed + 1, last := some i, current := some i }
          (rounds ++ [iteration key body s i]) } := by
  simp [completed, own_ran h, Record.updateProgress, Record.updateIteration]

end Own

/-- The record after rounds that were all completed. -/
theorem own_after {r : Record} {p : Progress} {rounds : List (Iteration Record)}
    (h : s.own = { r with detail := .iterate p rounds }) (key : String)
    (body : Step (Frame (Entries Record)) Unit) (done : List IterationItem) :
    (after key body s done).own =
      { r with
        detail := .iterate
          { p with
            completed := p.completed + done.length
            last := done.getLast?.or p.last
            current := done.getLast?.or p.current }
          (rounds ++ iterations key body s done) } := by
  induction done generalizing s p rounds with
  | nil => simp [h, iterations]
  | cons i rest ih =>
    rw [after_cons, ih (own_completed h key body i)]
    simp [iterations, List.getLast?_cons, Nat.add_comm, Nat.add_left_comm]

end Loop

end ActionFlow
