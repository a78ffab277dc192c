import ActionFlow.Proofs.Places
import ActionFlow.Proofs.TurnMembers

/-!
# What an action leaves in turns

`KindWays` says what has to be shown of the logic of an action, kind by kind, for a condition on
its fault, on the turns so far and on the detail of the record.  `turns_left` carries the condition
through the whole handling of the action, whatever contexts its turns find, and says in which of
three ways the handling ended.
-/
namespace ActionFlow

/-! ### Turns of one action -/

/-- The turn publishes nothing, and what happens in it happens for the action with the key. -/
structure Turn.Alone (key : String) (t : Turn) : Prop extends Turn.Quiet t where
  path : ∀ m ∈ t.journal, m.path = [.action key]

theorem Turn.Idle.alone {t : Turn} (h : t.Idle) (key : String) : t.Alone key := by
  refine ⟨h.quiet, fun m hm => ?_⟩
  rw [h.journal] at hm
  cases hm

/-! ### Steps of one action -/

def Step.Alone {ρ α : Type} (key : String) (m : Step (Frame ρ) α) : Prop :=
  ∀ s, Turn.Alone key ⟨s.context, (m s).journal, (m s).state.context⟩

namespace Turns

open ActionFlow.Frame

variable {ρ τ α β : Type} {key : String}

theorem alone_resolve (key : String) (p : Context → Resolution α) :
    (resolve key p : Step (Frame ρ) α).Alone key := by
  refine fun s => ⟨⟨(quiet_resolve key p s).2, rfl⟩, fun m hm => ?_⟩
  rw [List.mem_singleton.mp hm]

theorem alone_mark (key : String) (event : Event) :
    (mark key event : Step (Frame ρ) Unit).Alone key := by
  refine fun s => ⟨⟨(quiet_mark key event s).2, rfl⟩, fun m hm => ?_⟩
  rw [List.mem_singleton.mp hm]

theorem alone_write (key property : String) (path : Option Path) (value : Value) :
    (Logic.write property path value).Alone key := by
  intro s
  obtain ⟨hafter, hjournal⟩ := quiet_write property path value s
  refine ⟨⟨hjournal, hafter⟩, fun m hm => ?_⟩
  have hnone : (Logic.write property path value s).journal = [] := by
    unfold Logic.write
    split <;> rfl
  rw [hnone] at hm
  cases hm

/-! ### Conditions on the turns so far -/

/-- Where `pre` holds of the turns so far and of what is owned, all ways of the part end with `post`
of all the turns, of their result and of what is owned then. -/
def Carries (pre : List Turn → ρ → Prop) (p : Turns ρ α)
    (post : List Turn → Except Fault α → ρ → Prop) : Prop :=
  ∀ past own turns result last, pre past own → p own turns result last →
    post (past ++ turns) result last

/-- The condition does not mind turns that the action with the key takes by itself, nor that it
stops. -/
structure Stable (key : String) (I : Option Fault → List Turn → ρ → Prop) : Prop where
  alone : ∀ {x past own t}, t.Alone key → I x past own → I x (past ++ [t]) own
  stop : ∀ {past own} (x : Option Fault), I none past own → I x past own

/-- The part leaves what it owns as it is, and its turns are those of the action with the key by
itself. -/
def Reads (key : String) (p : Turns ρ α) : Prop :=
  ∀ own turns result last, p own turns result last → last = own ∧ ∀ t ∈ turns, t.Alone key

variable {I : Option Fault → List Turn → ρ → Prop}

theorem Stable.append (h : Stable key I) {x : Option Fault} {past turns : List Turn} {own : ρ}
    (hturns : ∀ t ∈ turns, t.Alone key) (hi : I x past own) : I x (past ++ turns) own := by
  induction turns generalizing past with
  | nil =>
    rw [List.append_nil]
    exact hi
  | cons t rest ih =>
    obtain ⟨ht, hrest⟩ := List.forall_mem_cons.mp hturns
    rw [List.append_cons]
    exact ih hrest (h.alone ht hi)

section Rules

variable {pre : List Turn → ρ → Prop} {p : Turns ρ α}
  {mid : List Turn → Except Fault α → ρ → Prop}

theorem Carries.weaken {pre' : List Turn → ρ → Prop}
    {post : List Turn → Except Fault α → ρ → Prop} (h : Carries pre p mid)
    (hpre : ∀ past own, pre' past own → pre past own)
    (hpost : ∀ past result own, mid past result own → post past result own) :
    Carries pre' p post := by
  intro past own turns result last hown hway
  exact hpost _ _ _ (h past own turns result last (hpre past own hown) hway)

theorem Carries.of_okOnly {q : List Turn → α → ρ → Prop}
    {post : List Turn → Except Fault α → ρ → Prop} (h : Carries pre p fun past => okOnly (q past))
    (hq : ∀ past a own, q past a own → post past (.ok a) own) : Carries pre p post := by
  intro past own turns result last hown hway
  have hpost := h past own turns result last hown hway
  cases result with
  | ok a => exact hq _ a last hpost
  | error fault => exact hpost.elim

theorem carries_pure {a : α} {post : List Turn → Except Fault α → ρ → Prop}
    (h : ∀ past own, pre past own → post past (.ok a) own) : Carries pre (pure a) post := by
  rintro past own turns result last hown ⟨rfl, rfl, rfl⟩
  rw [List.append_nil]
  exact h past last hown

theorem carries_bind {next : α → Turns ρ β} {post : List Turn → Except Fault β → ρ → Prop}
    (hp : Carries pre p mid) (hnext : ∀ a, Carries (fun past => mid past (.ok a)) (next a) post)
    (hfault : ∀ past fault own, mid past (.error fault) own → post past (.error fault) own) :
    Carries pre (p >>= next) post := by
  intro past own turns result last hown hway
  rcases hway with ⟨fault, hfirst, rfl⟩ | ⟨a, middle, first, second, hfirst, hsecond, rfl⟩
  · exact hfault _ fault last (hp past own turns _ last hown hfirst)
  · rw [← List.append_assoc]
    exact hnext a _ middle second result last (hp past own first _ middle hown hfirst) hsecond

theorem carries_attempt (h : Carries pre p mid) :
    Carries pre p.attempt fun past => okOnly (mid past) := by
  rintro past own turns result last hown ⟨caught, hp, rfl⟩
  exact h past own turns caught last hown hp

theorem carries_one {m : Step (Frame ρ) α} {post : List Turn → Except Fault α → ρ → Prop}
    (h : ∀ past own c result, pre past own → (m ⟨own, c⟩).result = result.mapError .error →
      post (past ++ [⟨c, (m ⟨own, c⟩).journal, (m ⟨own, c⟩).state.context⟩]) result
        (m ⟨own, c⟩).state.own) : Carries pre (one m) post := by
  rintro past own turns result last hown ⟨c, hresult, rfl, rfl⟩
  exact h past own c result hown hresult

theorem carries_given {P : Prop} {post : List Turn → Except Fault α → ρ → Prop}
    (h : P → Carries pre p post) : Carries (fun past own => P ∧ pre past own) p post :=
  fun past own turns result last hown => h hown.1 past own turns result last hown.2

theorem carries_modify {f : ρ → ρ} {post : List Turn → ρ → Prop}
    (h : ∀ past own t, t.Idle → pre past own → post (past ++ [t]) (f own)) :
    Carries pre (one (modify f)) fun past => okOnly fun _ => post past := by
  refine carries_one fun past own c result hown hresult => ?_
  cases result with
  | ok u => exact h past own _ (idle_modify f ⟨own, c⟩) hown
  | error fault => cases hresult

theorem carries_publish {key : String} {pre : List Turn → Record → Prop}
    {post : List Turn → Record → Prop}
    (h : ∀ past own c, pre past own → post (past ++ [.showing key own c]) own) :
    Carries pre (one (publish key)) fun past => okOnly fun _ => post past := by
  refine carries_one fun past own c result hown hresult => ?_
  cases result with
  | ok u => exact h past own c hown
  | error fault => cases hresult

theorem carries_reads (stable : Stable key I) (h : p.Reads key) :
    Carries (I none) p fun past result => I (fault? result) past := by
  intro past own turns result last hown hway
  obtain ⟨rfl, hturns⟩ := h own turns result last hway
  exact stable.stop _ (stable.append hturns hown)

end Rules

theorem reads_one {m : Step (Frame ρ) α} (hm : Frame.Reads m) (h : m.Alone key) :
    (one m).Reads key := by
  rintro own turns result last ⟨c, -, rfl, rfl⟩
  refine ⟨by rw [hm], List.forall_mem_singleton.mpr (h ⟨own, c⟩)⟩

theorem reads_idle {m : Step (Frame ρ) α} (hm : Frame.Reads m) (h : m.Idle) : (one m).Reads key :=
  reads_one hm fun s => (h s).alone key

theorem reads_pure (a : α) : (pure a : Turns ρ α).Reads key := by
  rintro own turns result last ⟨rfl, -, rfl⟩
  exact ⟨rfl, nofun⟩

theorem reads_bind {p : Turns ρ α} {next : α → Turns ρ β} (hp : p.Reads key)
    (hnext : ∀ a, (next a).Reads key) : (p >>= next).Reads key := by
  intro own turns result last hway
  rcases hway with ⟨fault, hfirst, -⟩ | ⟨a, middle, first, second, hfirst, hsecond, rfl⟩
  · exact hp own turns _ last hfirst
  · obtain ⟨rfl, hturns⟩ := hp own first _ middle hfirst
    obtain ⟨rfl, hothers⟩ := hnext a middle second result last hsecond
    exact ⟨rfl, List.forall_mem_append.mpr ⟨hturns, hothers⟩⟩

theorem reads_resolve (key : String) (p : Context → Resolution α) :
    (one (resolve key p) : Turns ρ α).Reads key :=
  reads_one (Frame.reads_resolve key p) (alone_resolve key p)

theorem reads_resolveOptional {π : Type} (key : String) (p : Option π)
    (f : π → Context → Resolution α) :
    (resolveOptional key p f : Turns ρ (Option α)).Reads key := by
  cases p with
  | none => exact reads_pure none
  | some q => exact reads_bind (reads_resolve key (f q)) fun a => reads_pure (some a)

theorem reads_mark (key : String) (event : Event) :
    (one (mark key event) : Turns ρ Unit).Reads key :=
  reads_one (fun _ => rfl) (alone_mark key event)

theorem reads_ensureNotCancelled (key : String) :
    (one (ensureNotCancelled key) : Turns ρ Unit).Reads key :=
  reads_idle (Frame.reads_ensureNotCancelled key) (idle_ensureNotCancelled key)

theorem reads_fail (fault : Fault) : (one (.fail fault) : Turns ρ α).Reads key :=
  reads_idle (Frame.reads_fail fault) (idle_fail fault)

theorem reads_write (key property : String) (path : Option Path) (value : Value) :
    (one (Logic.write property path value)).Reads key := by
  rintro own turns result last ⟨c, -, rfl, rfl⟩
  refine ⟨?_, List.forall_mem_singleton.mpr (alone_write key property path value ⟨own, c⟩)⟩
  unfold Logic.write
  split <;> rfl

theorem reads_check (key : String) (conditions : List ErrorCondition) :
    (check key conditions).Reads key := by
  induction conditions with
  | nil => exact reads_pure ()
  | cons e rest ih =>
    refine reads_bind (reads_resolve key _) fun holds => ?_
    cases holds with
    | true => exact reads_bind (reads_resolve key _) fun fault => reads_fail fault
    | false => exact ih

theorem reads_wanted (head : Head) : (wanted head).Reads head.key := by
  unfold wanted
  cases head.runCondition with
  | none => exact reads_pure true
  | some c => exact reads_resolve head.key _

theorem reads_continues (key : String) (loop : Loop) : (continues key loop).Reads key := by
  unfold continues
  cases loop.doWhile with
  | none => exact reads_pure true
  | some c => exact reads_resolve key _

end Turns

namespace Action

open ActionFlow.Frame Turns

variable {key : String} {K : Option Fault → List Turn → Detail Record → Prop}

/-! ### Conditions on the logic -/

/-- A condition on the way of an iteration: it survives what the iteration says of its progress, and
a round that the iteration shows itself before. -/
structure RoundWays (key : String) (K : Option Fault → List Turn → Detail Record → Prop)
    (loop : Loop) (actions : List Action) : Prop where
  progress : ∀ {x past p iterations} (q : Progress), K x past (.iterate p iterations) →
    K x past (.iterate q iterations)
  publish : ∀ {past p iterations} (r : Record) (c : Context), K none past (.iterate p iterations) →
    K none (past ++ [.showing key r c]) (.iterate p iterations)
  round : ∀ {items i past p iterations r inner result records} (c : Context),
    (∃ d, loop.list.resolveAs Conversion.list d = .ok items) →
    items[i.index]? = some i.item → r.detail = .iterate p iterations → p.current = some i →
    K none past (.iterate p iterations) → sequenceTurns actions [] inner result records →
    K (fault? result)
      (past ++ .showing key r c :: inner.map (Turn.within (.iteration key items i.index)))
      (.iterate p (iterations ++ [⟨i.index, records⟩]))

/-- A condition on the logic of a kind: it survives the children of a group, each round of an
iteration, what an assignment puts down, and a call. -/
def KindWays (key : String) (K : Option Fault → List Turn → Detail Record → Prop) :
    Kind Action → Prop
  | .group parallel actions => ∀ past inner result records, K none past (.group parallel []) →
    childrenTurns parallel actions [] inner result records →
      K (fault? result) (past ++ inner.map (Turn.within (.children key))) (.group parallel records)
  | .iterate loop actions => RoundWays key K loop actions
  | .simple (.raiseError _) => True
  | .simple (.setVariable _ _ _) => ∀ write past, K none past (.setVariable {}) →
    K none past (.setVariable write)
  | .simple (.external handler) => ∀ x s past, K none past (.external none) →
    K x (past ++ [⟨s.context, (Logic.call key handler s).journal,
        (Logic.call key handler s).state.context⟩])
      (.external (handler.handle s.context).output)

/-! ### Records on the way -/

/-- The record of `a` on the way, after the given turns and with the fault `x` or none. -/
structure AtWork (a : Action) (K : Option Fault → List Turn → Detail Record → Prop)
    (x : Option Fault) (past : List Turn) (r : Record) : Prop where
  key : r.key = a.key
  unfinished : r.Open
  startedAt : r.startedAt.isSome = true
  fault : x = none → r.fault = none
  errorActions : r.errorActions = []
  kept : K x past r.detail

/-- The record of `a` once the fault `x` or none is put down, after the given turns. -/
structure ShutAfter (a : Action) (K : Option Fault → List Turn → Detail Record → Prop)
    (x : Option Fault) (past : List Turn) (r : Record) : Prop extends Record.Shut x r where
  key : r.key = a.key
  kept : K x past r.detail

/-- What an attempt leaves. -/
def AttemptLeft (a : Action) (K : Option Fault → List Turn → Detail Record → Prop)
    (past : List Turn) : Except Fault Unit → Record → Prop
  | .ok (), r => a.ShutAfter K none past r
  | .error fault, r => a.AtWork K (some fault) past r

/-- The detail has nothing in it yet. -/
def Untouched (kind : Kind Action) (K : Option Fault → List Turn → Detail Record → Prop)
    (x : Option Fault) (past : List Turn) (detail : Detail Record) : Prop :=
  K x past detail ∧ detail = kind.detail

def Touring (K : Option Fault → List Turn → Detail Record → Prop) (x : Option Fault)
    (past : List Turn) (detail : Detail Record) : Prop :=
  K x past detail ∧ ∃ p iterations, detail = .iterate p iterations

theorem untouched_stable (stable : Stable key K) (kind : Kind Action) :
    Stable key (Untouched kind K) where
  alone ht h := ⟨stable.alone ht h.1, h.2⟩
  stop x h := ⟨stable.stop x h.1, h.2⟩

theorem touring_stable (stable : Stable key K) : Stable key (Touring K) where
  alone ht h := ⟨stable.alone ht h.1, h.2⟩
  stop x h := ⟨stable.stop x h.1, h.2⟩

namespace AtWork

variable {a : Action} {x : Option Fault} {past : List Turn} {r : Record}

theorem stable (h : Stable key K) : Stable key (a.AtWork K) where
  alone ht hr := { hr with kept := h.alone ht hr.kept }
  stop x hr := { hr with fault := fun _ => hr.fault rfl, kept := h.stop x hr.kept }

theorem mono {K' : Option Fault → List Turn → Detail Record → Prop} (hr : a.AtWork K x past r)
    (h : K x past r.detail → K' x past r.detail) : a.AtWork K' x past r :=
  { hr with kept := h hr.kept }

theorem with_detail {K' : Option Fault → List Turn → Detail Record → Prop} {y : Option Fault}
    {later : List Turn} {detail : Detail Record} (hr : a.AtWork K none past r)
    (h : K' y later detail) : a.AtWork K' y later { r with detail := detail } where
  key := hr.key
  unfinished := hr.unfinished
  startedAt := hr.startedAt
  fault _ := hr.fault rfl
  errorActions := hr.errorActions
  kept := h

/-- An open record is completed when a fault closes it. -/
theorem lost {fault : Fault} (hr : a.AtWork K (some fault) past r) (now : String) :
    a.ShutAfter K (some fault) past (r.lost now fault) := by
  rw [Record.lost_of_unfinished hr.unfinished]
  exact ⟨⟨rfl, hr.startedAt, rfl, rfl, rfl, hr.errorActions, nofun⟩, hr.key, hr.kept⟩

end AtWork

/-! ### The parts of a handling -/

section Handling

variable {a : Action} (stable : Stable a.key K)

theorem ShutAfter.append {x : Option Fault} {past turns : List Turn} {r : Record}
    (stable : Stable a.key K) (hturns : ∀ t ∈ turns, t.Idle) (h : a.ShutAfter K x past r) :
    a.ShutAfter K x (past ++ turns) r :=
  { h with kept := stable.append (fun t ht => (hturns t ht).alone a.key) h.kept }

theorem carries_start (stable : Stable a.key K) :
    Carries (fun past r => r = a.freshRecord ∧ K none past a.kind.detail) (one (move .started))
      fun past result => a.AtWork (Untouched a.kind K) (fault? result) past := by
  refine carries_one fun past own c result hown hresult => ?_
  obtain ⟨rfl, hk⟩ := hown
  cases result with
  | error fault => cases hresult
  | ok u =>
    have hidle := idle_move .started ⟨a.freshRecord, c⟩
    exact ⟨rfl, rfl, rfl, fun _ => rfl, rfl, stable.alone (hidle.alone a.key) hk, rfl⟩

include stable

theorem carries_move {target : Stage} (ht : target.isTerminal = false) :
    Carries (a.AtWork K none) (one (move target))
      fun past result => a.AtWork K (fault? result) past := by
  refine carries_one fun past own c result hown hresult => ?_
  have hidle : Turn.Idle ⟨c, _, _⟩ := idle_move target ⟨own, c⟩
  have hlater := (AtWork.stable stable).alone (hidle.alone a.key) hown
  cases hcan : own.stage.canMove target with
  | false =>
    rw [move_of_not_canMove hcan] at hresult hlater ⊢
    exact (AtWork.stable stable).stop _ hlater
  | true =>
    rw [move_of_canMove hcan] at hresult hlater ⊢
    cases result with
    | error fault => cases hresult
    | ok u =>
      cases target with
      | skipped | completed => cases ht
      | started => exact { hlater with unfinished := rfl, startedAt := rfl }
      | notStarted | beforeRunErrorChecking | running | afterRunErrorChecking =>
        exact { hlater with unfinished := rfl }

/-- The last move closes the record. -/
theorem carries_finish {target : Stage} (ht : target.isTerminal = true)
    (hskipped : target = .skipped → ∀ {past detail}, K none past detail → detail.Childless) :
    Carries (a.AtWork K none) (do one (move target); one succeed) (a.AttemptLeft K) := by
  have hmove : Carries (a.AtWork K none) (one (move target)) fun past result r =>
      (result = .ok () →
        ∀ t, Turn.Idle t → a.ShutAfter K none (past ++ [t]) { r with succeeded := true }) ∧
      ∀ fault, result = .error fault → a.AtWork K (some fault) past r := by
    refine carries_one fun past own c result hown hresult => ?_
    have hidle : Turn.Idle ⟨c, _, _⟩ := idle_move target ⟨own, c⟩
    have hlater := (AtWork.stable stable).alone (hidle.alone a.key) hown
    cases hcan : own.stage.canMove target with
    | false =>
      rw [move_of_not_canMove hcan] at hresult hlater ⊢
      refine ⟨fun hok => ?_, fun fault _ => (AtWork.stable stable).stop _ hlater⟩
      rw [hok] at hresult
      cases hresult
    | true =>
      rw [move_of_canMove hcan] at hresult hlater ⊢
      refine ⟨fun _ t hidle' => ?_, fun fault hfault => (by rw [hfault] at hresult; cases hresult)⟩
      have hkept := stable.alone (hidle'.alone a.key) hlater.kept
      cases target with
      | skipped =>
        exact ⟨⟨rfl, hlater.startedAt, rfl, hlater.fault rfl, rfl, hlater.errorActions,
          fun _ => ⟨rfl, hskipped rfl hkept⟩⟩, hlater.key, hkept⟩
      | completed =>
        exact ⟨⟨rfl, hlater.startedAt, rfl, hlater.fault rfl, rfl, hlater.errorActions,
          fun h => (by cases h)⟩, hlater.key, hkept⟩
      | notStarted | started | beforeRunErrorChecking | running | afterRunErrorChecking =>
        cases ht
  refine carries_bind hmove (fun _ => ?_) fun _ _ _ h => h.2 _ rfl
  refine carries_one fun past own c result hown hresult => ?_
  cases result with
  | ok u => exact hown.1 rfl _ (idle_modify _ ⟨own, c⟩)
  | error fault => cases hresult

theorem carries_attempted {logic : Turns Record Unit}
    (hlogic : Carries (a.AtWork (Untouched a.kind K) none) logic
      fun past result => a.AtWork K (fault? result) past) :
    Carries (fun past r => r = a.freshRecord ∧ K none past a.kind.detail) (attempted a.head logic)
      (a.AttemptLeft K) := by
  have untouched := untouched_stable stable a.kind
  have early : ∀ past fault r, a.AtWork (Untouched a.kind K) (some fault) past r →
      a.AttemptLeft K past (.error fault) r := fun _ _ _ h => h.mono And.left
  have late : ∀ past fault r, a.AtWork K (some fault) past r →
      a.AttemptLeft K past (.error fault) r := fun _ _ _ h => h
  refine carries_bind (carries_start stable) (fun _ => ?_) early
  refine carries_bind (carries_reads (AtWork.stable untouched) (reads_ensureNotCancelled _))
    (fun _ => ?_) early
  refine carries_bind (carries_reads (AtWork.stable untouched) (reads_wanted a.head))
    (fun wants => ?_) early
  cases wants with
  | false =>
    have hskip : Carries (a.AtWork (Untouched a.kind K) none)
        (do one (move .skipped); one succeed) (a.AttemptLeft (Untouched a.kind K)) :=
      carries_finish untouched rfl fun _ _ _ h => h.2 ▸ a.kind.childless_detail
    intro past own turns result last hown hway
    have hleft := hskip past own turns result last hown hway
    cases result with
    | ok u => exact { hleft with kept := hleft.kept.1 }
    | error fault => exact early _ _ _ hleft
  | true =>
    refine carries_bind (carries_move untouched rfl) (fun _ => ?_) early
    refine carries_bind (carries_reads (AtWork.stable untouched) (reads_check _ _))
      (fun _ => ?_) early
    refine carries_bind (carries_move untouched rfl) (fun _ => ?_) early
    refine carries_bind hlogic (fun _ => ?_) late
    refine carries_bind (carries_move stable rfl) (fun _ => ?_) late
    refine carries_bind (carries_reads (AtWork.stable stable) (reads_check _ _)) (fun _ => ?_) late
    exact carries_finish stable rfl nofun

end Handling

/-- How a handling of `a` ends, up to the last time that it publishes its record: the turns that it
took, its result and the record that it leaves. -/
inductive LeftInTurns (a : Action) (K : Option Fault → List Turn → Detail Record → Prop) :
    List Turn → Except Fault Unit → Record → Prop
  | passed {past : List Turn} {r : Record} (shut : a.ShutAfter K none past r) :
      LeftInTurns a K past (.ok ()) r
  | escaped {past : List Turn} {r : Record} {fault : Fault}
      (shut : a.ShutAfter K (some fault) past r) (none : a.errorActions = []) :
      LeftInTurns a K past (.error fault) r
  | recovered {past inner idle : List Turn} {r : Record} {fault : Fault}
      {result : Except Fault Unit} {records : Entries Record} (c : Context)
      (shut : a.ShutAfter K (some fault) past r) (some : a.errorActions ≠ [])
      (ran : sequenceTurns a.errorActions [] inner result records) (rest : ∀ t ∈ idle, t.Idle) :
      LeftInTurns a K
        (past ++ .showing a.key r c :: (inner.map (Turn.within (.recovery a.key)) ++ idle)) result
        { r with errorActions := records }

theorem LeftInTurns.key_eq {a : Action} {ran : List Turn} {result : Except Fault Unit} {r : Record}
    (h : a.LeftInTurns K ran result r) : r.key = a.key := by
  cases h with
  | passed shut => exact shut.key
  | escaped shut none => exact shut.key
  | recovered c shut some ran rest => exact shut.key

section Handling

variable {a : Action} (stable : Stable a.key K)

include stable

theorem carries_intercept (fault : Fault) :
    Carries (a.AtWork K (some fault))
      (intercept a.key
        (if a.errorActions.isEmpty then none else some (sequenceTurns a.errorActions)) fault)
      (a.LeftInTurns K) := by
  have hclose : Carries (a.AtWork K (some fault)) (one (close fault)) fun past =>
      okOnly fun _ => a.ShutAfter K (some fault) past := by
    refine carries_one fun past own c result hown hresult => ?_
    have hidle : Turn.Idle ⟨c, _, _⟩ := idle_close fault ⟨own, c⟩
    cases result with
    | error fault => cases hresult
    | ok u => exact ((AtWork.stable stable).alone (hidle.alone a.key) hown).lost c.clock
  refine carries_bind hclose (fun _ => ?_) fun _ _ _ h => h.elim
  intro past own turns result last hshut hway
  by_cases hnone : a.errorActions.isEmpty = true
  · rw [if_pos hnone] at hway
    obtain ⟨c, hresult, rfl, rfl⟩ := hway
    have hidle : Turn.Idle ⟨c, [], c⟩ := ⟨rfl, rfl⟩
    cases result with
    | ok u => cases hresult
    | error other =>
      cases hresult
      exact .escaped (hshut.append stable (List.forall_mem_singleton.mpr hidle))
        (List.isEmpty_iff.mp hnone)
  · rw [if_neg hnone] at hway
    rcases hway with ⟨_, ⟨c, hshown, -⟩, -⟩ |
      ⟨_, middle, first, second, ⟨c, -, rfl, rfl⟩, hfile, rfl⟩
    · cases hshown
    obtain ⟨inner, left, idle, hpart, rfl, rfl, hidle⟩ := file_way hfile
    exact .recovered c hshut (fun hn => hnone (List.isEmpty_iff.mpr hn)) hpart hidle

theorem handle_left {logic : Turns Record Unit}
    (hlogic : Carries (a.AtWork (Untouched a.kind K) none) logic
      fun past result => a.AtWork K (fault? result) past)
    (start : K none [] a.kind.detail) {turns : List Turn} {result : Except Fault Unit}
    {last : Record}
    (h : Turns.handle a.head logic
      (if a.errorActions.isEmpty then none else some (sequenceTurns a.errorActions))
      a.freshRecord turns result last) :
    ∃ ran c idle, turns = ran ++ .showing a.key last c :: idle ∧ (∀ t ∈ idle, t.Idle) ∧
      a.LeftInTurns K ran result last := by
  have hguarded : Carries (fun past r => r = a.freshRecord ∧ K none past a.kind.detail)
      (guarded a.head logic
        (if a.errorActions.isEmpty then none else some (sequenceTurns a.errorActions)))
      (a.LeftInTurns K) := by
    refine carries_bind (carries_attempt (carries_attempted stable hlogic)) (fun caught => ?_)
      fun _ _ _ h => h.elim
    cases caught with
    | ok u => exact carries_pure fun _ _ h => .passed h
    | error fault => exact carries_intercept stable fault
  rcases h with ⟨_, ⟨c, hmark, -⟩, -⟩ | ⟨_, middle, first, second, ⟨c, -, rfl, rfl⟩, h, rfl⟩
  · cases hmark
  obtain ⟨ran, d, idle, hran, rfl, hidle⟩ := thenPublish_way h
  have hentered : Turn.Alone a.key _ := alone_mark a.key .entered ⟨a.freshRecord, c⟩
  have hstart := stable.alone hentered start
  have hleft := hguarded _ _ _ _ _ ⟨rfl, hstart⟩ hran
  exact ⟨_, d, idle, (List.append_assoc _ _ _).symm, hidle, hleft⟩

end Handling

/-! ### The logic of a kind -/

section Kinds

variable {a : Action} (stable : Stable a.key K)

include stable

theorem carries_raise (p : FaultProvider) :
    Carries (a.AtWork K none) (raise a.key p) fun past result =>
      a.AtWork K (fault? result) past := by
  have working : Stable a.key (a.AtWork K) := AtWork.stable stable
  refine carries_bind (carries_reads working (reads_resolve a.key _)) (fun fault => ?_)
    fun _ _ _ h => h
  have hrecord : Carries (a.AtWork K none) (one (modify (Record.recordFault fault)))
      fun past => okOnly fun _ => a.AtWork K (some fault) past := by
    refine carries_modify fun past own t ht hown => ?_
    have hlater := working.stop (some fault) (working.alone (ht.alone a.key) hown)
    exact { hlater with fault := nofun }
  refine carries_bind hrecord (fun _ => ?_) fun _ _ _ h => h.elim
  refine carries_one fun past own c result hown hresult => ?_
  cases result with
  | ok u => cases hresult
  | error other =>
    cases hresult
    have hidle : Turn.Idle ⟨c, [], c⟩ := ⟨rfl, rfl⟩
    exact working.alone (hidle.alone a.key) hown

theorem carries_assign {property : Provider} {path : Option Provider} {value : Provider}
    (rule : KindWays a.key K (.simple (.setVariable property path value))) :
    Carries (a.AtWork (Untouched (.simple (.setVariable property path value)) K) none)
      (assign a.key property path value) fun past result => a.AtWork K (fault? result) past := by
  have untouched : Stable a.key
      (a.AtWork (Untouched (.simple (.setVariable property path value)) K)) :=
    AtWork.stable (untouched_stable stable _)
  have early : ∀ past fault r,
      a.AtWork (Untouched (.simple (.setVariable property path value)) K) (some fault) past r →
        a.AtWork K (some fault) past r := fun _ _ _ h => h.mono And.left
  refine carries_bind (carries_reads untouched (reads_resolve a.key _)) (fun name => ?_) early
  split
  · refine carries_bind (carries_reads untouched (reads_resolveOptional a.key _ _))
      (fun place => ?_) early
    refine carries_bind (carries_reads untouched (reads_resolve a.key _)) (fun given => ?_) early
    have hset : Carries
        (a.AtWork (Untouched (.simple (.setVariable property path value)) K) none)
        (one (modify (Record.setWrite ⟨some name, place, some given⟩)))
        fun past => okOnly fun _ => a.AtWork K none past := by
      refine carries_modify fun past own t ht hown => ?_
      have hlater := untouched.alone (ht.alone a.key) hown
      obtain ⟨hk, hdetail⟩ := hlater.kept
      have hwritten : own.setWrite ⟨some name, place, some given⟩ =
          { own with detail := .setVariable ⟨some name, place, some given⟩ } := by
        simp [Record.setWrite, hdetail, Kind.detail]
      rw [hdetail] at hk
      rw [hwritten]
      exact hlater.with_detail (rule _ _ hk)
    refine carries_bind hset (fun _ => ?_) fun _ _ _ h => h.elim
    exact carries_reads (AtWork.stable stable)
      (reads_write a.key name (place.map Path.parse) given)
  · have hfail := carries_reads (α := Unit) untouched
      (reads_fail (ProviderError.invalidPropertyName name).toFault)
    exact hfail.weaken (fun _ _ h => h) fun _ _ _ h => h.mono And.left

omit stable in
theorem carries_call {handler : Handler} (rule : KindWays a.key K (.simple (.external handler))) :
    Carries (a.AtWork (Untouched (.simple (.external handler)) K) none)
      (one (Logic.call a.key handler)) fun past result => a.AtWork K (fault? result) past := by
  refine carries_one fun past own c result hown _ => ?_
  obtain ⟨hk, hdetail⟩ := hown.kept
  have hcalled : (Logic.call a.key handler ⟨own, c⟩).state.own =
      { own with detail := .external (handler.handle c).output } := by
    show own.setOutput _ = _
    simp [Record.setOutput, hdetail, Kind.detail]
  have hplain : a.AtWork K none past own := hown.mono And.left
  rw [hdetail] at hk
  rw [hcalled]
  exact hplain.with_detail (rule _ ⟨own, c⟩ past hk)

omit stable in
theorem carries_group {parallel : Bool} {actions : List Action} (stable : Stable a.key K)
    (rule : KindWays a.key K (.group parallel actions)) :
    Carries (a.AtWork (Untouched (.group parallel actions) K) none)
      (file (.children a.key) [] (childrenTurns parallel actions) Record.setChildren)
      fun past result => a.AtWork K (fault? result) past := by
  intro past own turns result last hown hway
  obtain ⟨inner, records, idle, hran, rfl, rfl, hidle⟩ := file_way hway
  obtain ⟨hk, hdetail⟩ := hown.kept
  have hfiled : own.setChildren records = { own with detail := .group parallel records } := by
    simp [Record.setChildren, hdetail, Kind.detail]
  rw [hdetail] at hk
  have hround := rule past inner result records hk hran
  have hplain : a.AtWork K none past own := hown.mono And.left
  rw [hfiled, ← List.append_assoc]
  refine hplain.with_detail (stable.append ?_ hround)
  exact fun t ht => (hidle t ht).alone a.key

end Kinds

/-! ### Iterations -/

/-- The iteration is at the item `i`. -/
def Holding (a : Action) (K : Option Fault → List Turn → Detail Record → Prop) (i : IterationItem)
    (past : List Turn) (r : Record) : Prop :=
  a.AtWork K none past r ∧ ∃ p iterations, r.detail = .iterate p iterations ∧ p.current = some i

/-- The last turn is that in which the iteration has published that it is at the item `i`. -/
def Shown (a : Action) (K : Option Fault → List Turn → Detail Record → Prop) (i : IterationItem)
    (past : List Turn) (r : Record) : Prop :=
  ∃ before c, past = before ++ [.showing a.key r c] ∧ a.Holding K i before r

section Rounds

variable {a : Action} {loop : Loop} {actions : List Action} {items : List Value} {i : IterationItem}
  (stable : Stable a.key K) (rule : RoundWays a.key K loop actions)

include stable rule

theorem carries_updateProgress (f : Progress → Progress) :
    Carries (a.AtWork (Touring K) none) (one (modify (Record.updateProgress f)))
      fun past => okOnly fun _ r => a.AtWork (Touring K) none past r ∧
        ∃ p iterations, r.detail = .iterate (f p) iterations := by
  refine carries_modify fun past own t ht hown => ?_
  have hlater := (AtWork.stable (touring_stable stable)).alone (ht.alone a.key) hown
  obtain ⟨hk, p, iterations, hdetail⟩ := hlater.kept
  have hprogress : own.updateProgress f = { own with detail := .iterate (f p) iterations } := by
    simp [Record.updateProgress, Record.updateIteration, hdetail]
  rw [hprogress]
  refine ⟨hlater.with_detail ⟨rule.progress (f p) (hdetail ▸ hk), f p, iterations, rfl⟩, ?_⟩
  exact ⟨p, iterations, rfl⟩

theorem carries_progress (f : Progress → Progress) :
    Carries (a.AtWork (Touring K) none) (one (modify (Record.updateProgress f)))
      fun past result => a.AtWork (Touring K) (fault? result) past :=
  (carries_updateProgress stable rule f).of_okOnly fun _ _ _ h => h.1

/-- A round starts from the turn in which the iteration has shown itself. -/
theorem carries_round (hitems : ∃ d, loop.list.resolveAs Conversion.list d = .ok items)
    (hi : items[i.index]? = some i.item) :
    Carries (a.Shown K i)
      (file (.iteration a.key items i.index) [] (sequenceTurns actions)
        fun records => Record.addIteration ⟨i.index, records⟩)
      fun past result => a.AtWork (Touring K) (fault? result) past := by
  rintro past own turns result last ⟨before, c, rfl, hown, p, iterations, hdetail, hcurrent⟩ hway
  obtain ⟨inner, records, idle, hran, rfl, rfl, hidle⟩ := file_way hway
  have hadded : Record.addIteration ⟨i.index, records⟩ own =
      { own with detail := .iterate p (iterations ++ [⟨i.index, records⟩]) } := by
    simp [Record.addIteration, Record.updateIteration, hdetail]
  have hround := rule.round c hitems hi hdetail hcurrent (hdetail ▸ hown.kept) hran
  have hturns : before ++ [.showing a.key own c] ++
        (inner.map (Turn.within (.iteration a.key items i.index)) ++ idle) =
      before ++ .showing a.key own c ::
        inner.map (Turn.within (.iteration a.key items i.index)) ++ idle := by simp
  rw [hadded, hturns]
  refine hown.with_detail ⟨stable.append ?_ hround, p, _, rfl⟩
  exact fun t ht => (hidle t ht).alone a.key

theorem carries_once (hitems : ∃ d, loop.list.resolveAs Conversion.list d = .ok items)
    (hi : items[i.index]? = some i.item) :
    Carries (a.AtWork (Touring K) none) (once a.key items (sequenceTurns actions) i)
      fun past result => a.AtWork (Touring K) (fault? result) past := by
  have touring : Stable a.key (a.AtWork (Touring K)) := AtWork.stable (touring_stable stable)
  have hhold : Carries (a.AtWork (Touring K) none)
      (one (modify (Record.updateProgress fun p => { p with current := some i })))
      fun past => okOnly fun _ => a.Holding K i past := by
    refine (carries_updateProgress stable rule _).of_okOnly fun past _ r h => ?_
    obtain ⟨hr, p, iterations, hdetail⟩ := h
    exact ⟨hr.mono And.left, _, iterations, hdetail, rfl⟩
  have hshow : Carries (a.Holding K i) (one (publish a.key))
      fun past => okOnly fun _ => a.Shown K i past :=
    carries_publish fun past own c hown => ⟨past, c, rfl, hown⟩
  have hagain : Carries (a.AtWork (Touring K) none) (one (publish a.key))
      fun past => okOnly fun _ => a.AtWork (Touring K) none past := by
    refine carries_publish fun past own c hown => ?_
    obtain ⟨hk, p, iterations, hdetail⟩ := hown.kept
    have hshown := rule.publish own c (hdetail ▸ hk)
    exact { hown with kept := ⟨hdetail ▸ hshown, p, iterations, hdetail⟩ }
  refine carries_bind (carries_reads touring (reads_ensureNotCancelled a.key)) (fun _ => ?_)
    fun _ _ _ h => h
  refine carries_bind hhold (fun _ => ?_) fun _ _ _ h => h.elim
  refine carries_bind hshow (fun _ => ?_) fun _ _ _ h => h.elim
  refine carries_bind (carries_round stable rule hitems hi) (fun _ => ?_) fun _ _ _ h => h
  refine carries_bind (carries_progress stable rule _) (fun _ => ?_) fun _ _ _ h => h
  exact hagain.of_okOnly fun _ _ _ h => h

theorem carries_visit (hitems : ∃ d, loop.list.resolveAs Conversion.list d = .ok items)
    {places : List IterationItem} (hplaces : ∀ i ∈ places, items[i.index]? = some i.item) :
    Carries (a.AtWork (Touring K) none) (visit a.key loop items (sequenceTurns actions) places)
      fun past result => a.AtWork (Touring K) (fault? result) past := by
  induction places with
  | nil => exact carries_pure fun _ _ h => h
  | cons i rest ih =>
    obtain ⟨hi, hrest⟩ := List.forall_mem_cons.mp hplaces
    refine carries_bind (carries_once stable rule hitems hi) (fun _ => ?_) fun _ _ _ h => h
    refine carries_bind (carries_reads (AtWork.stable (touring_stable stable))
      (reads_continues a.key loop)) (fun goesOn => ?_) fun _ _ _ h => h
    cases goesOn with
    | true => exact ih hrest
    | false => exact carries_pure fun _ _ h => h

theorem carries_traverse (hitems : ∃ d, loop.list.resolveAs Conversion.list d = .ok items)
    (first last : Option Int) (reverse : Bool) :
    Carries (a.AtWork (Touring K) none)
      (Turns.traverse a.key loop (sequenceTurns actions) items first last reverse)
      fun past result => a.AtWork (Touring K) (fault? result) past := by
  unfold Turns.traverse
  split
  · exact carries_progress stable rule _
  · cases Range.resolve items.length first last reverse with
    | ok range =>
      refine carries_bind (carries_progress stable rule _) (fun _ => ?_) fun _ _ _ h => h
      refine carries_bind (carries_visit stable rule hitems fun _ => Loop.mem_visited)
        (fun _ => ?_) fun _ _ _ h => h
      exact carries_progress stable rule _
    | error index => exact carries_reads (AtWork.stable (touring_stable stable)) (reads_fail _)

theorem carries_iterate :
    Carries (a.AtWork (Untouched (.iterate loop actions) K) none)
      (iterate a.key loop (sequenceTurns actions))
      fun past result => a.AtWork (Touring K) (fault? result) past := by
  have touring : Stable a.key (a.AtWork (Touring K)) := AtWork.stable (touring_stable stable)
  -- What is resolved as the list has to be known in the rounds.
  have hlist : Carries (a.AtWork (Untouched (.iterate loop actions) K) none)
      (one (resolve a.key (loop.list.resolveAs Conversion.list))) fun past result r =>
        (∀ items, result = .ok items →
          ∃ d, loop.list.resolveAs Conversion.list d = .ok items) ∧
        a.AtWork (Touring K) (fault? result) past r := by
    intro past own turns result last hown hway
    have htouring : a.AtWork (Touring K) none past own :=
      hown.mono fun hk => ⟨hk.1, {}, [], hk.2⟩
    refine ⟨?_, carries_reads touring (reads_resolve a.key _) past own turns result last htouring
      hway⟩
    rintro items rfl
    obtain ⟨c, hresult, -, -⟩ := hway
    exact ⟨c, of_resolve_ok hresult⟩
  refine carries_bind hlist (fun items => carries_given fun hitems => ?_) fun _ _ _ h => h.2
  refine carries_bind (carries_reads touring (reads_resolveOptional a.key _ _)) (fun first => ?_)
    fun _ _ _ h => h
  refine carries_bind (carries_reads touring (reads_resolveOptional a.key _ _)) (fun last => ?_)
    fun _ _ _ h => h
  refine carries_bind (carries_reads touring (reads_resolveOptional a.key _ _))
    (fun reverse => ?_) fun _ _ _ h => h
  exact carries_traverse stable rule (hitems items rfl) first last _

end Rounds

/-! ### Whole actions -/

theorem carries_kind {a : Action} (stable : Stable a.key K) {kind : Kind Action}
    (rule : KindWays a.key K kind) :
    Carries (a.AtWork (Untouched kind K) none) (kindTurns a.key kind)
      fun past result => a.AtWork K (fault? result) past := by
  have hmark : Carries (a.AtWork (Untouched kind K) none) (one (mark a.key .running))
      fun past result => a.AtWork (Untouched kind K) (fault? result) past :=
    carries_reads (AtWork.stable (untouched_stable stable kind)) (reads_mark a.key .running)
  have stopped : ∀ past fault r, a.AtWork (Untouched kind K) (some fault) past r →
      a.AtWork K (some fault) past r := fun _ _ _ h => h.mono And.left
  cases kind with
  | group parallel actions =>
    rw [kindTurns]
    exact carries_bind hmark (fun _ => carries_group stable rule) stopped
  | iterate loop actions =>
    rw [kindTurns]
    refine carries_bind hmark (fun _ => ?_) stopped
    exact (carries_iterate stable rule).weaken (fun _ _ h => h) fun _ _ _ h => h.mono And.left
  | simple logic =>
    rw [kindTurns]
    refine carries_bind hmark (fun _ => ?_) stopped
    cases logic with
    | raiseError p =>
      exact (carries_raise stable p).weaken (fun _ _ h => h.mono And.left) fun _ _ _ h => h
    | setVariable property path value => exact carries_assign stable rule
    | external handler => exact carries_call rule

/-- A condition on the logic of an action lasts to the end of its handling, whatever its turns
find. -/
theorem turns_left {a : Action} (stable : Stable a.key K) (rule : KindWays a.key K a.kind)
    (start : K none [] a.kind.detail) {turns : List Turn} {result : Except Fault Unit}
    {last : Record} (h : a.turns a.freshRecord turns result last) :
    ∃ ran c idle, turns = ran ++ .showing a.key last c :: idle ∧ (∀ t ∈ idle, t.Idle) ∧
      a.LeftInTurns K ran result last := by
  rw [turns_eq] at h
  exact handle_left stable (carries_kind stable rule) start h

theorem stable_true (key : String) :
    Stable key fun (_ : Option Fault) (_ : List Turn) (_ : Detail Record) => True :=
  ⟨fun _ _ => trivial, fun _ _ => trivial⟩

theorem kindWays_true (key : String) (kind : Kind Action) :
    KindWays key (fun _ _ _ => True) kind := by
  rcases kind with ⟨parallel, actions⟩ | ⟨loop, actions⟩ | (p | ⟨property, path, value⟩ | handler)
  · exact fun _ _ _ _ _ _ => trivial
  · exact ⟨fun _ _ => trivial, fun _ _ _ => trivial, fun _ _ _ _ _ _ _ => trivial⟩
  · trivial
  · exact fun _ _ _ => trivial
  · exact fun _ _ _ _ => trivial

/-! ### Conditions on turns alone -/

/-- A condition on turns in their order that whatever `a` does keeps, by itself and around the
actions inside. -/
structure Gathers (a : Action) (V : List Turn → Prop) : Prop where
  nil : V []
  append : ∀ {xs ys}, V xs → V ys → V (xs ++ ys)
  alone : ∀ {t : Turn}, t.Alone a.key → V [t]
  showing : ∀ r c, V [.showing a.key r c]
  call : ∀ handler ∈ a.kind.handler?, Calls V a.key handler
  children : ∀ {parallel actions inner result records}, a.kind = .group parallel actions →
    childrenTurns parallel actions [] inner result records →
      V (inner.map (Turn.within (.children a.key)))
  round : ∀ {loop actions items i p iterations r inner result records} (c : Context),
    a.kind = .iterate loop actions → (∃ d, loop.list.resolveAs Conversion.list d = .ok items) →
    items[i.index]? = some i.item → r.detail = .iterate p iterations → p.current = some i →
    sequenceTurns actions [] inner result records →
      V (.showing a.key r c :: inner.map (Turn.within (.iteration a.key items i.index)))
  recovery : ∀ {inner result records}, sequenceTurns a.errorActions [] inner result records →
    V (inner.map (Turn.within (.recovery a.key)))

namespace Gathers

variable {a : Action} {V : List Turn → Prop}

theorem idle (h : a.Gathers V) {turns : List Turn} (hidle : ∀ t ∈ turns, t.Idle) : V turns := by
  induction turns with
  | nil => exact h.nil
  | cons t rest ih =>
    obtain ⟨ht, hrest⟩ := List.forall_mem_cons.mp hidle
    exact h.append (h.alone (ht.alone a.key)) (ih hrest)

theorem kindWays (h : a.Gathers V) : KindWays a.key (fun _ past _ => V past) a.kind := by
  have hcall := h.call
  have hchildren := @h.children
  have hround := @h.round
  generalize a.kind = kind at hcall hchildren hround
  rcases kind with ⟨parallel, actions⟩ | ⟨loop, actions⟩ | (p | ⟨property, path, value⟩ | handler)
  · exact fun past inner result records hpast hs => h.append hpast (hchildren rfl hs)
  · refine ⟨fun q hpast => hpast, fun r c hpast => h.append hpast (h.showing r c), ?_⟩
    intro items i past p iterations r inner result records c hitems hi hdetail hcurrent hpast hs
    exact h.append hpast (hround c rfl hitems hi hdetail hcurrent hs)
  · trivial
  · exact fun write past hpast => hpast
  · exact fun x s past hpast => h.append hpast (hcall handler rfl s)

theorem turns (h : a.Gathers V) {turns : List Turn} {result : Except Fault Unit} {r : Record}
    (hs : a.turns a.freshRecord turns result r) : V turns := by
  have stable : Stable a.key fun (_ : Option Fault) past (_ : Detail Record) => V past :=
    ⟨fun ht hpast => h.append hpast (h.alone ht), fun _ hpast => hpast⟩
  obtain ⟨ran, c, idle, rfl, hidle, left⟩ := turns_left stable h.kindWays h.nil hs
  have hran : V ran := by
    cases left with
    | passed shut => exact shut.kept
    | escaped shut none => exact shut.kept
    | recovered d shut some ran rest =>
      refine h.append shut.kept (h.append (h.showing _ d) ?_)
      exact h.append (h.recovery ran) (h.idle rest)
  exact h.append hran (h.append (h.showing r c) (h.idle hidle))

end Gathers

end Action

end ActionFlow
