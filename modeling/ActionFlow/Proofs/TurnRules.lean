import ActionFlow.Proofs.Turns

/-!
# Rules for turns

`TurnRule` says what has to be shown of single turns, and of what becomes of their order, for a
condition on turns to hold of everything that a run may do, whatever order its tasks take.  The
actions publish themselves when they are over, and an iteration does between its rounds; what an
action owns is followed only as far as that.  Which keys may be published so, and which handlers
called, each condition has to say for itself.
-/
namespace ActionFlow

def Record.Over (r : Record) : Prop := r.stage.isTerminal = true

def Record.Open (r : Record) : Prop := r.stage.isTerminal = false

def Record.Running (r : Record) : Prop := r.stage = .running

def Record.Iterating (r : Record) : Prop :=
  r.Running ∧ ∃ progress iterations, r.detail = .iterate progress iterations

namespace Record.Running

variable {r : Record} (h : r.Running)

include h

theorem setWrite (write : Write) : (r.setWrite write).Running := by
  unfold Record.setWrite
  split
  · exact h
  · exact h

theorem setOutput (output : Option Value) : (r.setOutput output).Running := by
  unfold Record.setOutput
  split
  · exact h
  · exact h

theorem setChildren (records : Entries Record) : (r.setChildren records).Running := by
  unfold Record.setChildren
  split
  · exact h
  · exact h

end Record.Running

/-- The step publishes nothing. -/
def Step.Quiet {ρ α : Type} (m : Step (Frame ρ) α) : Prop := ∀ s,
  (m s).state.context.published = s.context.published ∧
    ∀ moment ∈ (m s).journal, moment.context.published = s.context.published

/-- The turn publishes nothing. -/
structure Turn.Quiet (t : Turn) : Prop where
  journal : ∀ m ∈ t.journal, m.context.published = t.before.published
  after : t.after.published = t.before.published

/-- A condition on turns in their order: it survives whatever order the turns of several parts are
taken in, and turns that publish nothing. -/
structure TurnRule (V : List Turn → Prop) : Prop where
  nil : V []
  append : ∀ {xs ys}, V xs → V ys → V (xs ++ ys)
  interleave : ∀ {parts turns}, Interleaving parts turns → (∀ part ∈ parts, V part) → V turns
  within : ∀ {turns} (place : Place), V turns → V (turns.map (Turn.within place))
  quiet : ∀ {t : Turn}, t.Quiet → V [t]

theorem turnRule_forall {P : Turn → Prop} (within : ∀ place {t : Turn}, P t → P (t.within place))
    (quiet : ∀ {t : Turn}, t.Quiet → P t) : TurnRule fun turns => ∀ t ∈ turns, P t where
  nil := nofun
  append h h' := List.forall_mem_append.mpr ⟨h, h'⟩
  interleave h hparts t ht := by
    obtain ⟨part, hpart, ht⟩ := h.mem.mp ht
    exact hparts part hpart t ht
  within place h := by
    intro t ht
    obtain ⟨inner, hinner, rfl⟩ := List.mem_map.mp ht
    exact within place (h inner hinner)
  quiet h := List.forall_mem_singleton.mpr (quiet h)

/-! ### Turns that leave an entry alone -/

/-- What is published under the key does not change. -/
structure Turn.Steady (k : String) (t : Turn) : Prop where
  journal : ∀ m ∈ t.journal, m.context.action? k = t.before.action? k
  after : t.after.action? k = t.before.action? k

theorem Turn.Quiet.steady {t : Turn} (h : t.Quiet) (k : String) : t.Steady k := by
  refine ⟨fun m hm => ?_, ?_⟩
  · rw [Context.action?, h.journal m hm, Context.action?]
  · rw [Context.action?, h.after, Context.action?]

theorem Turn.Steady.within {k : String} {t : Turn} (h : t.Steady k) (place : Place) :
    (t.within place).Steady k := by
  refine ⟨fun m hm => ?_, h.after⟩
  obtain ⟨inner, hinner, rfl⟩ := List.mem_map.mp hm
  exact h.journal inner hinner

theorem Linked.steady {k : String} {c d : Context} {turns : List Turn} (h : Linked c turns d)
    (hturns : ∀ t ∈ turns, t.Steady k) :
    d.action? k = c.action? k ∧
      ∀ m ∈ turns.flatMap Turn.journal, m.context.action? k = c.action? k := by
  induction turns generalizing c with
  | nil =>
    obtain rfl : c = d := h
    exact ⟨rfl, nofun⟩
  | cons t rest ih =>
    obtain ⟨rfl, hrest⟩ := h
    obtain ⟨ht, hothers⟩ := List.forall_mem_cons.mp hturns
    obtain ⟨hend, hlater⟩ := ih hrest hothers
    rw [ht.after] at hend hlater
    rw [List.flatMap_cons]
    exact ⟨hend, List.forall_mem_append.mpr ⟨ht.journal, hlater⟩⟩

/-! ### What actions do by themselves -/

/-- The condition allows the action with this key to show that it is over. -/
def Concludes (V : List Turn → Prop) (key : String) : Prop :=
  ∀ (c : Context) {r : Record}, r.Over → V [⟨c, [], c.publish key r.snapshot⟩]

/-- The condition allows the action with this key to show how far it is. -/
def Progresses (V : List Turn → Prop) (key : String) : Prop :=
  ∀ (c : Context) {r : Record}, r.Iterating → V [⟨c, [], c.publish key r.snapshot⟩]

/-- The condition allows the action with this key to call the handler. -/
def Calls (V : List Turn → Prop) (key : String) (handler : Handler) : Prop :=
  ∀ s, V [⟨s.context, (Logic.call key handler s).journal, (Logic.call key handler s).state.context⟩]

namespace Turns

open ActionFlow.Frame

variable {ρ τ α β : Type} {V : List Turn → Prop}

/-- From what is owned in `pre`, all ways have their turns in `V`, and their result and what is
owned in `post`. -/
def Meets (V : List Turn → Prop) (pre : ρ → Prop) (p : Turns ρ α)
    (post : Except Fault α → ρ → Prop) : Prop :=
  ∀ own turns result last, pre own → p own turns result last → V turns ∧ post result last

def onOk (q : α → ρ → Prop) : Except Fault α → ρ → Prop
  | .ok a, own => q a own
  | .error _, _ => True

def onFault (q : ρ → Prop) : Except Fault α → ρ → Prop
  | .ok _, _ => True
  | .error _, own => q own

def okOnly (q : α → ρ → Prop) : Except Fault α → ρ → Prop
  | .ok a, own => q a own
  | .error _, _ => False

def Anything : Except Fault α → ρ → Prop := fun _ _ => True

def Any : ρ → Prop := fun _ => True

variable {pre : ρ → Prop} {p : Turns ρ α} {post mid : Except Fault α → ρ → Prop}

theorem Meets.weaken {pre' : ρ → Prop} {post' : Except Fault α → ρ → Prop}
    (h : Meets V pre p post) (hpre : ∀ own, pre' own → pre own)
    (hpost : ∀ result own, post result own → post' result own) : Meets V pre' p post' := by
  intro own turns result last hown hp
  obtain ⟨hv, hq⟩ := h own turns result last (hpre own hown) hp
  exact ⟨hv, hpost result last hq⟩

/-- A part of which nothing is asked but its turns. -/
def Keeps (V : List Turn → Prop) (p : Turns ρ α) : Prop := Meets V Any p Anything

theorem Keeps.meets (h : p.Keeps V) : Meets V pre p Anything :=
  h.weaken (fun _ _ => trivial) fun _ _ _ => trivial

theorem Meets.anything (h : Meets V pre p post) : Meets V pre p Anything :=
  h.weaken (fun _ h => h) fun _ _ _ => trivial

section Rules

variable (rule : TurnRule V)

include rule

theorem meets_pure {a : α} {post : Except Fault α → ρ → Prop}
    (h : ∀ own, pre own → post (.ok a) own) : Meets V pre (pure a) post := by
  rintro own turns result last hown ⟨rfl, rfl, rfl⟩
  exact ⟨rule.nil, h last hown⟩

theorem meets_bind {next : α → Turns ρ β} {post : Except Fault β → ρ → Prop}
    (hp : Meets V pre p mid) (hnext : ∀ a, Meets V (mid (.ok a)) (next a) post)
    (hfault : ∀ fault own, mid (.error fault) own → post (.error fault) own) :
    Meets V pre (p >>= next) post := by
  intro own turns result last hown hway
  rcases hway with ⟨fault, hfirst, rfl⟩ | ⟨a, middle, first, second, hfirst, hsecond, rfl⟩
  · obtain ⟨hv, hm⟩ := hp own turns _ last hown hfirst
    exact ⟨hv, hfault fault last hm⟩
  · obtain ⟨hv, hm⟩ := hp own first _ middle hown hfirst
    obtain ⟨hv', hpost⟩ := hnext a middle second result last hm hsecond
    exact ⟨rule.append hv hv', hpost⟩

theorem keeps_bind {next : α → Turns ρ β} (hp : p.Keeps V) (hnext : ∀ a, (next a).Keeps V) :
    (p >>= next).Keeps V :=
  meets_bind rule hp (fun a => (hnext a).meets) fun _ _ _ => trivial

theorem meets_within (place : Place) (h : Meets V pre p post) :
    Meets V pre (within place p) post := by
  rintro own turns result last hown ⟨inner, hp, rfl⟩
  obtain ⟨hv, hpost⟩ := h own inner result last hown hp
  exact ⟨rule.within place hv, hpost⟩

end Rules

theorem meets_attempt (h : Meets V pre p post) : Meets V pre p.attempt (okOnly post) := by
  rintro own turns result last hown ⟨caught, hp, rfl⟩
  exact h own turns caught last hown hp

theorem meets_nested {own : τ} {part : Turns τ Unit} {J : ρ → Prop} (h : part.Keeps V) :
    Meets V J (nested own part) fun _ => J := by
  rintro outer turns result last houter ⟨rfl, left, ended, hp, rfl⟩
  exact ⟨(h own turns ended left trivial hp).1, houter⟩

/-! ### One turn -/

theorem meets_one (rule : TurnRule V) {m : Step (Frame ρ) α} (hm : m.Quiet)
    (h : ∀ own c result, pre own → (m ⟨own, c⟩).result = result.mapError .error →
      post result (m ⟨own, c⟩).state.own) : Meets V pre (one m) post := by
  rintro own turns result last hown ⟨c, hresult, rfl, rfl⟩
  exact ⟨rule.quiet ⟨(hm ⟨own, c⟩).2, (hm ⟨own, c⟩).1⟩, h own c result hown hresult⟩

theorem keeps_one (rule : TurnRule V) {m : Step (Frame ρ) α} (hm : m.Quiet) : (one m).Keeps V :=
  meets_one rule hm fun _ _ _ _ _ => trivial

theorem stays_one (rule : TurnRule V) {m : Step (Frame ρ) α} (hm : m.Quiet) {J : ρ → Prop}
    (h : ∀ s, J s.own → J (m s).state.own) : Meets V J (one m) fun _ => J :=
  meets_one rule hm fun own c _ hown _ => h ⟨own, c⟩ hown

theorem meets_publish {key : String} (h : Concludes V key) :
    Meets V Record.Over (one (publish key)) fun _ => Record.Over := by
  rintro own turns result last hown ⟨c, -, rfl, rfl⟩
  exact ⟨h c hown, hown⟩

theorem meets_progress {key : String} (h : Progresses V key) :
    Meets V Record.Iterating (one (publish key)) fun _ => Record.Iterating := by
  rintro own turns result last hown ⟨c, -, rfl, rfl⟩
  exact ⟨h c hown, hown⟩

theorem meets_call {key : String} {handler : Handler} (h : Calls V key handler) :
    Meets V Record.Running (one (Logic.call key handler)) fun _ => Record.Running := by
  rintro own turns result last hown ⟨c, -, rfl, rfl⟩
  exact ⟨h ⟨own, c⟩, hown.setOutput _⟩

section Quiet

theorem quiet_modify (f : ρ → ρ) : (modify f).Quiet := fun _ => ⟨rfl, nofun⟩

theorem quiet_fail (fault : Fault) : (.fail fault : Step (Frame ρ) α).Quiet := fun _ => ⟨rfl, nofun⟩

theorem quiet_ofExcept (result : Except Fault α) : (.ofExcept result : Step (Frame ρ) α).Quiet :=
  fun _ => ⟨rfl, nofun⟩

theorem quiet_ensureNotCancelled (key : String) :
    (ensureNotCancelled key : Step (Frame ρ) Unit).Quiet := fun _ => ⟨rfl, nofun⟩

theorem quiet_close (fault : Fault) : (close fault).Quiet := fun _ => ⟨rfl, nofun⟩

theorem quiet_resolve (key : String) (p : Context → Resolution α) :
    (resolve key p : Step (Frame ρ) α).Quiet := by
  refine fun s => ⟨rfl, fun m hm => ?_⟩
  rw [List.mem_singleton.mp hm]

theorem quiet_mark (key : String) (event : Event) :
    (mark key event : Step (Frame ρ) Unit).Quiet := by
  refine fun s => ⟨rfl, fun m hm => ?_⟩
  rw [List.mem_singleton.mp hm]

theorem quiet_move (target : Stage) : (move target).Quiet := by
  intro s
  unfold move
  split <;> exact ⟨rfl, nofun⟩

theorem quiet_write (property : String) (path : Option Path) (value : Value) :
    (Logic.write property path value).Quiet := by
  intro s
  unfold Logic.write
  cases h : s.context.setVariable property path value with
  | ok c => exact ⟨Context.published_setVariable h, nofun⟩
  | error fault => exact ⟨rfl, nofun⟩

theorem quiet_call (key : String) {handler : Handler}
    (h : ∀ c, (handler.handle c).context.published = c.published) :
    (Logic.call key handler).Quiet := by
  refine fun s => ⟨h s.context, fun m hm => ?_⟩
  rcases List.mem_cons.mp hm with rfl | hm
  · rfl
  · obtain ⟨text, -, rfl⟩ := List.mem_map.mp hm
    exact h s.context

theorem calls_of_published (rule : TurnRule V) (key : String) {handler : Handler}
    (h : ∀ c, (handler.handle c).context.published = c.published) : Calls V key handler :=
  fun s => rule.quiet ⟨(quiet_call key h s).2, (quiet_call key h s).1⟩

theorem quiet_settle (tasks : List Task) : (Task.settle tasks).Quiet := by
  intro s
  rw [Task.settle_eq]
  exact ⟨rfl, List.forall_mem_nil _⟩

end Quiet

/-! ### No condition on the turns -/

theorem turnRule_true : TurnRule fun _ => True :=
  ⟨trivial, fun _ _ => trivial, fun _ _ => trivial, fun _ _ => trivial, fun _ => trivial⟩

theorem concludes_true (key : String) : Concludes (fun _ => True) key := fun _ _ _ => trivial

theorem keeps_true (p : Turns ρ α) : p.Keeps fun _ => True := fun _ _ _ _ _ _ => ⟨trivial, trivial⟩

/-! ### The parts of a run -/

section Parts

variable (rule : TurnRule V)

include rule

theorem meets_file (place : Place) {own : τ} {part : Turns τ Unit} {f : τ → ρ → ρ} {J : ρ → Prop}
    (h : part.Keeps V) (hf : ∀ left own, J own → J (f left own)) :
    Meets V J (file place own part f) fun _ => J := by
  refine meets_bind rule (meets_within rule place (meets_nested h)) (fun left => ?_)
    fun _ _ hs => hs
  refine meets_bind rule (stays_one rule (quiet_modify _) fun s hs => hf _ s.own hs) ?_ ?_
  · exact fun _ => stays_one rule (quiet_ofExcept _) fun _ hs => hs
  · exact fun _ _ hs => hs

theorem stays_resolve (key : String) (p : Context → Resolution α) {J : ρ → Prop} :
    Meets V J (one (resolve key p)) fun _ => J :=
  stays_one rule (quiet_resolve key p) fun _ hs => hs

theorem stays_resolveOptional {π : Type} (key : String) (p : Option π)
    (f : π → Context → Resolution α) {J : ρ → Prop} :
    Meets V J (resolveOptional key p f : Turns ρ (Option α)) fun _ => J := by
  cases p with
  | none => exact meets_pure rule fun _ hs => hs
  | some q =>
    refine meets_bind rule (stays_resolve rule key _) (fun a => ?_) fun _ _ hs => hs
    exact meets_pure rule fun _ hs => hs

theorem stays_check (key : String) (conditions : List ErrorCondition) {J : Record → Prop} :
    Meets V J (check key conditions) fun _ => J := by
  induction conditions with
  | nil => exact meets_pure rule fun _ hs => hs
  | cons e rest ih =>
    refine meets_bind rule (stays_resolve rule key _) (fun holds => ?_) fun _ _ hs => hs
    cases holds with
    | true =>
      refine meets_bind rule (stays_resolve rule key _) (fun fault => ?_) fun _ _ hs => hs
      exact stays_one rule (quiet_fail _) fun _ hs => hs
    | false => exact ih

theorem stays_wanted (head : Head) {J : Record → Prop} :
    Meets V J (wanted head) fun _ => J := by
  unfold wanted
  cases head.runCondition with
  | none => exact meets_pure rule fun _ hs => hs
  | some c => exact stays_resolve rule head.key _

/-- A move leaves the record at the stage that it moves to, or as it is. -/
theorem meets_move (target : Stage) {J : Record → Prop} :
    Meets V J (one (move target)) fun result r =>
      onOk (fun _ r => r.stage = target) result r ∧ onFault J result r := by
  refine meets_one rule (quiet_move target) fun own c result hown hresult => ?_
  have hmove := hresult
  unfold move at hmove ⊢
  cases hcan : own.stage.canMove target with
  | true =>
    simp only [Record.transition_of_canMove hcan] at hmove ⊢
    cases result with
    | ok u => exact ⟨Record.stage_stamp _ _ _, trivial⟩
    | error fault => cases hmove
  | false =>
    simp only [Record.transition_of_not_canMove hcan] at hmove ⊢
    cases result with
    | ok u => cases hmove
    | error fault => exact ⟨trivial, hown⟩

variable {head : Head} {logic : Turns Record Unit} {recovery : Option (Turns (Entries Record) Unit)}

/-- An attempt that succeeds leaves a record that is over.  Up to its last move the record is open,
so that whatever holds of open records holds where the attempt fails. -/
theorem meets_attempted {J : Record → Prop} (hJ : ∀ r : Record, r.Open → J r)
    (h : Meets V Record.Running logic fun _ => J) :
    Meets V J (attempted head logic) fun result r =>
      onOk (fun _ => Record.Over) result r ∧ onFault J result r := by
  have hmove : ∀ target : Stage, target.isTerminal = false →
      Meets V J (one (move target)) fun _ => J := by
    intro target htarget
    refine (meets_move rule target).weaken (fun _ hs => hs) fun result r hmoved => ?_
    cases result with
    | ok u => exact hJ r ((congrArg Stage.isTerminal hmoved.1).trans htarget)
    | error fault => exact hmoved.2
  have closing : ∀ target : Stage, target.isTerminal = true →
      Meets V J (do one (move target); one succeed) fun result r =>
        onOk (fun _ => Record.Over) result r ∧ onFault J result r := by
    intro target htarget
    refine meets_bind rule (meets_move rule target) (fun _ => ?_)
      fun _ _ hmoved => ⟨trivial, hmoved.2⟩
    refine meets_one rule (quiet_modify _) fun own c result hmoved hresult => ?_
    cases result with
    | ok u => exact ⟨(congrArg Stage.isTerminal hmoved.1).trans htarget, trivial⟩
    | error fault => cases hresult
  have hrun : Meets V J (one (move .running)) fun result r =>
      onOk (fun _ => Record.Running) result r ∧ onFault J result r := meets_move rule .running
  refine meets_bind rule (hmove _ rfl) (fun _ => ?_) fun _ _ hs => ⟨trivial, hs⟩
  refine meets_bind rule (stays_one rule (quiet_ensureNotCancelled _) fun _ hs => hs)
    (fun _ => ?_) fun _ _ hs => ⟨trivial, hs⟩
  refine meets_bind rule (stays_wanted rule head) (fun wants => ?_) fun _ _ hs => ⟨trivial, hs⟩
  cases wants with
  | false => exact closing .skipped rfl
  | true =>
    refine meets_bind rule (hmove _ rfl) (fun _ => ?_) fun _ _ hs => ⟨trivial, hs⟩
    refine meets_bind rule (stays_check rule _ _) (fun _ => ?_) fun _ _ hs => ⟨trivial, hs⟩
    refine meets_bind rule hrun (fun _ => ?_) fun _ _ hmoved => ⟨trivial, hmoved.2⟩
    refine meets_bind rule (h.weaken (fun _ hmoved => hmoved.1) fun _ _ hs => hs) (fun _ => ?_)
      fun _ _ hs => ⟨trivial, hs⟩
    refine meets_bind rule (hmove _ rfl) (fun _ => ?_) fun _ _ hs => ⟨trivial, hs⟩
    refine meets_bind rule (stays_check rule _ _) (fun _ => ?_) fun _ _ hs => ⟨trivial, hs⟩
    exact closing .completed rfl

theorem meets_intercept {key : String} (concludes : Concludes V key) (fault : Fault)
    (h : ∀ sequence ∈ recovery, sequence.Keeps V) :
    Meets V Any (intercept key recovery fault) fun _ => Record.Over := by
  have hclose : Meets V Any (one (close fault)) fun _ => Record.Over :=
    meets_one rule (quiet_close fault) fun _ _ _ _ _ => Record.isTerminal_finish _ _ _
  refine meets_bind rule hclose (fun _ => ?_) fun _ _ hover => hover
  cases recovery with
  | none => exact stays_one rule (quiet_fail fault) fun _ hover => hover
  | some sequence =>
    refine meets_bind rule (meets_publish concludes) (fun _ => ?_) fun _ _ hover => hover
    exact meets_file rule _ (h sequence rfl) fun _ _ hover => hover

theorem meets_guarded (concludes : Concludes V head.key) (h : Meets V Record.Running logic Anything)
    (hr : ∀ sequence ∈ recovery, sequence.Keeps V) :
    Meets V Any (guarded head logic recovery) fun _ => Record.Over := by
  have hattempted : Meets V Any (attempted head logic) fun result r =>
      onOk (fun _ => Record.Over) result r ∧ onFault Any result r :=
    meets_attempted rule (fun _ _ => trivial) h
  refine meets_bind rule (meets_attempt hattempted) (fun caught => ?_)
    fun _ _ hfalse => hfalse.elim
  cases caught with
  | ok u => exact meets_pure rule fun _ hover => hover.1
  | error fault =>
    exact (meets_intercept rule concludes fault hr).weaken (fun _ _ => trivial) fun _ _ h => h

theorem keeps_handle (concludes : Concludes V head.key) (h : Meets V Record.Running logic Anything)
    (hr : ∀ sequence ∈ recovery, sequence.Keeps V) : (handle head logic recovery).Keeps V := by
  refine keeps_bind rule (keeps_one rule (quiet_mark _ _)) fun _ => ?_
  refine meets_bind rule (meets_attempt (meets_guarded rule concludes h hr)) (fun _ => ?_)
    fun _ _ hfalse => hfalse.elim
  refine meets_bind rule (meets_publish concludes) (fun _ => ?_) fun _ _ _ => trivial
  exact (keeps_one rule (quiet_ofExcept _)).meets

section Loop

variable {key : String} (progress : Progresses V key) {body : Turns (Entries Record) Unit}
  (hb : body.Keeps V)

include progress hb

theorem meets_once (items : List Value) (i : IterationItem) :
    Meets V Record.Running (once key items body i) fun _ => Record.Running := by
  have hrunning : ∀ own, Record.Iterating own → own.Running := fun _ hi => hi.1
  refine meets_bind rule (stays_one rule (quiet_ensureNotCancelled key) fun _ hs => hs)
    (fun _ => ?_) fun _ _ hs => hs
  have hmodify : ∀ f, Meets V Record.Running (one (modify (Record.updateProgress f)))
      fun _ => Record.Iterating := by
    intro f
    exact meets_one rule (quiet_modify _) fun own _ _ hs _ => ⟨hs, _, _, rfl⟩
  refine meets_bind rule (hmodify _) (fun _ => ?_) fun _ => hrunning
  refine meets_bind rule (meets_progress progress) (fun _ => ?_) fun _ => hrunning
  refine meets_bind rule (meets_file rule _ hb fun _ own hi => ⟨hi.1, _, _, rfl⟩) (fun _ => ?_)
    fun _ => hrunning
  refine meets_bind rule ((hmodify _).weaken hrunning fun _ _ h => h) (fun _ => ?_)
    fun _ => hrunning
  exact (meets_progress progress).weaken (fun _ h => h) fun _ => hrunning

theorem meets_visit (loop : Loop) (items : List Value) (places : List IterationItem) :
    Meets V Record.Running (visit key loop items body places)
      fun _ => Record.Running := by
  induction places with
  | nil => exact meets_pure rule fun _ hs => hs
  | cons i rest ih =>
    refine meets_bind rule (meets_once rule progress hb items i) (fun _ => ?_) fun _ _ hs => hs
    have hcontinues : Meets V Record.Running (continues key loop)
        fun _ => Record.Running := by
      unfold continues
      cases loop.doWhile with
      | none => exact meets_pure rule fun _ hs => hs
      | some c => exact stays_one rule (quiet_resolve _ _) fun _ hs => hs
    refine meets_bind rule hcontinues (fun goesOn => ?_) fun _ _ hs => hs
    cases goesOn with
    | true => exact ih
    | false => exact meets_pure rule fun _ hs => hs

theorem meets_traverse (loop : Loop) (items : List Value) (first last : Option Int)
    (reverse : Bool) :
    Meets V Record.Running (traverse key loop body items first last reverse)
      fun _ => Record.Running := by
  have hmodify : ∀ f, Meets V Record.Running (one (modify (Record.updateProgress f)))
      fun _ => Record.Running :=
    fun f => stays_one rule (quiet_modify _) fun _ hs => hs
  unfold traverse
  split
  · exact hmodify _
  · cases Range.resolve items.length first last reverse with
    | ok range =>
      refine meets_bind rule (hmodify _) (fun _ => ?_) fun _ _ hs => hs
      refine meets_bind rule (meets_visit rule progress hb loop items _) (fun _ => ?_)
        fun _ _ hs => hs
      exact hmodify _
    | error index => exact stays_one rule (quiet_fail _) fun _ hs => hs

theorem meets_iterate (loop : Loop) :
    Meets V Record.Running (iterate key loop body) fun _ => Record.Running := by
  refine meets_bind rule (stays_resolve rule key _) (fun items => ?_) fun _ _ hs => hs
  refine meets_bind rule (stays_resolveOptional rule key _ _) (fun first => ?_) fun _ _ hs => hs
  refine meets_bind rule (stays_resolveOptional rule key _ _) (fun last => ?_) fun _ _ hs => hs
  refine meets_bind rule (stays_resolveOptional rule key _ _) (fun reverse => ?_) fun _ _ hs => hs
  exact meets_traverse rule progress hb loop items first last _

end Loop

theorem meets_assign (key : String) (property : Provider) (path : Option Provider)
    (value : Provider) :
    Meets V Record.Running (assign key property path value) fun _ => Record.Running := by
  refine meets_bind rule (stays_resolve rule key _) (fun name => ?_) fun _ _ hs => hs
  split
  · refine meets_bind rule (stays_resolveOptional rule key _ _) (fun path => ?_) fun _ _ hs => hs
    refine meets_bind rule (stays_resolve rule key _) (fun value => ?_) fun _ _ hs => hs
    refine meets_bind rule (stays_one rule (quiet_modify _) fun _ hs => hs.setWrite _)
      (fun _ => ?_) fun _ _ hs => hs
    refine stays_one rule (quiet_write _ _ _) fun s hs => ?_
    unfold Logic.write
    split
    · exact hs
    · exact hs
  · exact stays_one rule (quiet_fail _) fun _ hs => hs

theorem meets_logic (key : String) {logic : Logic}
    (h : ∀ handler, logic = .external handler → Calls V key handler) :
    Meets V Record.Running (Turns.logic key logic) fun _ => Record.Running := by
  cases logic with
  | raiseError p =>
    refine meets_bind rule (stays_resolve rule key _) (fun fault => ?_) fun _ _ hs => hs
    refine meets_bind rule (stays_one rule (quiet_modify _) fun _ hs => hs) (fun _ => ?_)
      fun _ _ hs => hs
    exact stays_one rule (quiet_fail _) fun _ hs => hs
  | setVariable property path value => exact meets_assign rule key property path value
  | external handler => exact meets_call (h handler rfl)

end Parts

theorem keeps_fork (rule : TurnRule V) {parts : List (Record × Turns Record Unit)}
    (h : ∀ part ∈ parts, part.2.Keeps V) : (fork parts : Turns ρ (List Task)).Keeps V := by
  rintro own turns result last - ⟨rfl, each, tasks, hended, horder, rfl⟩
  refine ⟨rule.interleave horder ?_, trivial⟩
  clear horder
  induction hended with
  | nil => exact nofun
  | @cons start last part turns result rest parts tasks ends others ih =>
    refine List.forall_mem_cons.mpr ⟨?_, ih fun part hpart => h part (List.mem_cons_of_mem _ hpart)⟩
    exact (h _ List.mem_cons_self start turns result last trivial ends).1

end Turns

namespace Action

open ActionFlow.Frame Turns

variable {V : List Turn → Prop} (rule : TurnRule V)

include rule

theorem keeps_sequence {actions : List Action} (h : ∀ b ∈ actions, b.turns.Keeps V) :
    (sequenceTurns actions).Keeps V := by
  induction actions with
  | nil =>
    rw [sequenceTurns]
    exact meets_pure rule fun _ _ => trivial
  | cons a rest ih =>
    rw [sequenceTurns]
    refine keeps_bind rule ?_ fun _ => ih fun b hb => h b (List.mem_cons_of_mem _ hb)
    refine keeps_bind rule (meets_nested (h a List.mem_cons_self)).anything fun left => ?_
    refine keeps_bind rule (keeps_one rule (quiet_modify _)) fun _ => ?_
    exact keeps_one rule (quiet_ofExcept _)

theorem keeps_together {actions : List Action} (h : ∀ b ∈ actions, b.turns.Keeps V) :
    (together (taskTurns actions)).Keeps V := by
  have hparts : ∀ part ∈ taskTurns actions, part.2.Keeps V := by
    induction actions with
    | nil =>
      rw [taskTurns]
      exact List.forall_mem_nil _
    | cons a rest ih =>
      rw [taskTurns]
      exact List.forall_mem_cons.mpr ⟨h a List.mem_cons_self,
        ih fun b hb => h b (List.mem_cons_of_mem _ hb)⟩
  exact keeps_bind rule (keeps_fork rule hparts) fun tasks => keeps_one rule (quiet_settle tasks)

theorem meets_kind {key : String} {kind : Kind Action}
    (progress : ∀ loop actions, kind = .iterate loop actions → Progresses V key)
    (calls : ∀ handler ∈ kind.handler?, Calls V key handler)
    (h : ∀ b ∈ kind.actions, b.turns.Keeps V) :
    Meets V Record.Running (kindTurns key kind) fun _ => Record.Running := by
  have hmark : Meets V Record.Running (one (mark key .running))
      fun _ => Record.Running :=
    stays_one rule (quiet_mark _ _) fun _ hs => hs
  have hchildren : ∀ (records : Entries Record) (r : Record), r.Running →
      (r.setChildren records).Running := fun records _ hr => hr.setChildren records
  cases kind with
  | group parallel actions =>
    rw [kindTurns]
    refine meets_bind rule hmark (fun _ => meets_file rule _ ?_ hchildren) fun _ _ hs => hs
    cases parallel with
    | true => exact keeps_together rule h
    | false => exact keeps_sequence rule h
  | iterate loop actions =>
    rw [kindTurns]
    refine meets_bind rule hmark (fun _ => ?_) fun _ _ hs => hs
    exact meets_iterate rule (progress loop actions rfl) (keeps_sequence rule h) loop
  | simple logic =>
    rw [kindTurns]
    refine meets_bind rule hmark (fun _ => meets_logic rule key ?_) fun _ _ hs => hs
    rintro handler rfl
    exact calls handler rfl

omit rule in
/-- Whatever the turns find, the record is running as long as the logic is at work. -/
theorem running_kind (key : String) (kind : Kind Action) :
    Meets (fun _ => True) Record.Running (kindTurns key kind) fun _ => Record.Running :=
  meets_kind turnRule_true (fun _ _ _ _ _ _ => trivial) (fun _ _ _ => trivial)
    fun b _ => keeps_true b.turns

theorem keeps_turns {a : Action} (concludes : Concludes V a.key)
    (progress : ∀ loop actions, a.kind = .iterate loop actions → Progresses V a.key)
    (calls : ∀ handler ∈ a.kind.handler?, Calls V a.key handler)
    (inside : ∀ b ∈ a.kind.actions, b.turns.Keeps V)
    (recovery : ∀ b ∈ a.errorActions, b.turns.Keeps V) : a.turns.Keeps V := by
  rw [turns_eq]
  refine keeps_handle rule concludes (meets_kind rule progress calls inside).anything ?_
  intro sequence hs
  split at hs
  · cases hs
  · cases hs
    exact keeps_sequence rule recovery

end Action

end ActionFlow
