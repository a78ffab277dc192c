import ActionFlow.Proofs.SoundRuns
import ActionFlow.Proofs.TurnRules

/-!
# Valid faults in any order of the tasks

The parts of a run are sound turn by turn, so it does not matter which task goes on when.
-/
namespace ActionFlow

namespace Turns

open ActionFlow.Frame

variable {ρ τ α β : Type} {J : ρ → Prop} {I : τ → Prop}

/-- All ways of the part keep the condition on what it owns, give results in `post`, and end with
valid faults only. -/
def Sound (J : ρ → Prop) (p : Turns ρ α) (post : α → Prop) : Prop :=
  ∀ own turns result last, J own → p own turns result last →
    J last ∧ (∀ a, result = .ok a → post a) ∧ Caught result

theorem sound_one {m : Step (Frame ρ) α} {post : α → Prop} (h : Step.Sound J m post) :
    (one m).Sound J post := by
  rintro own turns result last hown ⟨c, hresult, rfl, rfl⟩
  obtain ⟨hleft, hok, hfault⟩ := h ⟨own, c⟩ hown
  refine ⟨hleft, ?_, ?_⟩
  · rintro a rfl
    exact hok a hresult
  · rintro fault rfl
    exact hfault fault hresult

theorem sound_pure {a : α} {post : α → Prop} (h : post a) :
    (pure a : Turns ρ α).Sound J post := by
  rintro own turns result last hown ⟨rfl, rfl, rfl⟩
  refine ⟨hown, ?_, nofun⟩
  rintro _ ⟨⟩
  exact h

theorem sound_bind {p : Turns ρ α} {next : α → Turns ρ β} {mid : α → Prop} {post : β → Prop}
    (hp : p.Sound J mid) (hnext : ∀ a, mid a → (next a).Sound J post) :
    (p >>= next).Sound J post := by
  intro own turns result last hown hway
  rcases hway with ⟨fault, hfirst, rfl⟩ | ⟨a, middle, first, second, hfirst, hsecond, rfl⟩
  · obtain ⟨hlast, -, hcaught⟩ := hp own turns _ last hown hfirst
    refine ⟨hlast, nofun, ?_⟩
    rintro _ ⟨⟩
    exact hcaught fault rfl
  · obtain ⟨hmiddle, hok, -⟩ := hp own first _ middle hown hfirst
    exact hnext a (hok a rfl) middle second result last hmiddle hsecond

theorem sound_attempt {p : Turns ρ α} {post : α → Prop} (h : p.Sound J post) :
    p.attempt.Sound J Caught := by
  rintro own turns result last hown ⟨caught, hp, rfl⟩
  obtain ⟨hlast, -, hcaught⟩ := h own turns caught last hown hp
  refine ⟨hlast, ?_, nofun⟩
  rintro _ ⟨⟩
  exact hcaught

theorem sound_nested {own : τ} {part : Turns τ Unit} (hown : I own) (h : part.Sound I Unchecked) :
    (nested own part : Turns ρ (τ × Except Fault Unit)).Sound J
      fun left => I left.1 ∧ Caught left.2 := by
  rintro outer turns result last houter ⟨rfl, left, ended, hp, rfl⟩
  obtain ⟨hleft, -, hcaught⟩ := h own turns ended left hown hp
  refine ⟨houter, ?_, nofun⟩
  rintro _ ⟨⟩
  exact ⟨hleft, hcaught⟩

theorem sound_within (place : Place) {p : Turns ρ α} {post : α → Prop} (h : p.Sound J post) :
    (within place p).Sound J post := by
  rintro own turns result last hown ⟨inner, hp, rfl⟩
  exact h own inner result last hown hp

theorem sound_file (place : Place) {own : τ} {part : Turns τ Unit} {f : τ → ρ → ρ} (hown : I own)
    (h : part.Sound I Unchecked) (hf : ∀ left own, I left → J own → J (f left own)) :
    (file place own part f).Sound J Unchecked := by
  refine sound_bind (sound_within place (sound_nested hown h)) fun left hleft => ?_
  have hmodify : Step.Sound J (modify (f left.1)) Unchecked :=
    sound_modify fun own hs => hf left.1 own hleft.1 hs
  exact sound_bind (sound_one hmodify) fun _ _ => sound_one (Step.sound_ofExcept hleft.2)

theorem sound_resolveOptional {π : Type} (key : String) (p : Option π)
    (f : π → Context → Resolution α) :
    (resolveOptional key p f : Turns ρ (Option α)).Sound J Unchecked := by
  cases p with
  | none => exact sound_pure trivial
  | some q => exact sound_bind (sound_one (sound_resolve_any key _)) fun a _ => sound_pure trivial

/-! ### Actions -/

section Lifecycle

variable {head : Head} {logic : Turns Record Unit} {recovery : Option (Turns (Entries Record) Unit)}

theorem sound_check (key : String) (conditions : List ErrorCondition) :
    (check key conditions).Sound Record.Sound Unchecked := by
  induction conditions with
  | nil => exact sound_pure trivial
  | cons e rest ih =>
    refine sound_bind (sound_one (sound_resolve_any key _)) fun holds _ => ?_
    cases holds with
    | true =>
      refine sound_bind (sound_one (sound_resolveFault key e.fault)) fun _ hvalid => ?_
      exact sound_one (Step.sound_fail hvalid)
    | false => exact ih

theorem sound_wanted (head : Head) : (wanted head).Sound Record.Sound Unchecked := by
  unfold wanted
  cases head.runCondition with
  | none => exact sound_pure trivial
  | some c => exact sound_one (sound_resolve_any _ _)

theorem sound_attempted (h : logic.Sound Record.Sound Unchecked) :
    (attempted head logic).Sound Record.Sound Unchecked := by
  have hmove : ∀ target, (one (move target)).Sound Record.Sound Unchecked :=
    fun target => sound_one (sound_move target)
  refine sound_bind (hmove _) fun _ _ => ?_
  refine sound_bind (sound_one (sound_ensureNotCancelled _)) fun _ _ => ?_
  refine sound_bind (sound_wanted head) fun wants _ => ?_
  cases wants with
  | false => exact sound_bind (hmove _) fun _ _ => sound_one sound_succeed
  | true =>
    refine sound_bind (hmove _) fun _ _ => ?_
    refine sound_bind (sound_check _ _) fun _ _ => ?_
    refine sound_bind (hmove _) fun _ _ => ?_
    refine sound_bind h fun _ _ => ?_
    refine sound_bind (hmove _) fun _ _ => ?_
    refine sound_bind (sound_check _ _) fun _ _ => ?_
    exact sound_bind (hmove _) fun _ _ => sound_one sound_succeed

theorem sound_intercept (key : String)
    (hr : ∀ sequence ∈ recovery, sequence.Sound Record.AllSound Unchecked) {fault : Fault}
    (hv : fault.Valid) : (intercept key recovery fault).Sound Record.Sound Unchecked := by
  refine sound_bind (sound_one (sound_close hv)) fun _ _ => ?_
  cases recovery with
  | none => exact sound_one (Step.sound_fail hv)
  | some sequence =>
    refine sound_bind (sound_one (sound_publish key)) fun _ _ => ?_
    exact sound_file _ Record.allSound_nil (hr sequence rfl)
      fun _ own hrecords hown => Record.Sound.withErrorActions hown hrecords

theorem sound_handle (h : logic.Sound Record.Sound Unchecked)
    (hr : ∀ sequence ∈ recovery, sequence.Sound Record.AllSound Unchecked) :
    (handle head logic recovery).Sound Record.Sound Unchecked := by
  have hguarded : (guarded head logic recovery).Sound Record.Sound Unchecked := by
    refine sound_bind (sound_attempt (sound_attempted h)) fun result hresult => ?_
    cases result with
    | ok u => exact sound_pure trivial
    | error fault => exact sound_intercept _ hr (hresult fault rfl)
  refine sound_bind (sound_one (sound_mark _ _)) fun _ _ => ?_
  refine sound_bind (sound_attempt hguarded) fun result hresult => ?_
  refine sound_bind (sound_one (sound_publish _)) fun _ _ => ?_
  exact sound_one (Step.sound_ofExcept hresult)

end Lifecycle

section Loop

variable {key : String} {loop : Loop} {body : Turns (Entries Record) Unit}

theorem sound_once (h : body.Sound Record.AllSound Unchecked) (items : List Value)
    (i : IterationItem) : (once key items body i).Sound Record.Sound Unchecked := by
  refine sound_bind (sound_one (sound_ensureNotCancelled _)) fun _ _ => ?_
  refine sound_bind (sound_one (Loop.sound_progress _)) fun _ _ => ?_
  refine sound_bind (sound_one (sound_publish _)) fun _ _ => ?_
  refine sound_bind (sound_file _ Record.allSound_nil h fun _ own hrecords hown =>
    Record.Sound.addIteration hown i.index hrecords) fun _ _ => ?_
  exact sound_bind (sound_one (Loop.sound_progress _)) fun _ _ => sound_one (sound_publish _)

theorem sound_visit (h : body.Sound Record.AllSound Unchecked) (items : List Value)
    (places : List IterationItem) :
    (visit key loop items body places).Sound Record.Sound Unchecked := by
  induction places with
  | nil => exact sound_pure trivial
  | cons i rest ih =>
    have hcontinues : (continues key loop).Sound Record.Sound Unchecked := by
      unfold continues
      cases loop.doWhile with
      | none => exact sound_pure trivial
      | some c => exact sound_one (sound_resolve_any _ _)
    refine sound_bind (sound_once h items i) fun _ _ => ?_
    refine sound_bind hcontinues fun goesOn _ => ?_
    cases goesOn with
    | true => exact ih
    | false => exact sound_pure trivial

theorem sound_traverse (h : body.Sound Record.AllSound Unchecked) (items : List Value)
    (first last : Option Int) (reverse : Bool) :
    (traverse key loop body items first last reverse).Sound Record.Sound Unchecked := by
  unfold traverse
  split
  · exact sound_one (Loop.sound_progress _)
  · cases Range.resolve items.length first last reverse with
    | ok range =>
      refine sound_bind (sound_one (Loop.sound_progress _)) fun _ _ => ?_
      exact sound_bind (sound_visit h items _) fun _ _ => sound_one (Loop.sound_progress _)
    | error index => exact sound_one (Step.sound_fail (Fault.valid_indexOutOfRange _ _ _))

theorem sound_iterate (h : body.Sound Record.AllSound Unchecked) :
    (iterate key loop body).Sound Record.Sound Unchecked := by
  refine sound_bind (sound_one (sound_resolve_any _ _)) fun items _ => ?_
  refine sound_bind (sound_resolveOptional _ _ _) fun first _ => ?_
  refine sound_bind (sound_resolveOptional _ _ _) fun last _ => ?_
  refine sound_bind (sound_resolveOptional _ _ _) fun reverse _ => ?_
  exact sound_traverse h items first last _

end Loop

theorem sound_assign (key : String) (property : Provider) (path : Option Provider)
    (value : Provider) : (assign key property path value).Sound Record.Sound Unchecked := by
  refine sound_bind (sound_one (sound_resolve_any _ _)) fun name _ => ?_
  split
  · refine sound_bind (sound_resolveOptional _ _ _) fun path _ => ?_
    refine sound_bind (sound_one (sound_resolve_any _ _)) fun value _ => ?_
    refine sound_bind (sound_one (sound_modify fun _ hs => hs.setWrite _)) fun _ _ => ?_
    exact sound_one (Logic.sound_write _ _ _)
  · exact sound_one (Step.sound_fail (ProviderError.valid_toFault _))

theorem sound_logic (key : String) {logic : Logic} (h : (Kind.simple logic : Kind Action).Sound) :
    (Turns.logic key logic).Sound Record.Sound Unchecked := by
  cases logic with
  | raiseError p =>
    refine sound_bind (sound_one (sound_resolveFault key p)) fun fault hvalid => ?_
    refine sound_bind (sound_one (Logic.sound_record hvalid)) fun _ _ => ?_
    exact sound_one (Step.sound_fail hvalid)
  | setVariable property path value => exact sound_assign key property path value
  | external handler => exact sound_one (Logic.sound_call key (h handler rfl))

/-- Tasks are sound if each of them is, whatever order their turns are in. -/
theorem sound_fork {parts : List (Record × Turns Record Unit)}
    (h : ∀ part ∈ parts, part.1.Sound ∧ part.2.Sound Record.Sound Unchecked) :
    (fork parts : Turns ρ (List Task)).Sound J fun tasks => ∀ t ∈ tasks, t.Sound := by
  rintro own turns result last hown ⟨rfl, each, tasks, hended, -, rfl⟩
  refine ⟨hown, ?_, nofun⟩
  rintro _ ⟨⟩
  induction hended with
  | nil => exact nofun
  | @cons start last part turns result rest parts tasks ends others ih =>
    obtain ⟨hstart, hpart⟩ := h _ List.mem_cons_self
    obtain ⟨hlast, -, hcaught⟩ := hpart start turns result last hstart ends
    refine List.forall_mem_cons.mpr ⟨⟨fun _ => hlast, ?_⟩, ?_⟩
    · intro fault hf
      cases result with
      | ok u => cases hf
      | error other =>
        cases hf
        exact hcaught _ rfl
    · exact ih fun part hpart => h part (List.mem_cons_of_mem _ hpart)

end Turns

namespace Action

open ActionFlow.Frame Turns

theorem sound_sequenceTurns {actions : List Action}
    (h : ∀ b ∈ actions, b.turns.Sound Record.Sound Unchecked) :
    (sequenceTurns actions).Sound Record.AllSound Unchecked := by
  induction actions with
  | nil =>
    rw [sequenceTurns]
    exact Turns.sound_pure trivial
  | cons a rest ih =>
    have hmember : (member a.key a.freshRecord a.turns).Sound Record.AllSound Unchecked := by
      refine Turns.sound_bind (Turns.sound_nested (Record.sound_fresh a) (h a List.mem_cons_self))
        fun left hleft => ?_
      refine Turns.sound_bind (sound_one (sound_modify fun _ hs => hs.put hleft.1 a.key))
        fun _ _ => ?_
      exact sound_one (Step.sound_ofExcept hleft.2)
    rw [sequenceTurns]
    exact Turns.sound_bind hmember fun _ _ => ih fun b hb => h b (List.mem_cons_of_mem _ hb)

theorem sound_taskTurns {actions : List Action}
    (h : ∀ b ∈ actions, b.turns.Sound Record.Sound Unchecked) :
    ∀ part ∈ taskTurns actions, part.1.Sound ∧ part.2.Sound Record.Sound Unchecked := by
  induction actions with
  | nil =>
    rw [taskTurns]
    rintro _ ⟨⟩
  | cons a rest ih =>
    rw [taskTurns]
    refine List.forall_mem_cons.mpr ⟨⟨Record.sound_fresh a, h a List.mem_cons_self⟩, ?_⟩
    exact ih fun b hb => h b (List.mem_cons_of_mem _ hb)

theorem sound_kindTurns (key : String) {kind : Kind Action} (hk : kind.Sound)
    (h : ∀ b ∈ kind.actions, b.turns.Sound Record.Sound Unchecked) :
    (kindTurns key kind).Sound Record.Sound Unchecked := by
  have hmark : (one (mark key .running)).Sound Record.Sound Unchecked :=
    sound_one (sound_mark key .running)
  cases kind with
  | group parallel actions =>
    rw [kindTurns]
    refine Turns.sound_bind hmark fun _ _ => ?_
    refine Turns.sound_file _ Record.allSound_nil ?_
      fun _ _ hrecords hown => Record.Sound.setChildren hown hrecords
    cases parallel with
    | true =>
      exact Turns.sound_bind (sound_fork (sound_taskTurns h)) fun _ htasks =>
        sound_one (Task.sound_settle htasks)
    | false => exact sound_sequenceTurns h
  | iterate loop actions =>
    rw [kindTurns]
    exact Turns.sound_bind hmark fun _ _ => sound_iterate (sound_sequenceTurns h)
  | simple logic =>
    rw [kindTurns]
    exact Turns.sound_bind hmark fun _ _ => sound_logic key hk

theorem sound_turns_node (a : Action) (h : a.kind.Sound)
    (inside : ∀ b ∈ a.kind.actions, b.turns.Sound Record.Sound Unchecked)
    (recovery : ∀ b ∈ a.errorActions, b.turns.Sound Record.Sound Unchecked) :
    a.turns.Sound Record.Sound Unchecked := by
  rw [turns_eq]
  apply Turns.sound_handle (sound_kindTurns _ h inside)
  intro sequence hs
  split at hs
  · cases hs
  · cases hs
    exact sound_sequenceTurns recovery

theorem sound_turns {actions : List Action} (h : ∀ b ∈ forest actions, b.kind.Sound) :
    ∀ a ∈ actions, a.turns.Sound Record.Sound Unchecked := forest_induction sound_turns_node h

end Action

theorem Automation.sound_schedule {a : Automation}
    (h : ∀ b ∈ Action.forest a.actions, b.kind.Sound) {ctx last : Context} {turns : List Turn}
    {result : Except Fault Unit} {records : Entries Record}
    (hs : a.Schedule ctx turns result records last) :
    Caught result ∧ Record.AllSound records := by
  obtain ⟨hway, -⟩ := hs
  obtain ⟨hrecords, -, hcaught⟩ := Action.sound_sequenceTurns (Action.sound_turns h) [] turns result
    records Record.allSound_nil hway
  exact ⟨hcaught, hrecords⟩

end ActionFlow
