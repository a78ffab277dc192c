import ActionFlow.Proofs.Turns

/-!
# How parts of a run end in turns

`Gives` describes a way of a part whose turns nothing comes between.  Such a way of a part that is
made of others is made of theirs: each lemma here takes one apart, and gives the endings of the
parts.
-/
namespace ActionFlow

theorem Linked.split {c d : Context} {first second : List Turn} (h : Linked c (first ++ second) d) :
    ∃ e, Linked c first e ∧ Linked e second d := by
  induction first generalizing c with
  | nil => exact ⟨c, rfl, h⟩
  | cons t rest ih =>
    obtain ⟨e, hfirst, hsecond⟩ := ih h.2
    exact ⟨e, ⟨h.1, hfirst⟩, hsecond⟩

theorem Linked.of_within {c d : Context} {place : Place} {turns : List Turn}
    (h : Linked c (turns.map (Turn.within place)) d) : Linked c turns d := by
  induction turns generalizing c with
  | nil => exact h
  | cons t rest ih => exact ⟨h.1, ih h.2⟩

namespace Turns

open ActionFlow.Frame

variable {ρ τ α β : Type} {s : Frame ρ} {turns : List Turn}

theorem Gives.settled {p : Turns ρ α} {e : Ending (Frame ρ) α} {result : Except Fault α}
    (h : p.Gives s e turns result) : e.Settled := by
  intro panic hpanic
  rw [h.ends] at hpanic
  cases result with
  | ok a => cases hpanic
  | error fault => cases hpanic

theorem Gives.of_one {m : Step (Frame ρ) α} {e : Ending (Frame ρ) α} {result : Except Fault α}
    (h : (one m).Gives s e turns result) : m s = e := by
  obtain ⟨hresult, hjournal, hlinked, c, hends, hown, rfl⟩ := h
  obtain ⟨hc, hcontext⟩ := hlinked
  have hc : c = s.context := hc
  subst hc
  have hcontext : (m s).state.context = e.state.context := hcontext
  have hown : (m s).state.own = e.state.own := hown
  have hjournal : e.journal = (m s).journal ++ [] := hjournal
  calc m s = ⟨(m s).result, ⟨(m s).state.own, (m s).state.context⟩, (m s).journal⟩ := rfl
    _ = ⟨e.result, ⟨e.state.own, e.state.context⟩, e.journal⟩ := by
      rw [hown, hcontext, hjournal, List.append_nil, hresult, ← hends]
    _ = e := rfl

theorem Gives.of_pure {a : α} {e : Ending (Frame ρ) α} {result : Except Fault α}
    (h : (pure a : Turns ρ α).Gives s e turns result) :
    e = ⟨.ok a, s, []⟩ ∧ result = .ok a := by
  obtain ⟨hresult, hjournal, hlinked, rfl, rfl, hown⟩ := h
  have hcontext : s.context = e.state.context := hlinked
  have hjournal : e.journal = [] := hjournal
  refine ⟨?_, rfl⟩
  calc e = ⟨e.result, ⟨e.state.own, e.state.context⟩, e.journal⟩ := rfl
    _ = ⟨.ok a, ⟨s.own, s.context⟩, []⟩ := by rw [hown, ← hcontext, hjournal, hresult]; rfl
    _ = ⟨.ok a, s, []⟩ := rfl

theorem Gives.of_ofExcept {ended : Except Fault α} {e : Ending (Frame ρ) α}
    {result : Except Fault α} (h : (one (.ofExcept ended)).Gives s e turns result) :
    e = ⟨ended.mapError .error, s, []⟩ ∧ result = ended := by
  have he : Step.ofExcept ended s = e := h.of_one
  have hends : ended.mapError Stop.error = result.mapError Stop.error :=
    (congrArg Ending.result he).trans h.ends
  refine ⟨he.symm, ?_⟩
  cases ended with
  | ok a =>
    cases result with
    | ok b =>
      cases hends
      rfl
    | error fault => cases hends
  | error fault =>
    cases result with
    | ok b => cases hends
    | error other =>
      cases hends
      rfl

theorem Gives.of_bind {p : Turns ρ α} {next : α → Turns ρ β} {e : Ending (Frame ρ) β}
    {result : Except Fault β} (h : (p >>= next).Gives s e turns result) :
    (∃ fault, p.Gives s ⟨.error (.error fault), e.state, e.journal⟩ turns (.error fault) ∧
      e.result = .error (.error fault)) ∨
    ∃ a first second ways others, p.Gives s first ways (.ok a) ∧
      (next a).Gives first.state second others result ∧
      e = ⟨second.result, second.state, first.journal ++ second.journal⟩ := by
  obtain ⟨hresult, hjournal, hlinked, hway⟩ := h
  rcases hway with ⟨fault, hfirst, rfl⟩ | ⟨a, own, ways, others, hfirst, hsecond, rfl⟩
  · exact .inl ⟨fault, ⟨rfl, hjournal, hlinked, hfirst⟩, hresult⟩
  · obtain ⟨c, hbefore, hafter⟩ := hlinked.split
    rw [List.flatMap_append] at hjournal
    refine .inr ⟨a, ⟨.ok a, ⟨own, c⟩, ways.flatMap Turn.journal⟩,
      ⟨e.result, e.state, others.flatMap Turn.journal⟩, ways, others,
      ⟨rfl, rfl, hbefore, hfirst⟩, ⟨hresult, rfl, hafter, hsecond⟩, ?_⟩
    rw [← hjournal]

/-- After a step that succeeds. -/
theorem Gives.of_one_bind {m : Step (Frame ρ) α} {next : α → Turns ρ β} {e : Ending (Frame ρ) β}
    {result : Except Fault β} {a : α} {s' : Frame ρ} {journal : List Moment}
    (hm : m s = ⟨.ok a, s', journal⟩) (h : (one m >>= next).Gives s e turns result) :
    ∃ second others, (next a).Gives s' second others result ∧
      e = ⟨second.result, second.state, journal ++ second.journal⟩ := by
  rcases h.of_bind with ⟨fault, hfirst, -⟩ | ⟨b, first, second, ways, others, hfirst, hsecond, rfl⟩
  · have hends := congrArg Ending.result (hm.symm.trans hfirst.of_one)
    cases hends
  · obtain rfl : ⟨.ok a, s', journal⟩ = first := hm.symm.trans hfirst.of_one
    have hends := hfirst.ends
    cases hends
    exact ⟨second, others, hsecond, rfl⟩

theorem Gives.of_attempt_bind {p : Turns ρ α} {next : Except Fault α → Turns ρ β}
    {e : Ending (Frame ρ) β} {result : Except Fault β}
    (h : (p.attempt >>= next).Gives s e turns result) :
    ∃ caught first second ways others, p.Gives s first ways caught ∧
      (next caught).Gives first.state second others result ∧
      e = ⟨second.result, second.state, first.journal ++ second.journal⟩ := by
  rcases h.of_bind with ⟨fault, hfirst, -⟩ |
    ⟨caught, first, second, ways, others, hfirst, hsecond, rfl⟩
  · obtain ⟨_, -, hcaught⟩ := hfirst.goes
    cases hcaught
  · obtain ⟨result, hway, hcaught⟩ := hfirst.goes
    cases hcaught
    exact ⟨caught, ⟨caught.mapError .error, first.state, first.journal⟩, second, ways, others,
      ⟨rfl, hfirst.journal, hfirst.linked, hway⟩, hsecond, rfl⟩

theorem Gives.of_file {place : Place} {own : τ} {part : Turns τ Unit} {f : τ → ρ → ρ}
    {e : Ending (Frame ρ) Unit} {result : Except Fault Unit}
    (h : (file place own part f).Gives s e turns result) :
    ∃ inner ways, part.Gives ⟨own, s.context⟩ inner ways result ∧
      e = ⟨inner.result, ⟨f inner.state.own s.own, inner.state.context⟩,
        inner.journal.map (Moment.within place)⟩ := by
  -- The fault of the part is kept as a value until the part is filed, so the first step succeeds.
  rcases h.of_bind with
    ⟨fault, hfirst, -⟩ | ⟨left, first, second, ways, others, hfirst, hsecond, rfl⟩
  · obtain ⟨_, ⟨-, _, _, -, hleft⟩, -⟩ := hfirst.goes
    cases hleft
  obtain ⟨inner, ⟨hown, left, ended, hpart, hleft⟩, rfl⟩ := hfirst.goes
  cases hleft
  obtain ⟨third, last, hthird, rfl⟩ := hsecond.of_one_bind rfl
  obtain ⟨rfl, rfl⟩ := hthird.of_ofExcept
  refine ⟨⟨result.mapError .error, ⟨left, first.state.context⟩, inner.flatMap Turn.journal⟩, inner,
    ⟨rfl, rfl, hfirst.linked.of_within, hpart⟩, ?_⟩
  rw [hfirst.journal, Turn.journal_within, ← hown]
  simp

theorem Gives.of_thenPublish {key : String} {part : Turns Record Unit} {s : Frame Record}
    {e : Ending (Frame Record) Unit} {result : Except Fault Unit}
    (h : (thenPublish key part).Gives s e turns result) :
    ∃ ran ways, part.Gives s ran ways result ∧
      e = ⟨ran.result,
        ⟨ran.state.own, ran.state.context.publish key ran.state.own.snapshot⟩, ran.journal⟩ := by
  obtain ⟨caught, ran, second, ways, others, hran, hsecond, rfl⟩ := h.of_attempt_bind
  obtain ⟨third, last, hthird, rfl⟩ := hsecond.of_one_bind rfl
  obtain ⟨rfl, rfl⟩ := hthird.of_ofExcept
  refine ⟨ran, ways, hran, ?_⟩
  rw [hran.ends]
  simp

/-! ### The handling of an action -/

section Handling

variable {head : Head} {logic : Turns Record Unit} {recovery : Option (Turns (Entries Record) Unit)}
  {s : Frame Record} {e : Ending (Frame Record) Unit} {result : Except Fault Unit}

theorem Gives.of_handle (h : (handle head logic recovery).Gives s e turns result) :
    ∃ ran ways, (guarded head logic recovery).Gives s ran ways result ∧
      e = ⟨ran.result,
        ⟨ran.state.own, ran.state.context.publish head.key ran.state.own.snapshot⟩,
        ⟨[.action head.key], .entered, s.context⟩ :: ran.journal⟩ := by
  obtain ⟨published, _, hpublished, rfl⟩ := Gives.of_one_bind rfl h
  obtain ⟨ran, ways, hran, rfl⟩ := hpublished.of_thenPublish
  exact ⟨ran, ways, hran, rfl⟩

theorem Gives.of_guarded (h : (guarded head logic recovery).Gives s e turns result) :
    (∃ left first, (attempted head logic).Gives s left first (.ok ()) ∧ result = .ok () ∧
      e = ⟨.ok (), left.state, left.journal⟩) ∨
    ∃ fault left first rest others, (attempted head logic).Gives s left first (.error fault) ∧
      (intercept head.key recovery fault).Gives left.state rest others result ∧
      e = ⟨rest.result, rest.state, left.journal ++ rest.journal⟩ := by
  obtain ⟨caught, left, rest, first, others, hleft, hrest, rfl⟩ := h.of_attempt_bind
  cases caught with
  | ok u =>
    obtain ⟨rfl, rfl⟩ := hrest.of_pure
    refine .inl ⟨left, first, hleft, rfl, ?_⟩
    rw [List.append_nil]
  | error fault => exact .inr ⟨fault, left, first, rest, others, hleft, hrest, rfl⟩

theorem Gives.of_intercept {key : String} {sequence : Turns (Entries Record) Unit} {fault : Fault}
    (h : (intercept key (some sequence) fault).Gives s e turns result) :
    let r := s.own.lost s.context.clock fault
    ∃ later ways, sequence.Gives ⟨[], s.context.publish key r.snapshot⟩ later ways result ∧
      e = ⟨later.result, ⟨{ r with errorActions := later.state.own }, later.state.context⟩,
        later.journal.map (Moment.within (.recovery key))⟩ := by
  obtain ⟨closed, _, hclosed, rfl⟩ := Gives.of_one_bind rfl h
  obtain ⟨shown, _, hshown, rfl⟩ := hclosed.of_one_bind rfl
  obtain ⟨later, ways, hlater, rfl⟩ := hshown.of_file
  exact ⟨later, ways, hlater, rfl⟩

end Handling

/-! ### Lifecycles with a logic -/

/-- The step that ends so wherever it starts. -/
def always (e : Ending (Frame ρ) α) : Step (Frame ρ) α := fun _ => e

/-- Every way of the part ends like the step. -/
def Exactly (p : Turns ρ α) (m : Step (Frame ρ) α) : Prop :=
  ∀ s e turns result, p.Gives s e turns result → m s = e

theorem exactly_one (m : Step (Frame ρ) α) : (one m).Exactly m := fun _ _ _ _ h => h.of_one

theorem exactly_pure (a : α) : (pure a : Turns ρ α).Exactly (pure a) :=
  fun _ _ _ _ h => h.of_pure.1.symm

section Bind

variable {p : Turns ρ α} {m : Step (Frame ρ) α} {next : α → Turns ρ β}
  {e : Ending (Frame ρ) β} {result : Except Fault β}

theorem Exactly.bind_cases (hp : p.Exactly m) (h : (p >>= next).Gives s e turns result) :
    (∀ n : α → Step (Frame ρ) β, (m >>= n) s = e) ∨
      ∃ a second others, (m s).result = .ok a ∧ (next a).Gives (m s).state second others result ∧
        ∀ n : α → Step (Frame ρ) β, n a (m s).state = second → (m >>= n) s = e := by
  rcases h.of_bind with ⟨fault, hfirst, hresult⟩ |
    ⟨a, first, second, ways, others, hfirst, hsecond, rfl⟩
  · have hm := hp s _ turns _ hfirst
    refine .inl fun n => ?_
    rw [Step.bind_of_error (congrArg Ending.result hm), hm]
    show (⟨.error (.error fault), e.state, e.journal⟩ : Ending _ _) = e
    rw [← hresult]
  · have hm := hp s first ways _ hfirst
    subst hm
    refine .inr ⟨a, second, others, hfirst.ends, hsecond, fun n hn => ?_⟩
    rw [Step.bind_of_ok hfirst.ends, hn]

theorem exactly_bind {n : α → Step (Frame ρ) β} (hp : p.Exactly m)
    (hn : ∀ a, (next a).Exactly (n a)) : (p >>= next).Exactly (m >>= n) := by
  intro s e turns result h
  rcases hp.bind_cases h with hall | ⟨a, second, others, -, hsecond, hbind⟩
  · exact hall n
  · exact hbind n (hn a _ second others result hsecond)

end Bind

theorem exactly_check (key : String) (conditions : List ErrorCondition) :
    (check key conditions).Exactly (Lifecycle.check key conditions) := by
  induction conditions with
  | nil => exact exactly_pure ()
  | cons e rest ih =>
    refine exactly_bind (exactly_one _) fun holds => ?_
    cases holds with
    | true => exact exactly_bind (exactly_one _) fun fault => exactly_one _
    | false => exact ih

theorem exactly_wanted (head : Head) : (wanted head).Exactly (Lifecycle.wanted head) := by
  unfold wanted Lifecycle.wanted
  cases head.runCondition with
  | none => exact exactly_pure true
  | some c => exact exactly_one _

/-- From `s` every way of the part ends like the step around some logic: it does not get to the
logic, or the logic ends like one of its ways from `start`. -/
def Around (logic : Turns Record Unit) (start : Frame Record) (p : Turns Record α)
    (m : Step (Frame Record) Unit → Step (Frame Record) α) (s : Frame Record) : Prop :=
  ∀ e turns result, p.Gives s e turns result → (∀ other, m other s = e) ∨
    ∃ inner ways ended, logic.Gives start inner ways ended ∧ m (always inner) s = e

section Around

variable {logic : Turns Record Unit} {start s : Frame Record}

theorem Exactly.around {p : Turns Record α} {m : Step (Frame Record) α} (h : p.Exactly m) :
    Around logic start p (fun _ => m) s :=
  fun e turns result hg => .inl fun _ => h s e turns result hg

theorem Exactly.around_bind {p : Turns Record α} {m : Step (Frame Record) α}
    {next : α → Turns Record β} {n : Step (Frame Record) Unit → α → Step (Frame Record) β}
    (hp : p.Exactly m)
    (hn : ∀ a, (m s).result = .ok a → Around logic start (next a) (fun l => n l a) (m s).state) :
    Around logic start (p >>= next) (fun l => m >>= n l) s := by
  intro e turns result h
  rcases hp.bind_cases h with hall | ⟨a, second, others, hresult, hsecond, hbind⟩
  · exact .inl fun other => hall (n other)
  · rcases hn a hresult second others result hsecond with hall | ⟨inner, ways, ended, hran, hm⟩
    · exact .inl fun other => hbind (n other) (hall other)
    · exact .inr ⟨inner, ways, ended, hran, hbind (n (always inner)) hm⟩

theorem around_logic {next : Unit → Turns Record β} {n : Unit → Step (Frame Record) β}
    (hn : ∀ u, (next u).Exactly (n u)) :
    Around logic start (logic >>= next) (fun l => l >>= n) start := by
  intro e turns result h
  rcases h.of_bind with ⟨fault, hfirst, hresult⟩ |
    ⟨u, first, second, ways, others, hfirst, hsecond, rfl⟩
  · refine .inr ⟨_, turns, _, hfirst, (Step.bind_of_error hfirst.ends).trans ?_⟩
    show (⟨.error (.error fault), e.state, e.journal⟩ : Ending _ _) = e
    rw [← hresult]
  · refine .inr ⟨first, ways, _, hfirst, (Step.bind_of_ok hfirst.ends).trans ?_⟩
    have hrest : n u first.state = second := hn u _ second others result hsecond
    rw [← hrest]
    rfl

/-- An attempt that takes turns is an attempt with a logic that ends in one of its ways. -/
theorem around_attempted (head : Head) {r : Record} (hr : r.stage = .notStarted) (c : Context) :
    Around logic ⟨(r.begun c.clock).atStage .running, c⟩ (attempted head logic)
      (fun l => Lifecycle.attempted head l) ⟨r, c⟩ := by
  have hbegun : (move .started ⟨r, c⟩).state = ⟨r.begun c.clock, c⟩ := by
    rw [move_of_canMove (by rw [hr]; rfl)]
    rfl
  refine (exactly_one (move .started)).around_bind fun _ _ => ?_
  rw [hbegun]
  refine (exactly_one (ensureNotCancelled head.key)).around_bind fun _ _ => ?_
  rw [Frame.reads_ensureNotCancelled]
  refine (exactly_wanted head).around_bind fun wants _ => ?_
  rw [Lifecycle.reads_wanted]
  cases wants with
  | false => exact (exactly_bind (exactly_one _) fun _ => exactly_one _).around
  | true =>
    refine (exactly_one (move .beforeRunErrorChecking)).around_bind fun _ _ => ?_
    refine (exactly_check _ _).around_bind fun _ _ => ?_
    rw [Lifecycle.reads_check]
    refine (exactly_one (move .running)).around_bind fun _ _ => ?_
    refine around_logic fun _ => exactly_bind (exactly_one _) fun _ => ?_
    refine exactly_bind (exactly_check _ _) fun _ => ?_
    exact exactly_bind (exactly_one _) fun _ => exactly_one _

end Around

end Turns

end ActionFlow
