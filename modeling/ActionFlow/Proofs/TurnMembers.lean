import ActionFlow.Proofs.TurnRules

/-!
# Members in turns

The turns of a sequence or of a parallel group are those of its members, with turns in between that
change nothing.  `SequenceWays` says what has to be shown of one member of a sequence and carries it
through the sequence; the turns of the tasks of a group are taken apart one task after another.
-/
namespace ActionFlow

/-- The turn changes nothing that is shared. -/
structure Turn.Idle (t : Turn) : Prop where
  journal : t.journal = []
  after : t.after = t.before

/-- The turn in which an action publishes its record. -/
def Turn.showing (key : String) (r : Record) (c : Context) : Turn :=
  ⟨c, [], c.publish key r.snapshot⟩

theorem Turn.steady_showing {k key : String} (h : k ≠ key) (r : Record) (c : Context) :
    (Turn.showing key r c).Steady k := ⟨nofun, c.action?_publish_of_ne r.snapshot h⟩

theorem Turn.Idle.quiet {t : Turn} (h : t.Idle) : t.Quiet := by
  refine ⟨fun m hm => ?_, by rw [h.after]⟩
  rw [h.journal] at hm
  cases hm

/-! ### Two parts in one order -/

/-- The turns of two parts in one order, which keeps the order of each. -/
inductive Shuffle : List Turn → List Turn → List Turn → Prop
  | nil : Shuffle [] [] []
  | left (t : Turn) {xs ys zs : List Turn} (others : Shuffle xs ys zs) :
      Shuffle (t :: xs) ys (t :: zs)
  | right (t : Turn) {xs ys zs : List Turn} (others : Shuffle xs ys zs) :
      Shuffle xs (t :: ys) (t :: zs)

namespace Shuffle

variable {xs ys zs : List Turn}

theorem symm (h : Shuffle xs ys zs) : Shuffle ys xs zs := by
  induction h with
  | nil => exact .nil
  | left t others ih => exact .right t ih
  | right t others ih => exact .left t ih

theorem nil_left (ys : List Turn) : Shuffle [] ys ys := by
  induction ys with
  | nil => exact .nil
  | cons t rest ih => exact .right t ih

theorem append (xs ys : List Turn) : Shuffle xs ys (xs ++ ys) := by
  induction xs with
  | nil => exact nil_left ys
  | cons t rest ih => exact .left t ih

theorem mem (h : Shuffle xs ys zs) {t : Turn} : t ∈ zs ↔ t ∈ xs ∨ t ∈ ys := by
  induction h with
  | nil => simp
  | left u others ih => rw [List.mem_cons, List.mem_cons, ih, or_assoc]
  | right u others ih => rw [List.mem_cons, List.mem_cons, ih, or_left_comm]

theorem forall_mem (h : Shuffle xs ys zs) {P : Turn → Prop} (hx : ∀ t ∈ xs, P t)
    (hy : ∀ t ∈ ys, P t) : ∀ t ∈ zs, P t := fun t ht => (h.mem.mp ht).elim (hx t) (hy t)

end Shuffle

theorem Interleaving.eq_nil {turns : List Turn} (h : Interleaving [] turns) : turns = [] := by
  generalize hparts : ([] : List (List Turn)) = parts at h
  cases h with
  | none empty => rfl
  | next before others => simp at hparts

/-- The turns of the first part, and those of the others in their own order. -/
theorem Interleaving.shuffle {part : List Turn} {parts : List (List Turn)} {turns : List Turn}
    (h : Interleaving (part :: parts) turns) :
    ∃ others, Interleaving parts others ∧ Shuffle part others turns := by
  generalize hall : part :: parts = all at h
  induction h generalizing part parts with
  | none empty =>
    subst hall
    obtain ⟨rfl, hrest⟩ := List.forall_mem_cons.mp empty
    exact ⟨[], .none hrest, .nil⟩
  | @next before after t rest turns others ih =>
    cases before with
    | nil =>
      obtain ⟨rfl, rfl⟩ := List.cons.inj hall
      obtain ⟨later, hlater, hshuffle⟩ := ih rfl
      exact ⟨later, hlater, .left t hshuffle⟩
    | cons first before =>
      obtain ⟨rfl, rfl⟩ := List.cons.inj hall
      obtain ⟨later, hlater, hshuffle⟩ := ih rfl
      exact ⟨t :: later, .next before hlater, .right t hshuffle⟩

/-! ### Parts with their turns -/

/-- The step changes nothing that is shared. -/
def Step.Idle {ρ α : Type} (m : Step (Frame ρ) α) : Prop :=
  ∀ s, Turn.Idle ⟨s.context, (m s).journal, (m s).state.context⟩

namespace Turns

open ActionFlow.Frame

variable {ρ τ α β : Type} {key : String}

theorem idle_modify (f : ρ → ρ) : (modify f).Idle := fun _ => ⟨rfl, rfl⟩

theorem idle_fail (fault : Fault) : (.fail fault : Step (Frame ρ) α).Idle := fun _ => ⟨rfl, rfl⟩

theorem idle_ensureNotCancelled (key : String) :
    (ensureNotCancelled key : Step (Frame ρ) Unit).Idle := fun _ => ⟨rfl, rfl⟩

theorem idle_close (fault : Fault) : (close fault).Idle := fun _ => ⟨rfl, rfl⟩

theorem idle_move (target : Stage) : (move target).Idle := by
  intro s
  unfold move
  split <;> exact ⟨rfl, rfl⟩

theorem idle_settle (tasks : List Task) : (Task.settle tasks).Idle := by
  intro s
  rw [Task.settle_eq]
  exact ⟨rfl, rfl⟩

/-- After a step that cannot fail, the result that was held back goes on. -/
theorem resumed_way {m : Step (Frame ρ) Unit} (hm : ∀ s, (m s).result = .ok ()) {own last : ρ}
    {ended result : Except Fault Unit} {turns : List Turn}
    (h : (do one m; one (.ofExcept ended) : Turns ρ Unit) own turns result last) :
    ended = result ∧ ∃ c idle, last = (m ⟨own, c⟩).state.own ∧
      turns = ⟨c, (m ⟨own, c⟩).journal, (m ⟨own, c⟩).state.context⟩ :: idle ∧
      ∀ t ∈ idle, t.Idle := by
  rcases h with ⟨_, ⟨c, hresult, -⟩, -⟩ |
    ⟨_, middle, first, second, ⟨c, -, rfl, rfl⟩, ⟨d, hresult, rfl, rfl⟩, rfl⟩
  · rw [hm] at hresult
    cases hresult
  refine ⟨?_, c, _, rfl, rfl, List.forall_mem_singleton.mpr ⟨rfl, rfl⟩⟩
  cases ended <;> cases result <;> cases hresult <;> rfl

/-- A part that is filed has its turns at its place, and its result goes on. -/
theorem file_way {place : Place} {own : τ} {part : Turns τ Unit} {f : τ → ρ → ρ} {outer last : ρ}
    {turns : List Turn} {result : Except Fault Unit}
    (h : file place own part f outer turns result last) :
    ∃ inner left idle, part own inner result left ∧ last = f left outer ∧
      turns = inner.map (Turn.within place) ++ idle ∧ ∀ t ∈ idle, t.Idle := by
  rcases h with ⟨_, ⟨_, ⟨-, _, _, -, hleft⟩, -⟩, -⟩ |
    ⟨_, middle, first, second, ⟨inner, ⟨rfl, left, ended, hpart, hleft⟩, rfl⟩, hfiled, rfl⟩
  · cases hleft
  cases hleft
  obtain ⟨rfl, c, idle, rfl, rfl, hidle⟩ := resumed_way (fun _ => rfl) hfiled
  exact ⟨inner, left, _, hpart, rfl, rfl, List.forall_mem_cons.mpr ⟨⟨rfl, rfl⟩, hidle⟩⟩

theorem thenPublish_way {part : Turns Record Unit} {own last : Record} {turns : List Turn}
    {result : Except Fault Unit} (h : thenPublish key part own turns result last) :
    ∃ ran c idle, part own ran result last ∧ turns = ran ++ .showing key last c :: idle ∧
      ∀ t ∈ idle, t.Idle := by
  rcases h with ⟨_, ⟨_, -, hcaught⟩, -⟩ |
    ⟨caught, middle, ran, second, ⟨_, hran, hcaught⟩, hshown, rfl⟩
  · cases hcaught
  cases hcaught
  obtain ⟨rfl, c, idle, rfl, rfl, hidle⟩ := resumed_way (fun _ => rfl) hshown
  exact ⟨ran, c, idle, hran, rfl, hidle⟩

/-- A member has its record put among the others, and its result goes on. -/
theorem member_way {start : Record} {part : Turns Record Unit} {done records : Entries Record}
    {turns : List Turn} {result : Except Fault Unit}
    (h : member key start part done turns result records) :
    ∃ ran r idle, part start ran result r ∧ records = Entries.put done key r ∧
      turns = ran ++ idle ∧ ∀ t ∈ idle, t.Idle := by
  rcases h with ⟨_, ⟨-, _, _, -, hleft⟩, -⟩ |
    ⟨_, middle, ran, second, ⟨rfl, r, ended, hpart, hleft⟩, hput, rfl⟩
  · cases hleft
  cases hleft
  obtain ⟨rfl, c, idle, rfl, rfl, hidle⟩ := resumed_way (fun _ => rfl) hput
  exact ⟨ran, r, _, hpart, rfl, rfl, List.forall_mem_cons.mpr ⟨⟨rfl, rfl⟩, hidle⟩⟩

end Turns

namespace Action

open ActionFlow.Frame Turns

/-! ### Sequences -/

/-- A sequence goes on after its first member, or that member lets a fault escape. -/
theorem sequence_cons {a : Action} {rest : List Action} {done records : Entries Record}
    {turns : List Turn} {result : Except Fault Unit}
    (h : sequenceTurns (a :: rest) done turns result records) :
    (∃ ran idle r fault, a.turns a.freshRecord ran (.error fault) r ∧ (∀ t ∈ idle, t.Idle) ∧
      turns = ran ++ idle ∧ result = .error fault ∧ records = Entries.put done a.key r) ∨
    ∃ ran idle r later, a.turns a.freshRecord ran (.ok ()) r ∧ (∀ t ∈ idle, t.Idle) ∧
      sequenceTurns rest (Entries.put done a.key r) later result records ∧
      turns = ran ++ (idle ++ later) := by
  rw [sequenceTurns] at h
  rcases h with ⟨fault, hmember, rfl⟩ | ⟨_, middle, first, later, hmember, hrest, rfl⟩
  · obtain ⟨ran, r, idle, hran, rfl, rfl, hidle⟩ := member_way hmember
    exact .inl ⟨ran, idle, r, fault, hran, hidle, rfl, rfl, rfl⟩
  · obtain ⟨ran, r, idle, hran, rfl, rfl, hidle⟩ := member_way hmember
    exact .inr ⟨ran, idle, r, later, hran, hidle, hrest, List.append_assoc _ _ _⟩

/-- What the turns of each member keep, and turns that change nothing, the turns of the sequence
keep. -/
theorem sequence_gathers {V : List Turn → Prop} (nil : V [])
    (append : ∀ {xs ys}, V xs → V ys → V (xs ++ ys))
    (idle : ∀ {turns}, (∀ t ∈ turns, t.Idle) → V turns) {actions : List Action}
    (h : ∀ a ∈ actions, ∀ turns result r, a.turns a.freshRecord turns result r → V turns)
    {done records : Entries Record} {turns : List Turn} {result : Except Fault Unit}
    (hs : sequenceTurns actions done turns result records) : V turns := by
  induction actions generalizing done turns with
  | nil =>
    rw [sequenceTurns] at hs
    obtain ⟨rfl, -, -⟩ := hs
    exact nil
  | cons a rest ih =>
    have hfirst := h a List.mem_cons_self
    rcases sequence_cons hs with ⟨ran, rests, r, fault, hran, hidle, rfl, -, -⟩ |
      ⟨ran, rests, r, later, hran, hidle, hlater, rfl⟩
    · exact append (hfirst ran _ r hran) (idle hidle)
    · have hothers := ih (fun b hb => h b (List.mem_cons_of_mem _ hb)) hlater
      exact append (hfirst ran _ r hran) (append (idle hidle) hothers)

/-- A condition on the turns of a sequence, the records that it adds and its fault. -/
structure SequenceWays (actions : List Action)
    (R : List Turn → Entries Record → Option Fault → Prop) : Prop where
  nil : R [] [] none
  stop : ∀ a ∈ actions, ∀ ran idle r fault, a.turns a.freshRecord ran (.error fault) r →
    (∀ t ∈ idle, t.Idle) → R (ran ++ idle) [(a.key, r)] (some fault)
  step : ∀ a ∈ actions, ∀ ran idle r later rest x, a.turns a.freshRecord ran (.ok ()) r →
    (∀ t ∈ idle, t.Idle) → R later rest x → R (ran ++ (idle ++ later)) ((a.key, r) :: rest) x

/-- A sequence adds records of its first actions, of all of them unless a fault stops it. -/
theorem SequenceWays.run {actions : List Action}
    {R : List Turn → Entries Record → Option Fault → Prop} (h : SequenceWays actions R)
    (hn : (actions.map key).Nodup) {done records : Entries Record} {turns : List Turn}
    {result : Except Fault Unit} (hd : ∀ a ∈ actions, a.key ∉ Entries.keys done)
    (hs : sequenceTurns actions done turns result records) :
    ∃ added, records = done ++ added ∧ Entries.keys added <+: actions.map key ∧
      (fault? result = none → Entries.keys added = actions.map key) ∧
      R turns added (fault? result) := by
  -- The records so far only grow at the end, since no key of the rest is among theirs.
  induction actions generalizing done turns with
  | nil =>
    rw [sequenceTurns] at hs
    obtain ⟨rfl, rfl, rfl⟩ := hs
    exact ⟨[], (List.append_nil _).symm, List.nil_prefix, fun _ => rfl, h.nil⟩
  | cons a rest ih =>
    rcases sequence_cons hs with ⟨ran, idle, r, fault, hran, hidle, rfl, rfl, rfl⟩ |
      ⟨ran, idle, r, later, hran, hidle, hrest, rfl⟩
    · refine ⟨[(a.key, r)], Entries.put_of_not_mem (hd a List.mem_cons_self) r, ?_,
        fun hnone => (by cases hnone), ?_⟩
      · exact List.cons_prefix_cons.mpr ⟨rfl, List.nil_prefix⟩
      · exact h.stop a List.mem_cons_self ran idle r fault hran hidle
    · rw [Entries.put_of_not_mem (hd a List.mem_cons_self)] at hrest
      obtain ⟨hnot, hnodup⟩ := List.nodup_cons.mp hn
      have hd' : ∀ b ∈ rest, b.key ∉ Entries.keys (done ++ [(a.key, r)]) := by
        intro b hb
        refine Entries.not_mem_keys_concat (hd b (List.mem_cons_of_mem _ hb)) fun he => ?_
        exact hnot (he ▸ List.mem_map_of_mem hb)
      obtain ⟨added, rfl, hp, ha, hR⟩ := ih
        ⟨h.nil, fun b hb => h.stop b (List.mem_cons_of_mem _ hb),
          fun b hb => h.step b (List.mem_cons_of_mem _ hb)⟩ hnodup hd' hrest
      refine ⟨(a.key, r) :: added, ?_, ?_, ?_, ?_⟩
      · rw [List.append_assoc, List.singleton_append]
      · exact List.cons_prefix_cons.mpr ⟨rfl, hp⟩
      · intro hx
        rw [Entries.keys_cons, ha hx, List.map_cons]
      · exact h.step a List.mem_cons_self ran idle r later added _ hran hidle hR

/-! ### Groups -/

def childrenTurns (parallel : Bool) (actions : List Action) : Turns (Entries Record) Unit :=
  if parallel then together (taskTurns actions) else sequenceTurns actions

theorem ended_cons {a : Action} {rest : List Action} {each : List (List Turn)} {tasks : List Task}
    (h : Ended (taskTurns (a :: rest)) each tasks) :
    ∃ ran r result others later, a.turns a.freshRecord ran result r ∧
      Ended (taskTurns rest) others later ∧ each = ran :: others ∧
      tasks = ⟨a.freshRecord, .finished r result⟩ :: later := by
  rw [taskTurns] at h
  cases h with
  | cons ends others => exact ⟨_, _, _, _, _, ends, others, rfl, rfl⟩

theorem start_ended {actions : List Action} {each : List (List Turn)} {tasks : List Task}
    (h : Ended (taskTurns actions) each tasks) :
    tasks.map Task.start = actions.map freshRecord := by
  induction actions generalizing each tasks with
  | nil =>
    rw [taskTurns] at h
    cases h
    rfl
  | cons a rest ih =>
    obtain ⟨ran, r, result, others, later, -, hothers, rfl, rfl⟩ := ended_cons h
    rw [List.map_cons, List.map_cons, ih hothers]

theorem keys_of_start {actions : List Action} {tasks : List Task}
    (h : tasks.map Task.start = actions.map freshRecord) :
    (tasks.map fun t => t.start.key) = actions.map key := by
  have hmap := congrArg (List.map Record.key) h
  rw [List.map_map, List.map_map] at hmap
  exact hmap

/-- The tasks of a group take turns in some order, and are put together in the end. -/
theorem together_ways {actions : List Action} {turns : List Turn} {result : Except Fault Unit}
    {records : Entries Record} (h : together (taskTurns actions) [] turns result records) :
    ∃ each tasks inner idle c, Ended (taskTurns actions) each tasks ∧ Interleaving each inner ∧
      turns = inner ++ idle ∧ (∀ t ∈ idle, t.Idle) ∧
      (Task.settle tasks ⟨[], c⟩).result = result.mapError .error ∧
      (Task.settle tasks ⟨[], c⟩).state.own = records := by
  rcases h with ⟨_, ⟨-, _, _, -, -, hresult⟩, -⟩ |
    ⟨ended, middle, inner, last, ⟨rfl, each, tasks, hended, horder, hresult⟩, hsettle, rfl⟩
  · cases hresult
  obtain rfl : ended = tasks := Except.ok.inj hresult
  obtain ⟨c, hr, hown, rfl⟩ := hsettle
  refine ⟨each, ended, inner, _, c, hended, horder, rfl, ?_, hr, hown⟩
  exact List.forall_mem_singleton.mpr (idle_settle ended ⟨[], c⟩)

end Action

end ActionFlow
