import ActionFlow.Proofs.TurnRules

/-!
# What actions see of each other

The others see an action once it is over, or while it iterates.  Every turn of a run keeps what is
published, or publishes something that may be seen; and what is published of an iteration under way
is replaced in a later turn.  Both hold in any order of the tasks.
-/
namespace ActionFlow

def Value.Over (v : Value) : Prop := ∃ r : Record, v = r.snapshot ∧ r.Over

/-- A snapshot that others may see. -/
def Value.Shown (v : Value) : Prop := ∃ r : Record, v = r.snapshot ∧ (r.Over ∨ r.Iterating)

namespace Context

def Shown (c : Context) : Prop := ∀ key v, c.action? key = some v → v.Shown

/-- Between the contexts no key is lost, and what changes under a key may be seen. -/
structure Leads (c d : Context) : Prop where
  kept : ∀ key ∈ Entries.keys c.published, key ∈ Entries.keys d.published
  shown : ∀ key v, d.action? key = some v → c.action? key = some v ∨ v.Shown

/-- How the published snapshots unfold from the context `c` through the moments of a journal to the
context `d`. -/
structure Unfolds (c : Context) (journal : List Moment) (d : Context) : Prop where
  shown : ∀ e ∈ journal.map Moment.context ++ [d], e.Shown
  /-- No key is lost between any two moments. -/
  kept : (c :: (journal.map Moment.context ++ [d])).Pairwise fun e e' =>
    ∀ key ∈ Entries.keys e.published, key ∈ Entries.keys e'.published
  ended : ∀ key v, d.action? key = some v → v.Over ∨ c.action? key = some v

variable {c d e : Context}

theorem action?_congr (h : d.published = c.published) (key : String) :
    d.action? key = c.action? key := by
  unfold action?
  rw [h]

theorem Leads.of_eq (h : d.published = c.published) : c.Leads d :=
  ⟨fun _ hk => h ▸ hk, fun key _ hv => .inl (action?_congr h key ▸ hv)⟩

theorem Leads.trans (h : c.Leads d) (h' : d.Leads e) : c.Leads e where
  kept := fun key hk => h'.kept key (h.kept key hk)
  shown := fun key v hv => (h'.shown key v hv).elim (h.shown key v) .inr

theorem Leads.publish (c : Context) (key : String) {v : Value} (hv : v.Shown) :
    c.Leads (c.publish key v) where
  kept := fun _ hk => Entries.mem_keys_put.mpr (.inr hk)
  shown := by
    intro other w hw
    by_cases ho : other = key
    · subst ho
      rw [c.action?_publish_self] at hw
      exact .inr (Option.some.inj hw ▸ hv)
    · rw [c.action?_publish_of_ne v ho] at hw
      exact .inl hw

theorem Shown.of_leads (h : c.Shown) (hl : c.Leads d) : d.Shown := fun key v hv =>
  (hl.shown key v hv).elim (h key v) id

end Context

/-! ### What a turn publishes -/

/-- The turn publishes nothing, or one snapshot that may be seen. -/
def Turn.Proper (t : Turn) : Prop :=
  t.Quiet ∨ t.journal = [] ∧ ∃ key v, v.Shown ∧ t.after = t.before.publish key v

theorem turnRule_proper : TurnRule fun turns => ∀ t ∈ turns, t.Proper := by
  refine turnRule_forall (fun place t ht => ?_) .inl
  rcases ht with hquiet | ⟨hjournal, hpublish⟩
  · refine .inl ⟨fun m hm => ?_, hquiet.after⟩
    obtain ⟨moment, hmoment, rfl⟩ := List.mem_map.mp hm
    exact hquiet.journal moment hmoment
  · exact .inr ⟨by simp [Turn.within, hjournal], hpublish⟩

theorem concludes_proper (key : String) :
    Concludes (fun turns => ∀ t ∈ turns, t.Proper) key := fun _ r hr =>
  List.forall_mem_singleton.mpr (.inr ⟨rfl, key, r.snapshot, ⟨r, rfl, .inl hr⟩, rfl⟩)

theorem progresses_proper (key : String) :
    Progresses (fun turns => ∀ t ∈ turns, t.Proper) key := fun _ r hr =>
  List.forall_mem_singleton.mpr (.inr ⟨rfl, key, r.snapshot, ⟨r, rfl, .inr hr⟩, rfl⟩)

/-! ### What is published of an iteration under way -/

namespace Turn

def Settles (key : String) (t : Turn) : Prop := ∃ v, t.after.action? key = some v ∧ v.Over

/-- The turn leaves something new under the key that is not over. -/
def Disturbs (key : String) (t : Turn) : Prop :=
  ∃ v, t.after.action? key = some v ∧ t.before.action? key ≠ some v ∧ ¬ v.Over

theorem Quiet.not_disturbs {t : Turn} (h : t.Quiet) (key : String) : ¬ t.Disturbs key := by
  rintro ⟨v, hafter, hbefore, -⟩
  exact hbefore (Context.action?_congr h.after key ▸ hafter)

end Turn

/-- Whatever is left under the key that is not over is replaced later. -/
def Resolved (key : String) : List Turn → Prop
  | [] => True
  | t :: rest => (t.Disturbs key → ∃ later ∈ rest, later.Settles key) ∧ Resolved key rest

namespace Resolved

variable {key : String}

theorem append {xs ys : List Turn} (hx : Resolved key xs) (hy : Resolved key ys) :
    Resolved key (xs ++ ys) := by
  induction xs with
  | nil => exact hy
  | cons t rest ih =>
    refine ⟨fun ht => ?_, ih hx.2⟩
    obtain ⟨later, hmem, hsettles⟩ := hx.1 ht
    exact ⟨later, List.mem_append_left _ hmem, hsettles⟩

theorem of_settles {t : Turn} (ht : t.Settles key) (xs : List Turn) {rest : List Turn}
    (hrest : Resolved key rest) : Resolved key (xs ++ t :: rest) := by
  induction xs with
  | nil =>
    refine ⟨?_, hrest⟩
    rintro ⟨v, hafter, -, hover⟩
    obtain ⟨w, hafter', hover'⟩ := ht
    exact absurd (Option.some.inj (hafter.symm.trans hafter') ▸ hover') hover
  -- Whatever an earlier turn disturbs, `t` is still to come.
  | cons x xs ih => exact ⟨fun _ => ⟨t, by simp, ht⟩, ih⟩

theorem singleton {t : Turn} (h : ¬ t.Disturbs key) : Resolved key [t] :=
  ⟨fun ht => absurd ht h, trivial⟩

theorem interleave {parts : List (List Turn)} {turns : List Turn} (h : Interleaving parts turns)
    (hparts : ∀ part ∈ parts, Resolved key part) : Resolved key turns := by
  induction h with
  | none _ => trivial
  | @next before after t rest turns others ih =>
    obtain ⟨hbefore, hpart, hafter⟩ :
        (∀ part ∈ before, Resolved key part) ∧ Resolved key (t :: rest) ∧
          ∀ part ∈ after, Resolved key part := by
      simpa only [List.forall_mem_append, List.forall_mem_cons] using hparts
    refine ⟨fun ht => ?_, ih ?_⟩
    · obtain ⟨later, hmem, hsettles⟩ := hpart.1 ht
      exact ⟨later, others.mem.mpr ⟨rest, by simp, hmem⟩, hsettles⟩
    · exact List.forall_mem_append.mpr ⟨hbefore, List.forall_mem_cons.mpr ⟨hpart.2, hafter⟩⟩

theorem within {turns : List Turn} (place : Place) (h : Resolved key turns) :
    Resolved key (turns.map (Turn.within place)) := by
  induction turns with
  | nil => exact h
  | cons t rest ih =>
    refine ⟨fun ht => ?_, ih h.2⟩
    obtain ⟨later, hmem, hsettles⟩ := h.1 ht
    exact ⟨later.within place, List.mem_map_of_mem hmem, hsettles⟩

end Resolved

theorem not_disturbs_publish {key other : String} (c : Context) {v : Value}
    (h : key = other → v.Over) : ¬ Turn.Disturbs key ⟨c, [], c.publish other v⟩ := by
  rintro ⟨w, hafter, hbefore, hover⟩
  by_cases hk : key = other
  · subst hk
    have hw : v = w := Option.some.inj ((c.action?_publish_self key v).symm.trans hafter)
    exact hover (hw ▸ h rfl)
  · exact hbefore ((c.action?_publish_of_ne v hk) ▸ hafter)

theorem turnRule_resolved (key : String) : TurnRule (Resolved key) where
  nil := trivial
  append := Resolved.append
  interleave := Resolved.interleave
  within place h := h.within place
  quiet h := .singleton (h.not_disturbs key)

theorem concludes_resolved (key other : String) : Concludes (Resolved key) other := fun c r hr =>
  .singleton (not_disturbs_publish c fun _ => ⟨r, rfl, hr⟩)

theorem progresses_resolved {key other : String} (h : key ≠ other) :
    Progresses (Resolved key) other := fun c _ _ =>
  .singleton (not_disturbs_publish c fun he => absurd he h)

/-! ### Actions -/

namespace Turns

open ActionFlow.Frame

theorem resolved_thenPublish {key : String} {part : Turns Record Unit}
    (hpart : Meets (fun _ => True) Any part fun _ => Record.Over) {own last : Record}
    {turns : List Turn} {result : Except Fault Unit}
    (h : thenPublish key part own turns result last) : Resolved key turns := by
  rcases h with ⟨_, ⟨_, _, hcaught⟩, _⟩ | ⟨caught, middle, first, second, hfirst, hsecond, rfl⟩
  · cases hcaught
  obtain ⟨_, hran, -⟩ := hfirst
  have hover := (hpart own first _ middle trivial hran).2
  rcases hsecond with ⟨_, ⟨c, hpublished, _⟩, _⟩ | ⟨_, _, _, rest, hpublish, hrest, rfl⟩
  · cases hpublished
  obtain ⟨c, -, rfl, rfl⟩ := hpublish
  obtain ⟨d, -, rfl, rfl⟩ := hrest
  refine Resolved.of_settles ?_ first (.singleton ?_)
  · exact ⟨_, c.action?_publish_self key _, middle, rfl, hover⟩
  · exact Turn.Quiet.not_disturbs ⟨fun _ hm => (List.not_mem_nil hm).elim, rfl⟩ key

/-- An action publishes itself at the end of its turns, when it is over. -/
theorem resolved_handle {head : Head} {logic : Turns Record Unit}
    {recovery : Option (Turns (Entries Record) Unit)} {own last : Record} {turns : List Turn}
    {result : Except Fault Unit} (h : handle head logic recovery own turns result last) :
    Resolved head.key turns := by
  have hmark : (one (mark head.key .entered) : Turns Record Unit).Keeps (Resolved head.key) :=
    keeps_one (turnRule_resolved head.key) (quiet_mark _ _)
  have hguarded := meets_guarded turnRule_true (concludes_true head.key) (keeps_true logic).meets
    fun sequence (_ : sequence ∈ recovery) => keeps_true sequence
  rcases h with ⟨_, hfirst, _⟩ | ⟨_, middle, first, second, hfirst, hsecond, rfl⟩
  · exact (hmark own turns _ last trivial hfirst).1
  · refine (hmark own first _ middle trivial hfirst).1.append ?_
    exact resolved_thenPublish hguarded hsecond

end Turns

open Turns in
theorem Action.keeps_resolved (key : String) {a : Action}
    (handlers : ∀ handler ∈ a.kind.handler?, ∀ c,
      (handler.handle c).context.published = c.published)
    (inside : ∀ b ∈ a.kind.actions, b.turns.Keeps (Resolved key))
    (recovery : ∀ b ∈ a.errorActions, b.turns.Keeps (Resolved key)) :
    a.turns.Keeps (Resolved key) := by
  -- An iteration disturbs its own key on the way, so there the condition is not one on its parts.
  by_cases hk : key = a.key
  · intro own turns result last _ hway
    rw [turns_eq] at hway
    exact ⟨hk ▸ resolved_handle hway, trivial⟩
  · have rule := turnRule_resolved key
    exact keeps_turns rule (concludes_resolved key a.key) (fun _ _ _ => progresses_resolved hk)
      (fun handler h => calls_of_published rule a.key (handlers handler h)) inside recovery

/-! ### From the first context to the last -/

theorem Turn.Proper.pairwise {t : Turn} (h : t.Proper) :
    (t.before :: (t.journal.map Moment.context ++ [t.after])).Pairwise Context.Leads := by
  rcases h with hquiet | ⟨hjournal, key, v, hv, hafter⟩
  · have hsame : ∀ c ∈ t.before :: (t.journal.map Moment.context ++ [t.after]),
        c.published = t.before.published := by
      intro c hc
      rcases List.mem_cons.mp hc with rfl | hc
      · rfl
      rcases List.mem_append.mp hc with hc | hc
      · obtain ⟨m, hm, rfl⟩ := List.mem_map.mp hc
        exact hquiet.journal m hm
      · rw [List.mem_singleton.mp hc]
        exact hquiet.after
    refine List.pairwise_iff_forall_sublist.mpr fun {c d} hsub => .of_eq ?_
    exact (hsame d (hsub.subset (by simp))).trans (hsame c (hsub.subset (by simp))).symm
  · rw [hjournal, hafter]
    exact List.pairwise_pair.mpr (Context.Leads.publish _ key hv)

theorem Turn.Proper.leads {t : Turn} (h : t.Proper) : t.before.Leads t.after :=
  (List.pairwise_cons.mp h.pairwise).1 t.after (by simp)

/-- From the end of each turn no key is lost. -/
theorem Linked.leads {c d : Context} {turns : List Turn} (h : Linked c turns d)
    (hp : ∀ t ∈ turns, t.Proper) : c.Leads d ∧ ∀ t ∈ turns, t.after.Leads d := by
  induction turns generalizing c with
  | nil =>
    obtain rfl : c = d := h
    exact ⟨.of_eq rfl, nofun⟩
  | cons t rest ih =>
    obtain ⟨rfl, hrest⟩ := h
    obtain ⟨ht, hothers⟩ := List.forall_mem_cons.mp hp
    obtain ⟨hafter, hlater⟩ := ih hrest hothers
    exact ⟨ht.leads.trans hafter, List.forall_mem_cons.mpr ⟨hafter, hlater⟩⟩

theorem Linked.pairwise {c d : Context} {turns : List Turn} (h : Linked c turns d)
    (hp : ∀ t ∈ turns, t.Proper) :
    (c :: ((turns.flatMap Turn.journal).map Moment.context ++ [d])).Pairwise Context.Leads := by
  induction turns generalizing c with
  | nil =>
    obtain rfl : c = d := h
    exact List.pairwise_pair.mpr (.of_eq rfl)
  | cons t rest ih =>
    obtain ⟨rfl, hrest⟩ := h
    have ht : (t.before :: t.journal.map Moment.context ++ [t.after]).Pairwise Context.Leads :=
      (hp t List.mem_cons_self).pairwise
    obtain ⟨hafter, hlater⟩ := List.pairwise_cons.mp
      (ih hrest fun t ht => hp t (List.mem_cons_of_mem _ ht))
    obtain ⟨hturn, -, hleads⟩ := List.pairwise_append.mp ht
    -- What comes before the end of the turn leads there, and from there to what comes later.
    rw [List.flatMap_cons, List.map_append, List.append_assoc]
    refine List.pairwise_append.mpr ⟨hturn, hlater, ?_⟩
    intro e he e' he'
    exact (hleads e he t.after (List.mem_singleton.mpr rfl)).trans (hafter e' he')

/-- What is not over in the end was there from the beginning. -/
theorem Linked.over_or_kept {c d : Context} {turns : List Turn} {key : String}
    (h : Linked c turns d) (hr : Resolved key turns) {v : Value} (hv : d.action? key = some v) :
    v.Over ∨ (∀ t ∈ turns, ¬ t.Settles key) ∧ c.action? key = some v := by
  -- From behind: as long as no turn has settled the key, none can have disturbed it.
  induction turns generalizing c with
  | nil =>
    obtain rfl : c = d := h
    exact .inr ⟨nofun, hv⟩
  | cons t rest ih =>
    obtain ⟨rfl, hrest⟩ := h
    rcases ih hrest hr.2 with hover | ⟨hnone, hafter⟩
    · exact .inl hover
    · by_cases hover : v.Over
      · exact .inl hover
      have hsettles : ¬ t.Settles key := by
        rintro ⟨w, hw, hover'⟩
        exact hover (Option.some.inj (hafter.symm.trans hw) ▸ hover')
      refine .inr ⟨List.forall_mem_cons.mpr ⟨hsettles, hnone⟩, ?_⟩
      refine Classical.byContradiction fun hbefore => ?_
      obtain ⟨later, hmem, hlater⟩ := hr.1 ⟨v, hafter, hbefore, hover⟩
      exact hnone later hmem hlater

theorem Linked.unfolds_of_proper {c d : Context} {turns : List Turn} (h : Linked c turns d)
    (hc : c.Shown) (hp : ∀ t ∈ turns, t.Proper) (hr : ∀ key, Resolved key turns) :
    c.Unfolds (turns.flatMap Turn.journal) d := by
  have hpairs := h.pairwise hp
  refine ⟨fun e he => hc.of_leads ((List.pairwise_cons.mp hpairs).1 e he), ?_, ?_⟩
  · exact hpairs.imp fun hleads => hleads.kept
  · exact fun key v hv => (h.over_or_kept (hr key) hv).imp id And.right

namespace Automation

variable {a : Automation} (hp : a.HandlersKeep Context.published)

include hp

theorem keeps_turns {V : List Turn → Prop}
    (node : ∀ b : Action,
      (∀ handler ∈ b.kind.handler?, ∀ c, (handler.handle c).context.published = c.published) →
      (∀ d ∈ b.kind.actions, d.turns.Keeps V) → (∀ d ∈ b.errorActions, d.turns.Keeps V) →
        b.turns.Keeps V) : ∀ b ∈ a.actions, b.turns.Keeps V :=
  Action.forest_induction node hp

theorem proper_of_schedule {ctx last : Context} {turns : List Turn} {result : Except Fault Unit}
    {records : Entries Record} (h : a.Schedule ctx turns result records last) :
    ∀ t ∈ turns, t.Proper := by
  have hproper := keeps_turns hp fun b handlers inside recovery =>
    Action.keeps_turns turnRule_proper (concludes_proper b.key)
      (fun _ _ _ => progresses_proper b.key)
      (fun handler h => Turns.calls_of_published turnRule_proper b.key (handlers handler h))
      inside recovery
  exact (Action.keeps_sequence turnRule_proper hproper [] turns result records trivial h.1).1

theorem unfolds_of_schedule {ctx last : Context} (hctx : ctx.Shown) {turns : List Turn}
    {result : Except Fault Unit} {records : Entries Record}
    (h : a.Schedule ctx turns result records last) :
    ctx.Unfolds (turns.flatMap Turn.journal) last := by
  refine h.2.unfolds_of_proper hctx (proper_of_schedule hp h) fun key => ?_
  have hresolved := keeps_turns hp fun b => Action.keeps_resolved key
  exact (Action.keeps_sequence (turnRule_resolved key) hresolved [] turns result records trivial
    h.1).1

/-- A run is one of its schedules.  However the tasks take turns, all that is seen of the actions on
the way is what may be seen, no key is lost, and what the run has published is over in the end. -/
theorem shown_throughout {ctx : Context} (hctx : ctx.Shown) :
    (a.Calm → ∃ o, a.outcome ctx = .ok o) ∧
      (a.CalmTasks → ∀ o, a.outcome ctx = .ok o →
        (∃ turns result, a.Schedule ctx turns result o.actions (a.run ctx).state.context ∧
          (a.run ctx).journal = turns.flatMap Turn.journal) ∧
        ctx.Unfolds (a.run ctx).journal (a.run ctx).state.context) ∧
      ∀ turns result records last, a.Schedule ctx turns result records last →
        ctx.Unfolds (turns.flatMap Turn.journal) last := by
  refine ⟨fun hc => hc.exists_outcome ctx, fun hc o ho => ?_, fun _ _ _ _ h => ?_⟩
  · obtain ⟨hs, rfl⟩ := outcome_eq_ok_iff.mp ho
    obtain ⟨turns, result, hschedule, -, hjournal⟩ := exists_schedule hc hs
    refine ⟨⟨turns, result, hschedule, hjournal⟩, ?_⟩
    rw [hjournal]
    exact unfolds_of_schedule hp hctx hschedule
  · exact unfolds_of_schedule hp hctx h

end Automation

/-- An iteration next to a call. -/
def Automation.watched : Automation where
  name := "watched"
  actions :=
    [{ head := { name := "all", key := "all" }
       kind := .group true
        [{ head := { name := "each", key := "each" }
           kind := .iterate { list := .constant (.array [.null]) } [.idle "inner"]
           errorActions := [] },
         .idle "call"]
       errorActions := [] }]

theorem Automation.sound_watched : watched.Calm ∧ watched.HandlersKeep Context.published := by
  have hforest : Action.forest watched.actions = watched.actions ++
      [{ head := { name := "each", key := "each" }
         kind := .iterate { list := .constant (.array [.null]) } [.idle "inner"]
         errorActions := [] }, .idle "inner", .idle "call"] := rfl
  have hkeeps : ∀ k, ∀ handler ∈ (Action.idle k).kind.handler?, ∀ c,
      (handler.handle c).context.published = c.published := by
    rintro k handler ⟨⟩ c
    rfl
  have hboth : ∀ b ∈ Action.forest watched.actions, b.Calm ∧
      ∀ handler ∈ b.kind.handler?, ∀ c, (handler.handle c).context.published = c.published := by
    intro b hb
    rw [hforest] at hb
    simp only [watched, List.cons_append, List.nil_append, List.mem_cons, List.not_mem_nil,
      or_false] at hb
    rcases hb with rfl | rfl | rfl | rfl
    · exact ⟨⟨⟨nofun, nofun, nofun⟩, trivial⟩, nofun⟩
    · refine ⟨⟨⟨nofun, nofun, nofun⟩, ?_, nofun, nofun, nofun, nofun⟩, nofun⟩
      simp [Provider.Calm]
    · exact ⟨Action.calm_idle _, hkeeps _⟩
    · exact ⟨Action.calm_idle _, hkeeps _⟩
  exact ⟨fun b hb => (hboth b hb).1, fun b hb => (hboth b hb).2⟩

theorem Automation.shown_throughout_watched :
    (Context.start "run" "now" .null).Shown ∧ watched.HandlersKeep Context.published ∧
      ∃ o turns result, watched.outcome (.start "run" "now" .null) = .ok o ∧
        watched.Schedule (.start "run" "now" .null) turns result o.actions
          (watched.run (.start "run" "now" .null)).state.context ∧
        (Context.start "run" "now" .null).Unfolds
          (watched.run (.start "run" "now" .null)).journal
          (watched.run (.start "run" "now" .null)).state.context ∧
        Entries.keys (watched.run (.start "run" "now" .null)).state.context.published =
          ["each", "inner", "call", "all"] := by
  have hctx : (Context.start "run" "now" .null).Shown := nofun
  obtain ⟨hcalm, hp⟩ := sound_watched
  obtain ⟨hexists, hrun, -⟩ := shown_throughout hp hctx
  obtain ⟨o, ho⟩ := hexists hcalm
  obtain ⟨⟨turns, result, hschedule, -⟩, hunfolds⟩ := hrun hcalm.calmTasks o ho
  exact ⟨hctx, hp, o, turns, result, ho, hschedule, hunfolds, by decide +kernel⟩

/-! ### What was there before -/

/-- A snapshot tells whether the action is over. -/
theorem Value.over_snapshot_iff {r : Record} : r.snapshot.Over ↔ r.Over := by
  refine ⟨?_, fun h => ⟨r, rfl, h⟩⟩
  rintro ⟨s, hsnapshot, hover⟩
  have hname : r.stage.name = s.stage.name := by
    simp only [Record.snapshot, Value.object.injEq, List.cons_append, List.cons.injEq,
      Prod.mk.injEq, Value.text.injEq] at hsnapshot
    exact hsnapshot.2.2.2.1.2
  have hstage : r.stage = s.stage := by
    have hof := congrArg Stage.ofName? hname
    rw [Stage.ofName?_name, Stage.ofName?_name] at hof
    exact Option.some.inj hof
  unfold Record.Over
  rw [hstage]
  exact hover

/-- The record of an iteration on the way. -/
def Record.halfway : Record :=
  { fresh "old" "old" "iterate" (.iterate {} []) with stage := .running, startedAt := some "T" }

/-- A context in which an iteration is under way that no run in it will end. -/
def Context.abandoned : Context :=
  { start "run" "now" .null with published := [("old", Record.halfway.snapshot)] }

theorem Context.shown_abandoned : abandoned.Shown := by
  intro key v hv
  have hfind : Entries.find? [("old", Record.halfway.snapshot)] key = some v := hv
  rw [Entries.find?] at hfind
  split at hfind
  · cases hfind
    exact ⟨Record.halfway, rfl, .inr ⟨rfl, {}, [], rfl⟩⟩
  · cases hfind

def Automation.calling : Automation := ⟨"calling", [.idle "call"]⟩

theorem Automation.sound_calling : calling.Calm ∧ calling.HandlersKeep Context.published := by
  have hforest : Action.forest calling.actions = [.idle "call"] := rfl
  constructor
  · intro b hb
    rw [hforest, List.mem_singleton] at hb
    exact hb ▸ Action.calm_idle "call"
  · intro b hb handler hhandler c
    rw [hforest, List.mem_singleton] at hb
    subst hb
    cases hhandler
    rfl

theorem Automation.not_over_abandoned :
    Context.abandoned.Shown ∧ calling.Calm ∧ calling.HandlersKeep Context.published ∧
      ∃ o v, calling.outcome .abandoned = .ok o ∧
        (calling.run .abandoned).state.context.action? "old" = some v ∧ ¬ v.Over := by
  refine ⟨Context.shown_abandoned, sound_calling.1, sound_calling.2, _, Record.halfway.snapshot,
    outcome_eq_ok_iff.mpr ⟨Ending.settled_of_ok rfl, rfl⟩, rfl, ?_⟩
  rw [Value.over_snapshot_iff]
  exact nofun

end ActionFlow
