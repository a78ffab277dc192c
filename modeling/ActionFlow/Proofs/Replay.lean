import ActionFlow.Proofs.Calm

/-!
# Records account for variables

A record of a write tells the property, the path and the value, whether the write went through or
was blocked.  Doing the recorded writes again, in the order of the records, leads from the variables
before a run to those after it.
-/
namespace ActionFlow

structure RecordedWrite where
  property : String
  path : Option String
  value : Value

def Detail.write? {ρ : Type} : Detail ρ → Option RecordedWrite
  | setVariable ⟨property, path, some value⟩ => some ⟨property.getD "", path, value⟩
  | _ => none

def Record.writes (records : List Record) : List RecordedWrite :=
  records.filterMap fun r => r.detail.write?

theorem Record.writes_append (xs ys : List Record) :
    writes (xs ++ ys) = writes xs ++ writes ys := List.filterMap_append

theorem Record.writes_tree (r : Record) :
    writes r.tree =
      r.detail.write?.toList ++ writes (detailForest r.detail) ++
        writes (forest r.errorActions) := by
  rw [tree_eq, ← List.singleton_append, writes_append, writes_append, ← List.append_assoc]
  cases h : r.detail.write? <;> simp [writes, h]

namespace Context

/-- Does a recorded write again; a blocked one does nothing. -/
def redo (c : Context) (w : RecordedWrite) : Context :=
  match c.setVariable w.property (w.path.map Path.parse) w.value with
  | .ok c' => c'
  | .error _ => c

def replay (c : Context) (writes : List RecordedWrite) : Context := writes.foldl redo c

theorem replay_append (c : Context) (xs ys : List RecordedWrite) :
    c.replay (xs ++ ys) = (c.replay xs).replay ys := List.foldl_append

theorem vars_redo (c : Context) (w : RecordedWrite) :
    (c.redo w).vars =
      match Entries.writeAt c.vars (((w.path.map Path.parse).map Path.segments).getD []) w.property
        w.value with
      | .ok vars => vars
      | .error _ => c.vars := by
  unfold redo setVariable
  cases Entries.writeAt c.vars _ w.property w.value <;> rfl

theorem vars_replay_congr {c d : Context} (h : c.vars = d.vars) (writes : List RecordedWrite) :
    (c.replay writes).vars = (d.replay writes).vars := by
  induction writes generalizing c d with
  | nil => exact h
  | cons w rest ih =>
    refine ih ?_
    rw [vars_redo, vars_redo, h]

def Replays (c : Context) (writes : List RecordedWrite) (c' : Context) : Prop :=
  c'.vars = (c.replay writes).vars

theorem Replays.refl (c : Context) : c.Replays [] c := rfl

theorem Replays.trans {c d e : Context} {xs ys : List RecordedWrite} (h : c.Replays xs d)
    (h' : d.Replays ys e) : c.Replays (xs ++ ys) e := by
  unfold Replays at *
  rw [h', replay_append]
  exact vars_replay_congr h ys

theorem Replays.publish {c d : Context} {writes : List RecordedWrite} (h : c.Replays writes d)
    (key : String) (snapshot : Value) : c.Replays writes (d.publish key snapshot) := h

end Context

def Automation.Sequential (a : Automation) : Prop :=
  ∀ b ∈ Action.forest a.actions, ∀ actions, b.kind ≠ .group true actions

namespace Action

def Replaying (a : Action) : Prop := ∀ c, (a.ending c).Settled →
  c.Replays (Record.writes (a.ending c).state.own.tree) (a.ending c).state.context

theorem sequence_replaying {actions : List Action} (hn : (actions.map key).Nodup)
    (h : ∀ a ∈ actions, Replaying a) {c : Context} (hs : (runSequence actions ⟨[], c⟩).Settled) :
    c.Replays (Record.writes (Record.forest (runSequence actions ⟨[], c⟩).state.own))
      (runSequence actions ⟨[], c⟩).state.context := by
  have rule : SequenceRule actions fun c records _ c' =>
      c.Replays (Record.writes (Record.forest records)) c' := by
    constructor
    · intro c
      rw [Record.forest_nil]
      exact .refl c
    · intro a ha c fault hr
      rw [Record.forest_cons, Record.forest_nil, List.append_nil]
      exact h a ha c (Ending.settled_of_fault hr)
    · intro a ha c rest x c' hr hrest
      rw [Record.forest_cons, Record.writes_append]
      exact (h a ha c (Ending.settled_of_ok hr)).trans hrest
  obtain ⟨added, ho, -, -, hR⟩ := rule.run hn (by simp) hs
  rw [ho, List.nil_append]
  exact hR

/-- What the logic of an action is to keep, from the context `c` on. -/
def Recording (c : Context) (_ : Option Fault) (d : Detail Record) (c' : Context) : Prop :=
  c.Replays (d.write?.toList ++ Record.writes (Record.detailForest d)) c'

theorem recording_steady (c : Context) : Steady (Recording c) := ⟨fun _ h => h, fun _ h => h⟩

theorem recording_group {c d : Context} {x : Option Fault} {parallel : Bool}
    {children : Entries Record} :
    Recording c x (.group parallel children) d ↔
      c.Replays (Record.writes (Record.forest children)) d := by
  unfold Recording
  rw [Record.detailForest]
  rfl

theorem recording_iterate {c d : Context} {x : Option Fault} {progress : Progress}
    {iterations : List (Iteration Record)} :
    Recording c x (.iterate progress iterations) d ↔
      c.Replays (Record.writes (Record.iterationForest iterations)) d := by
  unfold Recording
  rw [Record.detailForest]
  rfl

theorem recording_write {c d : Context} (x : Option Fault) (w : RecordedWrite)
    (h : d.vars = c.vars) :
    Recording c x (.setVariable ⟨some w.property, w.path, some w.value⟩) (d.redo w) := by
  unfold Recording
  rw [Record.detailForest]
  exact Context.vars_replay_congr h [w]

theorem recording_rule (k : String) (c : Context) {kind : Kind Action}
    (hn : (kind.actions.map key).Nodup) (hp : ∀ actions, kind ≠ .group true actions)
    (hv : ∀ handler ∈ kind.handler?, ∀ c, (handler.handle c).context.vars = c.vars)
    (h : ∀ a ∈ kind.actions, Replaying a) : KindRule k (Recording c) kind := by
  rcases kind with ⟨parallel, actions⟩ | ⟨loop, actions⟩ | (p | ⟨property, path, value⟩ | handler)
  · intro d hd hs
    cases parallel with
    | true => exact absurd rfl (hp actions)
    | false =>
      rw [recording_group, Record.forest_nil] at hd
      rw [recording_group]
      exact hd.trans (sequence_replaying hn h hs)
  · constructor
    · exact fun _ hk => hk
    · exact fun _ hk => hk
    · intro iterations d index hk hs
      rw [recording_iterate] at hk ⊢
      rw [Record.iterationForest_concat, Record.writes_append]
      exact hk.trans (sequence_replaying hn h hs)
  · trivial
  · intro name path value d hd
    have hvars : d.vars = c.vars := hd
    cases hset : d.setVariable name (path.map Path.parse) value with
    | ok d' =>
      have hw := recording_write none ⟨name, path, value⟩ hvars
      simp only [Context.redo, hset] at hw
      exact hw
    | error fault =>
      have hw := recording_write (some fault) ⟨name, path, value⟩ hvars
      simp only [Context.redo, hset] at hw
      exact hw
  · intro x d hd
    have hvars : d.vars = c.vars := hd
    exact (hv handler rfl d).trans hvars

theorem recording_fresh (kind : Kind Action) (c : Context) :
    Recording c none kind.detail c := by
  rcases kind with _ | _ | (_ | _ | _) <;>
    simp [Recording, Kind.detail, Record.detailForest, Record.iterationForest, Detail.write?,
      Record.writes, Context.Replays, Context.replay]

structure Replayable (a : Action) : Prop where
  distinct : a.DistinctBelow
  sequential : ∀ actions, a.kind ≠ .group true actions
  handlers : ∀ handler ∈ a.kind.handler?, ∀ c, (handler.handle c).context.vars = c.vars

theorem replaying_node (a : Action) (ha : a.Replayable) (inside : ∀ b ∈ a.kind.actions, Replaying b)
    (recovery : ∀ b ∈ a.errorActions, Replaying b) : Replaying a := by
  intro c hs
  have left := ending_left (recording_steady c)
    (recording_rule a.key c ha.distinct.1 ha.sequential ha.handlers inside)
    (recording_fresh a.kind c) hs
  generalize (a.ending c).result = result at left
  generalize (a.ending c).state = state at left ⊢
  have finished : ∀ {x r c'}, a.Closed (Recording c) x r c' →
      c.Replays (Record.writes r.tree) (c'.publish a.key r.snapshot) := by
    intro x r c' closed
    rw [Record.writes_tree, closed.errorActions, Record.forest_nil]
    exact Context.Replays.trans closed.kept (.refl _)
  cases left with
  | passed closed => exact finished closed
  | escaped closed none => exact finished closed
  | recovered closed hne ran settled =>
    -- What the action wrote before its fault stays, and its error actions write after that.
    subst ran
    rw [Record.writes_tree]
    exact Context.Replays.trans (Context.Replays.publish closed.kept a.key _)
      (sequence_replaying ha.distinct.2 recovery settled)

end Action

/-- Where no group is parallel and no handler writes variables, doing the recorded writes again on
the variables before a run gives those after it.  Without a panic of a supplied provider there is an
outcome. -/
theorem Automation.vars_eq_replay {a : Automation} (hk : a.DistinctKeys) (hp : a.Sequential)
    (hv : a.HandlersKeep Context.vars) (ctx : Context) :
    (a.Calm → ∃ o, a.outcome ctx = .ok o) ∧
      ∀ o, a.outcome ctx = .ok o →
        (a.run ctx).state.context.vars =
          (ctx.replay (Record.writes (Record.forest o.actions))).vars := by
  refine ⟨fun hc => hc.exists_outcome ctx, ?_⟩
  intro o ho
  obtain ⟨hs, rfl⟩ := outcome_eq_ok_iff.mp ho
  have hready : ∀ b ∈ Action.forest a.actions, b.Replayable := fun b hb =>
    ⟨hk.2 b hb, hp b hb, hv b hb⟩
  have hr := Action.forest_induction Action.replaying_node hready
  exact Action.sequence_replaying hk.1 hr hs

/-- Writes in two rounds, a blocked write, one among its error actions, and a call. -/
def Automation.noted : Automation where
  name := "noted"
  actions :=
    [{ head := { name := "each", key := "each" }
       kind := .iterate { list := .constant (.array [.null, .null]) }
        [.assigning "see" "seen" none (.bool true) []]
       errorActions := [] },
     .assigning "blocked" "part" (some "/seen") .null [.assigning "mend" "mended" none .null []],
     .idle "call"]

theorem Automation.mem_forest_noted {b : Action} (hb : b ∈ Action.forest noted.actions) :
    b.Calm ∧ (∀ actions, b.kind ≠ .group true actions) ∧
      ∀ handler ∈ b.kind.handler?, ∀ c, (handler.handle c).context.vars = c.vars := by
  have hforest : Action.forest noted.actions =
      [{ head := { name := "each", key := "each" }
         kind := .iterate { list := .constant (.array [.null, .null]) }
          [.assigning "see" "seen" none (.bool true) []]
         errorActions := [] },
       .assigning "see" "seen" none (.bool true) [],
       .assigning "blocked" "part" (some "/seen") .null [.assigning "mend" "mended" none .null []],
       .assigning "mend" "mended" none .null [],
       .idle "call"] := rfl
  rw [hforest] at hb
  simp only [List.mem_cons, List.not_mem_nil, or_false] at hb
  rcases hb with rfl | rfl | rfl | rfl | rfl
  · refine ⟨⟨⟨nofun, nofun, nofun⟩, ?_⟩, nofun, nofun⟩
    exact ⟨by simp [Provider.Calm], nofun, nofun, nofun, nofun⟩
  · exact ⟨Action.calm_assigning _ _ _ _ _, nofun, nofun⟩
  · exact ⟨Action.calm_assigning _ _ _ _ _, nofun, nofun⟩
  · exact ⟨Action.calm_assigning _ _ _ _ _, nofun, nofun⟩
  · refine ⟨Action.calm_idle _, nofun, ?_⟩
    rintro handler ⟨⟩ c
    rfl

theorem Automation.vars_eq_replay_noted :
    noted.DistinctKeys ∧ noted.Sequential ∧ noted.HandlersKeep Context.vars ∧
      ∃ o, noted.outcome (.start "run" "now" .null) = .ok o ∧
        Entries.keys (noted.run (.start "run" "now" .null)).state.context.vars =
          ["seen", "mended"] ∧
        (noted.run (.start "run" "now" .null)).state.context.vars =
          ((Context.start "run" "now" .null).replay
            (Record.writes (Record.forest o.actions))).vars := by
  have hk : noted.DistinctKeys := by decide
  have hp : noted.Sequential := fun b hb => (mem_forest_noted hb).2.1
  have hv : noted.HandlersKeep Context.vars := fun b hb => (mem_forest_noted hb).2.2
  have hc : noted.Calm := fun b hb => (mem_forest_noted hb).1
  obtain ⟨hexists, hall⟩ := vars_eq_replay hk hp hv (.start "run" "now" .null)
  obtain ⟨o, ho⟩ := hexists hc
  exact ⟨hk, hp, hv, o, ho, by decide +kernel, hall o ho⟩

end ActionFlow
