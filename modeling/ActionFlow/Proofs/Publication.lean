import ActionFlow.Proofs.TurnHandling
import ActionFlow.Proofs.Visibility

/-!
# Records account for what is published

A record is published several times while its action runs, and nested actions publish meanwhile, in
whatever order the tasks take.  In the end the keys under which something is published are the keys
of the records, and a key that only one record has leads to the snapshot of that record.
-/
namespace ActionFlow

/-! ### The last turn of a key -/

/-- Some turn leaves `v` under the key `k`, and no later one changes what is published there. -/
def Stands (k : String) (v : Option Value) : List Turn → Prop
  | [] => False
  | t :: rest => Stands k v rest ∨ t.after.action? k = v ∧ ∀ u ∈ rest, u.Steady k

namespace Stands

variable {k : String} {v : Option Value}

theorem shuffle {xs ys zs : List Turn} (h : Stands k v xs) (hy : ∀ t ∈ ys, t.Steady k)
    (hs : Shuffle xs ys zs) : Stands k v zs := by
  induction hs with
  | nil => exact h
  | left t others ih =>
    rcases h with h | ⟨hafter, hrest⟩
    · exact .inl (ih h hy)
    · exact .inr ⟨hafter, others.forall_mem hrest hy⟩
  | right t others ih => exact .inl (ih h (List.forall_mem_cons.mp hy).2)

theorem within {turns : List Turn} (place : Place) (h : Stands k v turns) :
    Stands k v (turns.map (Turn.within place)) := by
  induction turns with
  | nil => exact h
  | cons t rest ih =>
    refine h.imp ih fun ht => ⟨ht.1, ?_⟩
    exact List.forall_mem_map.mpr fun u hu => (ht.2 u hu).within place

theorem of_last (before : List Turn) {t : Turn} {after : List Turn} (ht : t.after.action? k = v)
    (hafter : ∀ u ∈ after, u.Steady k) : Stands k v (before ++ t :: after) := by
  induction before with
  | nil => exact .inr ⟨ht, hafter⟩
  | cons u rest ih => exact .inl ih

theorem action? {c d : Context} {turns : List Turn} (h : Stands k v turns)
    (hl : Linked c turns d) : d.action? k = v := by
  induction turns generalizing c with
  | nil => exact h.elim
  | cons t rest ih =>
    obtain ⟨rfl, hrest⟩ := hl
    rcases h with h | ⟨hafter, hsteady⟩
    · exact ih h hrest
    · exact (hrest.steady hsteady).1.trans hafter

end Stands

/-! ### One key -/

/-- What the records `rs` say of what the turns publish under the key `k`. -/
structure Accounts (k : String) (turns : List Turn) (rs : List Record) : Prop where
  kept : k ∉ rs.map Record.key → ∀ t ∈ turns, t.Steady k
  present : k ∈ rs.map Record.key → ∃ t ∈ turns, (t.after.action? k).isSome = true
  only : ∀ r ∈ rs, r.key = k → (rs.map Record.key).count k = 1 → Stands k (some r.snapshot) turns

namespace Accounts

variable {k : String} {turns idle xs ys zs : List Turn} {rs rs' : List Record}

theorem of_steady (h : ∀ t ∈ turns, t.Steady k) : Accounts k turns [] := ⟨fun _ => h, nofun, nofun⟩

/-- A record of the first part that is the only one of its key is published last, since no turn of
the other part publishes under that key. -/
theorem only_shuffle (h : Accounts k xs rs) (h' : Accounts k ys rs') (hs : Shuffle xs ys zs)
    {r : Record} (hr : r ∈ rs) (hrk : r.key = k)
    (hcount : ((rs ++ rs').map Record.key).count k = 1) : Stands k (some r.snapshot) zs := by
  rw [List.map_append, List.count_append] at hcount
  have hpos : 0 < (rs.map Record.key).count k :=
    List.count_pos_iff.mpr (hrk ▸ List.mem_map_of_mem hr)
  have hnone : k ∉ rs'.map Record.key := List.count_eq_zero.mp (by omega)
  exact (h.only r hr hrk (by omega)).shuffle (h'.kept hnone) hs

theorem shuffle (h : Accounts k xs rs) (h' : Accounts k ys rs') (hs : Shuffle xs ys zs) :
    Accounts k zs (rs ++ rs') where
  kept := by
    intro hk
    rw [List.map_append, List.mem_append, not_or] at hk
    exact hs.forall_mem (h.kept hk.1) (h'.kept hk.2)
  present := by
    intro hk
    rw [List.map_append, List.mem_append] at hk
    rcases hk with hk | hk
    · obtain ⟨t, ht, hsome⟩ := h.present hk
      exact ⟨t, hs.mem.mpr (.inl ht), hsome⟩
    · obtain ⟨t, ht, hsome⟩ := h'.present hk
      exact ⟨t, hs.mem.mpr (.inr ht), hsome⟩
  only := by
    intro r hr hrk hcount
    rcases List.mem_append.mp hr with hr | hr
    · exact h.only_shuffle h' hs hr hrk hcount
    · have hperm : ((rs' ++ rs).map Record.key).Perm ((rs ++ rs').map Record.key) :=
        List.perm_append_comm.map Record.key
      exact h'.only_shuffle h hs.symm hr hrk ((hperm.count_eq k).trans hcount)

theorem append (h : Accounts k xs rs) (h' : Accounts k ys rs') :
    Accounts k (xs ++ ys) (rs ++ rs') := h.shuffle h' (.append xs ys)

theorem append_steady (h : Accounts k xs rs) (hy : ∀ t ∈ ys, t.Steady k) :
    Accounts k (xs ++ ys) rs := by
  have happend := h.append (.of_steady hy)
  rwa [List.append_nil] at happend

theorem append_idle (h : Accounts k xs rs) (hidle : ∀ t ∈ idle, t.Idle) :
    Accounts k (xs ++ idle) rs := h.append_steady fun t ht => (hidle t ht).quiet.steady k

theorem append_showing (h : Accounts k xs rs) {key : String} (hk : k ≠ key) (r : Record)
    (c : Context) : Accounts k (xs ++ [.showing key r c]) rs :=
  h.append_steady (List.forall_mem_singleton.mpr (Turn.steady_showing hk r c))

theorem within (place : Place) (h : Accounts k turns rs) :
    Accounts k (turns.map (Turn.within place)) rs where
  kept hk := List.forall_mem_map.mpr fun t ht => (h.kept hk t ht).within place
  present hk := by
    obtain ⟨t, ht, hsome⟩ := h.present hk
    exact ⟨t.within place, List.mem_map_of_mem ht, hsome⟩
  only r hr hrk hcount := (h.only r hr hrk hcount).within place

theorem cons (h : Accounts k turns rs) {r : Record} (hr : k ≠ r.key) :
    Accounts k turns (r :: rs) where
  kept := by
    intro hk
    rw [List.map_cons, List.mem_cons, not_or] at hk
    exact h.kept hk.2
  present := by
    intro hk
    rw [List.map_cons, List.mem_cons] at hk
    exact h.present (hk.resolve_left hr)
  only := by
    intro s hs hsk hcount
    rw [List.map_cons, List.count_cons_of_ne hr.symm] at hcount
    rcases List.mem_cons.mp hs with rfl | hs
    · exact absurd hsk.symm hr
    · exact h.only s hs hsk hcount

/-- The key of a record that was published last is accounted for, whatever is inside. -/
theorem own (ran : List Turn) (r : Record) (c : Context) (hidle : ∀ t ∈ idle, t.Idle)
    (rs : List Record) : Accounts r.key (ran ++ .showing r.key r c :: idle) (r :: rs) where
  kept := fun hk => absurd (by simp) hk
  present := by
    intro _
    refine ⟨.showing r.key r c, by simp, ?_⟩
    rw [Turn.showing, Context.action?_publish_self]
    rfl
  only := by
    intro s hs hsk hcount
    rw [List.map_cons, List.count_cons_self] at hcount
    have hrs : r.key ∉ rs.map Record.key := List.count_eq_zero.mp (by omega)
    rcases List.mem_cons.mp hs with rfl | hs
    · exact .of_last ran (c.action?_publish_self _ _) fun t ht => (hidle t ht).quiet.steady _
    · exact absurd (hsk ▸ List.mem_map_of_mem hs) hrs

end Accounts

/-! ### The induction -/

namespace Action

open Turns

/-- However the handling of the action takes turns, its records account for what they publish. -/
def Accounted (a : Action) : Prop := ∀ turns result r, a.turns a.freshRecord turns result r →
  ∀ k, Accounts k turns r.tree

section Members

variable {actions : List Action} (hn : (actions.map key).Nodup) (h : ∀ a ∈ actions, Accounted a)
  {turns : List Turn} {result : Except Fault Unit} {records : Entries Record}

include hn h

theorem sequence_accounted (hs : sequenceTurns actions [] turns result records) (k : String) :
    Accounts k turns (Record.forest records) := by
  have ways : SequenceWays actions fun turns records _ =>
      Accounts k turns (Record.forest records) := by
    constructor
    · rw [Record.forest_nil]
      exact .of_steady nofun
    · intro a ha ran idle r fault hran hidle
      rw [Record.forest_cons, Record.forest_nil, List.append_nil]
      exact (h a ha ran _ r hran k).append_idle hidle
    · intro a ha ran idle r later rest x hran hidle hrest
      rw [Record.forest_cons, ← List.append_assoc]
      exact ((h a ha ran _ r hran k).append_idle hidle).append hrest
  obtain ⟨added, rfl, -, -, hR⟩ := ways.run hn (by simp) hs
  exact hR

omit hn in
/-- The turns of a task come in between those of the others. -/
theorem tasks_accounted {each : List (List Turn)} {tasks : List Task}
    (hs : Turns.Ended (taskTurns actions) each tasks) (ho : Interleaving each turns)
    (now k : String) : Accounts k turns (Record.forest (Task.table now tasks)) := by
  induction actions generalizing each tasks turns with
  | nil =>
    rw [taskTurns] at hs
    cases hs
    rw [ho.eq_nil, Task.table, List.map_nil, Record.forest_nil]
    exact .of_steady (List.forall_mem_nil _)
  | cons a rest ih =>
    obtain ⟨ran, r, result, others, later, hran, hothers, rfl, rfl⟩ := ended_cons hs
    obtain ⟨between, horder, hshuffle⟩ := ho.shuffle
    have hrest := ih (fun b hb => h b (List.mem_cons_of_mem _ hb)) hothers horder
    have hcons : Task.table now (⟨a.freshRecord, .finished r result⟩ :: later) =
        (a.key, r) :: Task.table now later := rfl
    rw [hcons, Record.forest_cons]
    exact (h a List.mem_cons_self ran result r hran k).shuffle hrest hshuffle

theorem children_accounted {parallel : Bool}
    (hs : childrenTurns parallel actions [] turns result records) (k : String) :
    Accounts k turns (Record.forest records) := by
  cases parallel with
  | false => exact sequence_accounted hn h hs k
  | true =>
    obtain ⟨each, tasks, inner, idle, c, hended, horder, rfl, hidle, -, rfl⟩ := together_ways hs
    have hkeys := keys_of_start (start_ended hended)
    have htable : (Task.settle tasks ⟨[], c⟩).state.own = Task.table c.clock tasks :=
      Task.putRecords_eq (hkeys ▸ hn) (by simp)
    rw [htable]
    exact (tasks_accounted h hended horder c.clock k).append_idle hidle

end Members

/-- What the logic of an action with the key `own` is to keep. -/
def Publishing (own : String) (_ : Option Fault) (past : List Turn) (d : Detail Record) : Prop :=
  ∀ k, k ≠ own → Accounts k past (Record.detailForest d)

theorem publishing_stable (own : String) : Stable own (Publishing own) where
  alone ht h k hk := (h k hk).append_steady (List.forall_mem_singleton.mpr (ht.toQuiet.steady k))
  stop _ h := h

theorem publishing_ways (own : String) {kind : Kind Action} (hn : (kind.actions.map key).Nodup)
    (hp : ∀ handler ∈ kind.handler?, ∀ c, (handler.handle c).context.published = c.published)
    (h : ∀ a ∈ kind.actions, Accounted a) : KindWays own (Publishing own) kind := by
  rcases kind with ⟨parallel, actions⟩ | ⟨loop, actions⟩ | (p | ⟨property, path, value⟩ | handler)
  · intro past inner result records hpast hs k hk
    have hstart := hpast k hk
    rw [Record.detailForest, Record.forest_nil] at hstart
    rw [Record.detailForest]
    exact hstart.append ((children_accounted hn h hs k).within _)
  · constructor
    · intro x past p iterations q hpast k hk
      have hstart := hpast k hk
      rw [Record.detailForest] at hstart ⊢
      exact hstart
    · intro past p iterations r c hpast k hk
      exact (hpast k hk).append_showing hk r c
    · intro items i past p iterations r inner result records c _ _ _ _ hpast hs k hk
      have hshown := (hpast k hk).append_showing hk r c
      rw [Record.detailForest] at hshown ⊢
      rw [Record.iterationForest_concat, List.append_cons]
      exact hshown.append ((sequence_accounted hn h hs k).within _)
  · trivial
  · intro write past hpast k hk
    have hstart := hpast k hk
    rw [Record.detailForest] at hstart ⊢
    exact hstart
  · intro x s past hpast k hk
    have hstart := hpast k hk
    have hcall : Turn.Quiet ⟨s.context, (Logic.call own handler s).journal,
        (Logic.call own handler s).state.context⟩ := by
      obtain ⟨hafter, hjournal⟩ := quiet_call own (hp handler rfl) s
      exact ⟨hjournal, hafter⟩
    rw [Record.detailForest] at hstart ⊢
    exact hstart.append_steady (List.forall_mem_singleton.mpr (hcall.steady k))

structure Accountable (a : Action) : Prop where
  distinct : a.DistinctBelow
  handlers : ∀ handler ∈ a.kind.handler?, ∀ c, (handler.handle c).context.published = c.published

theorem accounted_node (a : Action) (ha : a.Accountable)
    (inside : ∀ b ∈ a.kind.actions, Accounted b) (recovery : ∀ b ∈ a.errorActions, Accounted b) :
    Accounted a := by
  intro turns result r hs k
  have hstart : Publishing a.key none [] a.kind.detail := by
    intro k _
    rw [Record.detailForest_detail]
    exact .of_steady nofun
  obtain ⟨ran, c, idle, rfl, hidle, left⟩ := turns_left (publishing_stable a.key)
    (publishing_ways a.key ha.distinct.1 ha.handlers inside) hstart hs
  have hkey : r.key = a.key := left.key_eq
  -- The last publication settles the key of the action; others are left to the records inside.
  by_cases hk : k = a.key
  · rw [hk, ← hkey, Record.tree_eq]
    exact .own ran r c hidle _
  rw [Record.tree_eq, List.append_cons]
  refine .cons (.append_idle (.append_showing ?_ hk r c) hidle) (hkey.symm ▸ hk)
  cases left with
  | passed shut =>
    rw [shut.errorActions, Record.forest_nil, List.append_nil]
    exact shut.kept k hk
  | escaped shut none =>
    rw [shut.errorActions, Record.forest_nil, List.append_nil]
    exact shut.kept k hk
  | recovered d shut hne ran rest =>
    have hthen := (sequence_accounted ha.distinct.2 recovery ran k).within (.recovery a.key)
    rw [List.append_cons]
    exact ((shut.kept k hk).append_showing hk _ d).append (hthen.append_idle rest)

end Action

/-! ### What is published in the end -/

/-- Something is published under the keys of the records and under no others, and a key of one
record only leads to the snapshot of that record. -/
structure Context.Matches (c : Context) (records : Entries Record) : Prop where
  keys : ∀ key, key ∈ Entries.keys c.published ↔ key ∈ (Record.forest records).map Record.key
  only : ∀ r ∈ Record.forest records, ((Record.forest records).map Record.key).count r.key = 1 →
    c.action? r.key = some r.snapshot

theorem Context.isSome_action?_iff {c : Context} {key : String} :
    (c.action? key).isSome = true ↔ key ∈ Entries.keys c.published := by
  rw [← not_iff_not, Option.not_isSome_iff_eq_none]
  exact Entries.find?_eq_none_iff

namespace Automation

variable {a : Automation} (hk : a.DistinctKeys) (hp : a.HandlersKeep Context.published)
  {ctx : Context} (hctx : ctx.published = [])

include hk hp hctx

theorem matches_of_schedule {turns : List Turn} {result : Except Fault Unit}
    {records : Entries Record} {last : Context} (h : a.Schedule ctx turns result records last) :
    last.Matches records := by
  have hready : ∀ b ∈ Action.forest a.actions, b.Accountable := fun b hb => ⟨hk.2 b hb, hp b hb⟩
  have hall := Action.forest_induction Action.accounted_node hready
  have haccounts := Action.sequence_accounted hk.1 hall h.1
  refine ⟨fun key => ⟨fun hmem => ?_, fun hmem => ?_⟩, fun r hr hcount => ?_⟩
  · refine Decidable.byContradiction fun hnot => ?_
    have hkept := (h.2.steady ((haccounts key).kept hnot)).1
    rw [← Context.isSome_action?_iff, hkept, Context.isSome_action?_iff, hctx] at hmem
    cases hmem
  · obtain ⟨t, ht, hsome⟩ := (haccounts key).present hmem
    have hleads := (h.2.leads (proper_of_schedule hp h)).2 t ht
    exact hleads.kept key (Context.isSome_action?_iff.mp hsome)
  · exact ((haccounts r.key).only r hr rfl hcount).action? h.2

/-- After a run that starts with nothing published, what is published matches the records, and so it
does however the tasks take turns; a run whose tasks do not panic is one of the ways. -/
theorem published_iff :
    (a.Calm → ∃ o, a.outcome ctx = .ok o) ∧
      (a.CalmTasks → ∀ o, a.outcome ctx = .ok o →
        (∃ turns result, a.Schedule ctx turns result o.actions (a.run ctx).state.context) ∧
          (a.run ctx).state.context.Matches o.actions) ∧
      ∀ turns result records last, a.Schedule ctx turns result records last →
        last.Matches records := by
  refine ⟨fun hc => hc.exists_outcome ctx, fun hc o ho => ?_, fun _ _ _ _ h => ?_⟩
  · obtain ⟨turns, result, hschedule, -, -⟩ := exists_schedule_of_outcome hc ho
    exact ⟨⟨turns, result, hschedule⟩, matches_of_schedule hk hp hctx hschedule⟩
  · exact matches_of_schedule hk hp hctx h

end Automation

/-- A call and a failure side by side, and an error action with the key of one of them. -/
def Automation.renamed : Automation where
  name := "renamed"
  actions :=
    [{ head := { name := "all", key := "all" }
       kind := .group true [.idle "call", .failing "fail"]
       errorActions := [.idle "fail"] }]

theorem Automation.mem_forest_renamed {b : Action} (hb : b ∈ Action.forest renamed.actions) :
    b.Calm ∧ ∀ handler ∈ b.kind.handler?, ∀ c,
      (handler.handle c).context.published = c.published := by
  have hforest : Action.forest renamed.actions =
      renamed.actions ++ [.idle "call", .failing "fail", .idle "fail"] := rfl
  have hidle : ∀ k, ∀ handler ∈ (Action.idle k).kind.handler?, ∀ c,
      (handler.handle c).context.published = c.published := by
    rintro k handler ⟨⟩ c
    rfl
  rw [hforest] at hb
  simp only [renamed, List.cons_append, List.nil_append, List.mem_cons, List.not_mem_nil,
    or_false] at hb
  rcases hb with rfl | rfl | rfl | rfl
  · exact ⟨⟨⟨nofun, nofun, nofun⟩, trivial⟩, nofun⟩
  · exact ⟨Action.calm_idle _, hidle _⟩
  · exact ⟨Action.calm_failing _, nofun⟩
  · exact ⟨Action.calm_idle _, hidle _⟩

theorem Automation.published_iff_renamed :
    renamed.DistinctKeys ∧ renamed.HandlersKeep Context.published ∧
      (Context.start "run" "now" .null).published = [] ∧
      ∃ o turns result, renamed.outcome (.start "run" "now" .null) = .ok o ∧
        renamed.Schedule (.start "run" "now" .null) turns result o.actions
          (renamed.run (.start "run" "now" .null)).state.context ∧
        (Record.forest o.actions).map Record.key = ["all", "call", "fail", "fail"] ∧
        (renamed.run (.start "run" "now" .null)).state.context.Matches o.actions := by
  have hk : renamed.DistinctKeys := by decide
  have hc : renamed.Calm := fun b hb => (mem_forest_renamed hb).1
  have hp : renamed.HandlersKeep Context.published := fun b hb => (mem_forest_renamed hb).2
  have hctx : (Context.start "run" "now" .null).published = [] := rfl
  obtain ⟨hexists, hrun, hschedules⟩ := published_iff hk hp hctx
  obtain ⟨o, ho⟩ := hexists hc
  obtain ⟨⟨turns, result, hschedule⟩, -⟩ := hrun hc.calmTasks o ho
  obtain ⟨-, ho'⟩ := outcome_eq_ok_iff.mp ho
  have hkeys : (Record.forest (renamed.run (.start "run" "now" .null)).state.own).map Record.key =
      ["all", "call", "fail", "fail"] := by decide +kernel
  exact ⟨hk, hp, hctx, o, turns, result, ho, hschedule, by rw [ho']; exact hkeys,
    hschedules turns result _ _ hschedule⟩

end ActionFlow
