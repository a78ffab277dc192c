import ActionFlow.Proofs.Traces
import ActionFlow.Proofs.TurnHandling
import ActionFlow.Proofs.Written

/-!
# The item at hand

Inside a round of an iteration, at every moment and at any depth, the current item of the iteration
can be looked up under its key, in whatever order tasks take their turns.  What is found is the item
as snapshots show values: the item itself unless there are bytes or files in it.
-/
namespace ActionFlow

/-! ### Snapshots of iterations -/

theorem Record.lookup_currentIteration {r : Record} {progress : Progress}
    {iterations : List (Iteration Record)} {i : IterationItem}
    (hr : r.detail = .iterate progress iterations) (hi : progress.current = some i) :
    r.snapshot.lookup ["currentIteration", "item"] = some i.item.written ∧
      r.snapshot.lookup ["currentIteration", "index"] = some (.integer i.index) := by
  have hcurrent : r.snapshot.lookup ["currentIteration"] = some i.snapshot := by
    simp [Record.snapshot, hr, Detail.snapshotFields, hi, Value.lookup_object_cons, Entries.find?,
      Value.orNull]
  have hstep : ∀ segment, r.snapshot.lookup ["currentIteration", segment] =
      i.snapshot.lookup [segment] := by
    intro segment
    rw [Value.lookup_cons] at hcurrent ⊢
    cases hc : r.snapshot.child? "currentIteration" with
    | none =>
      rw [hc] at hcurrent
      cases hcurrent
    | some part =>
      rw [hc] at hcurrent
      simp only [Option.bind_some, Value.lookup_nil, Option.some.injEq] at hcurrent
      rw [hcurrent]
      rfl
  constructor
  · rw [hstep, IterationItem.snapshot, Value.lookup_object_cons]
    simp [Entries.find?]
  · rw [hstep, IterationItem.snapshot, Value.lookup_object_cons]
    simp [Entries.find?]

def Path.currentIteration (key field : String) : Path :=
  ⟨["actions", key, "currentIteration", field]⟩

theorem Context.lookup_currentIteration (c : Context) (key field : String) :
    c.lookup (.currentIteration key field) =
      (c.action? key).bind fun snapshot => snapshot.lookup ["currentIteration", field] := by
  simp [Context.lookup, Path.currentIteration, Path.splitFirst?, Context.lookupIn, Context.action?]

/-- Looking up the current iteration under the key gives the place and the item, as far as the item
can be shown. -/
structure Context.Shows (key : String) (i : IterationItem) (c : Context) : Prop where
  index : c.lookup (.currentIteration key "index") = some (.integer i.index)
  item : c.lookup (.currentIteration key "item") = some i.item.written

theorem Context.shows_of_action? {c : Context} {key : String} {i : IterationItem} {r : Record}
    {progress : Progress} {iterations : List (Iteration Record)}
    (hc : c.action? key = some r.snapshot) (hr : r.detail = .iterate progress iterations)
    (hi : progress.current = some i) : c.Shows key i := by
  obtain ⟨hitem, hindex⟩ := Record.lookup_currentIteration hr hi
  constructor
  · rw [lookup_currentIteration, hc]
    exact hindex
  · rw [lookup_currentIteration, hc]
    exact hitem

namespace Action

open ActionFlow.Frame

variable {k : String}

/-! ### Inside a round -/

def Outside (k : String) (m : Moment) : Prop :=
  ∀ items index, Place.iteration k items index ∉ m.path

/-- The snapshot under `k` is the given one, and the moment lies in no round of `k`. -/
def Showing (k : String) (snapshot : Value) (m : Moment) : Prop :=
  m.context.action? k = some snapshot ∧ Outside k m

theorem Outside.within {m : Moment} {place : Place} (h : Outside k m)
    (hp : ∀ items index, place ≠ .iteration k items index) : Outside k (m.within place) := by
  intro items index hmem
  rcases List.mem_cons.mp hmem with he | hmem
  · exact hp items index he.symm
  · exact h items index hmem

theorem Showing.within {snapshot : Value} {m : Moment} {place : Place} (h : Showing k snapshot m)
    (hp : ∀ items index, place ≠ .iteration k items index) :
    Showing k snapshot (m.within place) := ⟨h.1, h.2.within hp⟩

theorem showing_rule (snapshot : Value) {key : String} (hk : key ≠ k) :
    TraceRule (fun c => c.action? k = some snapshot) (Showing k snapshot) key where
  point := fun event hc => ⟨hc, fun items index hmem => by cases List.mem_singleton.mp hmem⟩
  publish := fun s hc => (Context.action?_publish_of_ne _ s hk.symm).trans hc
  write := by
    intro c c' property path value hset hc
    rw [Context.action?, Context.published_setVariable hset]
    exact hc
  children := fun h => h.within nofun
  recovery := fun h => h.within nofun

structure Apart (k : String) (a : Action) : Prop where
  key : a.key ≠ k
  handlers : ∀ handler ∈ a.kind.handler?, ∀ c,
    (handler.handle c).context.action? k = c.action? k

theorem showing_node (snapshot : Value) (a : Action) (ha : a.Apart k)
    (inside : ∀ b ∈ a.kind.actions,
      b.handle.Traces (fun c => c.action? k = some snapshot) (Showing k snapshot))
    (recovery : ∀ b ∈ a.errorActions,
      b.handle.Traces (fun c => c.action? k = some snapshot) (Showing k snapshot)) :
    a.handle.Traces (fun c => c.action? k = some snapshot) (Showing k snapshot) := by
  have rule := showing_rule snapshot ha.key
  have hhandler := ha.handlers
  refine traces_handle rule ?_ inside recovery
  generalize a.kind = kind at inside hhandler
  rcases kind with ⟨parallel, actions⟩ | ⟨loop, actions⟩ | (p | ⟨property, path, value⟩ | handler)
  · trivial
  · intro items _ i _
    refine Loop.traces_once rule items i (fun h => h.within ?_) (traces_runSequence inside)
    exact fun _ _ he => ha.key (Place.iteration.inj he).1
  · trivial
  · trivial
  · exact fun c hc => (hhandler handler rfl c).trans hc

/-! ### Any moment -/

def Visiting (k : String) (loop : Loop) (items : List Value) (index : Nat) (c : Context) : Prop :=
  (∃ before, loop.list.resolveAs Conversion.list before = .ok items) ∧
    ∃ item, items[index]? = some item ∧ c.Shows k ⟨index, item⟩

/-- In whatever round of the iteration with the key `k` the moment lies, its item can be looked
up. -/
def Located (k : String) (loop : Loop) (m : Moment) : Prop :=
  ∀ items index, Place.iteration k items index ∈ m.path → Visiting k loop items index m.context

variable {loop : Loop}

theorem Located.within {m : Moment} {place : Place} (h : Located k loop m)
    (hp : ∀ items index, place ≠ .iteration k items index) : Located k loop (m.within place) := by
  intro items index hmem
  rcases List.mem_cons.mp hmem with he | hmem
  · exact absurd he.symm (hp items index)
  · exact h items index hmem

theorem located_rule (k key : String) (loop : Loop) :
    TraceRule (fun _ => True) (Located k loop) key where
  point := fun event _ items index hmem => by cases List.mem_singleton.mp hmem
  publish := fun _ _ => trivial
  write := fun _ _ => trivial
  children := fun h => h.within nofun
  recovery := fun h => h.within nofun

/-- A round of the iteration itself: what is published before the actions inside run is what they
find until they are done. -/
theorem once_located {items : List Value} {body : Step (Frame (Entries Record)) Unit}
    {i : IterationItem} (hitems : ∃ c, loop.list.resolveAs Conversion.list c = .ok items)
    (hi : items[i.index]? = some i.item)
    (hb : ∀ snapshot,
      body.Traces (fun c => c.action? k = some snapshot) (Showing k snapshot)) :
    (Loop.once k items body i).Traces (fun _ => True) (Located k loop) := by
  intro s _
  rw [Loop.once_eq]
  refine traces_bindAt (traces_ensureNotCancelled k s trivial) fun _ _ => ?_
  rw [reads_ensureNotCancelled k s, modify_bind, publish_bind]
  generalize hr : Record.updateProgress (fun p => { p with current := some i }) s.own = r
  have hdetail : ∃ progress iterations, r.detail = .iterate progress iterations ∧
      progress.current = some i := by
    rw [← hr]
    exact ⟨_, _, rfl, rfl⟩
  obtain ⟨progress, iterations, hd, hcurrent⟩ := hdetail
  -- Nothing inside publishes under `k`, so that this snapshot stays for the whole round.
  have hround : ∀ m, Showing k r.snapshot m →
      Located k loop (m.within (.iteration k items i.index)) := by
    intro m hm items' index hmem
    rcases List.mem_cons.mp hmem with he | hmem
    · cases he
      exact ⟨hitems, i.item, hi, Context.shows_of_action? hm.1 hd hcurrent⟩
    · exact absurd hmem (hm.2 items' index)
  have hpart : body.Traces (fun c => c.action? k = some r.snapshot)
      (fun m => Located k loop (m.within (.iteration k items i.index))) := fun s hs =>
    (hb r.snapshot s hs).mono (fun _ h => h) hround
  have hpublished : (s.context.publish k r.snapshot).action? k = some r.snapshot :=
    Context.action?_publish_self _ _ _
  refine traces_bindAt ?_ fun _ _ => ?_
  · have hfile := traces_fileWithin [] (fun records => Record.addIteration ⟨i.index, records⟩) hpart
    exact (hfile ⟨r, _⟩ hpublished).mono (fun _ _ => trivial) fun _ h => h
  · exact traces_bind (traces_modify _) (fun _ => (located_rule k k loop).published) _ trivial

structure Respects (it : Action) (a : Action) : Prop where
  only : a.key = it.key → a = it
  handlers : ∀ handler ∈ a.kind.handler?, ∀ c,
    (handler.handle c).context.action? it.key = c.action? it.key

theorem located_node {it : Action} {actions : List Action} (hit : it.kind = .iterate loop actions)
    (hbelow : ∀ b ∈ forest actions, b.Apart it.key) (a : Action) (ha : Respects it a)
    (inside : ∀ b ∈ a.kind.actions, b.handle.Traces (fun _ => True) (Located it.key loop))
    (recovery : ∀ b ∈ a.errorActions, b.handle.Traces (fun _ => True) (Located it.key loop)) :
    a.handle.Traces (fun _ => True) (Located it.key loop) := by
  have rule := located_rule it.key a.key loop
  refine traces_handle rule ?_ inside recovery
  -- Rounds of any other iteration are places of another key.
  by_cases hkey : a.key = it.key
  · have he := ha.only hkey
    subst he
    rw [hit]
    intro items hitems i hi
    refine once_located hitems hi fun snapshot => traces_runSequence ?_
    exact forest_induction (showing_node snapshot) hbelow
  · generalize a.kind = kind at inside
    rcases kind with ⟨parallel, actions⟩ | ⟨loop, actions⟩ | (p | ⟨property, path, value⟩ |
      handler)
    · trivial
    · intro items _ i _
      refine Loop.traces_once rule items i (fun h => h.within ?_) (traces_runSequence inside)
      exact fun _ _ he => hkey (Place.iteration.inj he).1
    · trivial
    · trivial
    · exact fun _ _ => trivial

end Action

/-! ### Turns of other keys -/

namespace Turn

open ActionFlow.Action

variable {k key : String} {t : Turn}

/-- The turn changes nothing under the key, and lies in none of its rounds. -/
structure Aside (k : String) (t : Turn) : Prop extends Turn.Steady k t where
  outside : ∀ m ∈ t.journal, Outside k m

theorem Aside.within {place : Place} (h : t.Aside k)
    (hp : ∀ items index, place ≠ .iteration k items index) : (t.within place).Aside k := by
  refine ⟨h.toSteady.within place, fun m hm => ?_⟩
  obtain ⟨inner, hinner, rfl⟩ := List.mem_map.mp hm
  exact (h.outside inner hinner).within hp

theorem Alone.aside (h : t.Alone key) (k : String) : t.Aside k := by
  refine ⟨h.toQuiet.steady k, fun m hm items index hmem => ?_⟩
  rw [h.path m hm] at hmem
  cases List.mem_singleton.mp hmem

theorem aside_showing (h : key ≠ k) (r : Record) (c : Context) : (Turn.showing key r c).Aside k :=
  ⟨Turn.steady_showing h.symm r c, nofun⟩

end Turn

namespace Action

open Turns

variable {k : String} {loop : Loop}

theorem outside_call {key : String} {handler : Handler} {s : Frame Record} {m : Moment}
    (hm : m ∈ (Logic.call key handler s).journal) : Outside k m := by
  intro items index hmem
  rcases List.mem_cons.mp hm with rfl | hm
  · cases List.mem_singleton.mp hmem
  · obtain ⟨text, -, rfl⟩ := List.mem_map.mp hm
    cases List.mem_singleton.mp hmem

/-- However the handling of the action takes turns, they have nothing to do with the key. -/
def StaysAside (k : String) (a : Action) : Prop := ∀ turns result r,
  a.turns a.freshRecord turns result r → ∀ t ∈ turns, t.Aside k

section Members

variable {actions : List Action} (h : ∀ a ∈ actions, a.StaysAside k)

include h

theorem aside_sequence {done records : Entries Record} {turns : List Turn}
    {result : Except Fault Unit} (hs : sequenceTurns actions done turns result records) :
    ∀ t ∈ turns, t.Aside k :=
  sequence_gathers (V := fun turns => ∀ t ∈ turns, t.Aside k) nofun
    (fun hx hy => List.forall_mem_append.mpr ⟨hx, hy⟩)
    (fun hidle t ht => ((hidle t ht).alone "").aside k) h hs

theorem aside_tasks {each : List (List Turn)} {tasks : List Task}
    (hs : Ended (taskTurns actions) each tasks) : ∀ turns ∈ each, ∀ t ∈ turns, t.Aside k := by
  induction actions generalizing each tasks with
  | nil =>
    rw [taskTurns] at hs
    cases hs
    exact List.forall_mem_nil _
  | cons a rest ih =>
    obtain ⟨ran, r, result, others, later, hran, hothers, rfl, -⟩ := ended_cons hs
    refine List.forall_mem_cons.mpr ⟨h a List.mem_cons_self ran result r hran, ?_⟩
    exact ih (fun b hb => h b (List.mem_cons_of_mem _ hb)) hothers

theorem aside_children {parallel : Bool} {turns : List Turn} {result : Except Fault Unit}
    {records : Entries Record} (hs : childrenTurns parallel actions [] turns result records) :
    ∀ t ∈ turns, t.Aside k := by
  cases parallel with
  | false => exact aside_sequence h hs
  | true =>
    obtain ⟨each, tasks, inner, idle, c, hended, horder, rfl, hidle, -, -⟩ := together_ways hs
    refine List.forall_mem_append.mpr ⟨fun t ht => ?_, fun t ht => ?_⟩
    · obtain ⟨part, hpart, ht⟩ := horder.mem.mp ht
      exact aside_tasks h hended part hpart t ht
    · exact ((hidle t ht).alone "").aside k

end Members

theorem aside_within {turns : List Turn} {place : Place}
    (hp : ∀ items index, place ≠ .iteration k items index) (h : ∀ t ∈ turns, t.Aside k) :
    ∀ t ∈ turns.map (Turn.within place), t.Aside k :=
  List.forall_mem_map.mpr fun t ht => (h t ht).within hp

theorem aside_node (a : Action) (ha : a.Apart k) (inside : ∀ b ∈ a.kind.actions, b.StaysAside k)
    (recovery : ∀ b ∈ a.errorActions, b.StaysAside k) : a.StaysAside k := by
  have gathers : a.Gathers fun turns => ∀ t ∈ turns, t.Aside k := by
    refine ⟨nofun, fun hx hy => List.forall_mem_append.mpr ⟨hx, hy⟩, ?_, ?_, ?_, ?_, ?_, ?_⟩
    · exact fun ht => List.forall_mem_singleton.mpr (ht.aside k)
    · exact fun r c => List.forall_mem_singleton.mpr (Turn.aside_showing ha.key r c)
    · intro handler hhandler s
      have hleft := ha.handlers handler hhandler s.context
      refine List.forall_mem_singleton.mpr ⟨⟨fun m hm => ?_, hleft⟩, fun m => outside_call⟩
      rcases List.mem_cons.mp hm with rfl | hm
      · rfl
      · obtain ⟨text, -, rfl⟩ := List.mem_map.mp hm
        exact hleft
    · intro parallel actions inner result records hkind hs
      rw [hkind] at inside
      exact aside_within nofun (aside_children inside hs)
    · intro loop actions items i p iterations r inner result records c hkind _ _ _ _ hs
      rw [hkind] at inside
      have hplace : ∀ items' index,
          Place.iteration a.key items i.index ≠ .iteration k items' index :=
        fun _ _ he => ha.key (Place.iteration.inj he).1
      exact List.forall_mem_cons.mpr ⟨Turn.aside_showing ha.key r c,
        aside_within hplace (aside_sequence inside hs)⟩
    · exact fun hs => aside_within nofun (aside_sequence recovery hs)
  exact fun turns result r hs => gathers.turns hs

/-! ### Turns in any order -/

/-- Each turn that finds under `k` what the turn before it left has its moments located. -/
def Found (k : String) (loop : Loop) : Option Value → List Turn → Prop
  | _, [] => True
  | v, t :: rest => t.before.action? k = v →
    (∀ m ∈ t.journal, Located k loop m) ∧ Found k loop (t.after.action? k) rest

theorem Outside.located {m : Moment} (h : Outside k m) : Located k loop m :=
  fun items index hmem => absurd hmem (h items index)

namespace Found

variable {v : Option Value} {xs ys zs turns : List Turn}

theorem append (h : Found k loop v xs) (h' : ∀ w, Found k loop w ys) :
    Found k loop v (xs ++ ys) := by
  induction xs generalizing v with
  | nil => exact h' v
  | cons t rest ih => exact fun hv => ⟨(h hv).1, ih (h hv).2⟩

/-- Turns that have nothing to do with the key may come in between. -/
theorem shuffle (h : Found k loop v xs) (hy : ∀ t ∈ ys, t.Aside k) (hs : Shuffle xs ys zs) :
    Found k loop v zs := by
  induction hs generalizing v with
  | nil => trivial
  | left t others ih => exact fun hv => ⟨(h hv).1, ih (h hv).2 hy⟩
  | right t others ih =>
    intro hv
    obtain ⟨ht, hrest⟩ := List.forall_mem_cons.mp hy
    refine ⟨fun m hm => (ht.outside m hm).located, ?_⟩
    rw [ht.after, hv]
    exact ih h hrest

theorem of_aside (h : ∀ t ∈ turns, t.Aside k) : Found k loop v turns :=
  shuffle (show Found k loop v [] from trivial) h (.nil_left turns)

theorem singleton {t : Turn} (h : ∀ m ∈ t.journal, Located k loop m) : Found k loop v [t] :=
  fun _ => ⟨h, trivial⟩

theorem within {place : Place} (hp : ∀ items index, place ≠ .iteration k items index)
    (h : Found k loop v turns) : Found k loop v (turns.map (Turn.within place)) := by
  induction turns generalizing v with
  | nil => trivial
  | cons t rest ih =>
    intro hv
    obtain ⟨hlocated, hrest⟩ := h hv
    exact ⟨List.forall_mem_map.mpr fun m hm => (hlocated m hm).within hp, ih hrest⟩

/-- Turns that have nothing to do with the key leave what is shown under it, so that all their
moments find it. -/
theorem of_showing {snapshot : Value} {place : Place} (h : ∀ t ∈ turns, t.Aside k)
    (hplace : ∀ m, Showing k snapshot m → Located k loop (m.within place)) :
    Found k loop (some snapshot) (turns.map (Turn.within place)) := by
  induction turns with
  | nil => trivial
  | cons t rest ih =>
    intro hv
    obtain ⟨ht, hrest⟩ := List.forall_mem_cons.mp h
    have hbefore : t.before.action? k = some snapshot := hv
    constructor
    · refine List.forall_mem_map.mpr fun m hm => hplace m ⟨?_, ht.outside m hm⟩
      exact (ht.journal m hm).trans hbefore
    · have hafter : (t.within place).after.action? k = some snapshot := ht.after.trans hbefore
      rw [hafter]
      exact ih hrest

theorem located {c d : Context} (hl : Linked c turns d) (h : Found k loop (c.action? k) turns) :
    ∀ m ∈ turns.flatMap Turn.journal, Located k loop m := by
  induction turns generalizing c with
  | nil => exact nofun
  | cons t rest ih =>
    obtain ⟨rfl, hrest⟩ := hl
    obtain ⟨hlocated, hfound⟩ := h rfl
    rw [List.flatMap_cons]
    exact List.forall_mem_append.mpr ⟨hlocated, ih hrest hfound⟩

end Found

/-- However the handling of the action takes turns, their moments are located. -/
def Locates (k : String) (loop : Loop) (a : Action) : Prop := ∀ turns result r,
  a.turns a.freshRecord turns result r → ∀ v, Found k loop v turns

/-- At most one of the actions has the key, and no handler changes what is published under it. -/
structure Single (k : String) (actions : List Action) : Prop where
  count : (actions.map key).count k ≤ 1
  handlers : ∀ b ∈ actions, ∀ handler ∈ b.kind.handler?, ∀ c,
    (handler.handle c).context.action? k = c.action? k

theorem Single.sublist {xs ys : List Action} (h : Single k ys) (hs : xs.Sublist ys) :
    Single k xs :=
  ⟨((hs.map key).count_le k).trans h.count, fun b hb => h.handlers b (hs.subset hb)⟩

theorem Single.apart {actions : List Action} (h : Single k actions) (hk : k ∉ actions.map key) :
    ∀ b ∈ actions, b.Apart k :=
  fun b hb => ⟨fun he => hk (he ▸ List.mem_map_of_mem hb), h.handlers b hb⟩

/-- One of the two parts has nothing to do with the key. -/
theorem Single.apart_or {xs ys : List Action} (h : Single k (xs ++ ys)) :
    (∀ b ∈ xs, b.Apart k) ∨ ∀ b ∈ ys, b.Apart k := by
  have hcount := h.count
  rw [List.map_append, List.count_append] at hcount
  by_cases hx : k ∈ xs.map key
  · have hpos := List.count_pos_iff.mpr hx
    have hy : k ∉ ys.map key := List.count_eq_zero.mp (by omega)
    exact .inr ((h.sublist (List.sublist_append_right xs ys)).apart hy)
  · exact .inl ((h.sublist (List.sublist_append_left xs ys)).apart hx)

/-- Where the key is that of the root, all the actions inside are apart from it. -/
theorem Single.inside {a : Action} (h : Single a.key a.tree) :
    ∀ b ∈ forest a.kind.actions, b.Apart a.key := by
  rw [tree_eq] at h
  have hroot : Single a.key ([a] ++ (forest a.kind.actions ++ forest a.errorActions)) := h
  have hapart := hroot.apart_or.resolve_left fun h => (h a List.mem_cons_self).key rfl
  exact fun b hb => hapart b (List.mem_append_left _ hb)

section Members

variable {actions : List Action} (h : ∀ a ∈ actions, a.Locates k loop)

include h

theorem found_sequence {done records : Entries Record} {turns : List Turn}
    {result : Except Fault Unit} (hs : sequenceTurns actions done turns result records)
    (v : Option Value) : Found k loop v turns :=
  sequence_gathers (V := fun turns => ∀ v, Found k loop v turns) (fun _ => trivial)
    (fun hx hy v => (hx v).append hy)
    (fun hidle _ => .of_aside fun t ht => ((hidle t ht).alone "").aside k) h hs v

/-- Among tasks that take turns at most one has to do with the key. -/
theorem found_tasks (hsingle : Single k (forest actions)) {each : List (List Turn)}
    {tasks : List Task} {turns : List Turn} (hs : Ended (taskTurns actions) each tasks)
    (ho : Interleaving each turns) (v : Option Value) : Found k loop v turns := by
  induction actions generalizing each tasks turns with
  | nil =>
    rw [taskTurns] at hs
    cases hs
    rw [ho.eq_nil]
    trivial
  | cons a rest ih =>
    obtain ⟨ran, r, result, others, later, hran, hothers, rfl, -⟩ := ended_cons hs
    obtain ⟨between, horder, hshuffle⟩ := ho.shuffle
    obtain ⟨hfirst, hrest⟩ := List.forall_mem_cons.mp h
    rw [forest_cons] at hsingle
    rcases hsingle.apart_or with hapart | hapart
    · have haside := tree_induction aside_node a hapart ran result r hran
      have hlater : Single k (forest rest) := hsingle.sublist (List.sublist_append_right _ _)
      exact (ih hrest hlater hothers horder).shuffle haside hshuffle.symm
    · refine (hfirst ran result r hran v).shuffle (fun t ht => ?_) hshuffle
      obtain ⟨part, hpart, ht⟩ := horder.mem.mp ht
      exact aside_tasks (forest_induction aside_node hapart) hothers part hpart t ht

theorem found_children (hsingle : Single k (forest actions)) {parallel : Bool} {turns : List Turn}
    {result : Except Fault Unit} {records : Entries Record}
    (hs : childrenTurns parallel actions [] turns result records) (v : Option Value) :
    Found k loop v turns := by
  cases parallel with
  | false => exact found_sequence h hs v
  | true =>
    obtain ⟨each, tasks, inner, idle, c, hended, horder, rfl, hidle, -, -⟩ := together_ways hs
    refine (found_tasks h hsingle hended horder v).append fun w => ?_
    exact .of_aside fun t ht => ((hidle t ht).alone "").aside k

end Members

/-- A round of the iteration itself: what it has shown before is what the actions inside find until
they are done. -/
theorem found_round {items : List Value} {i : IterationItem} {r : Record} {p : Progress}
    {iterations : List (Iteration Record)} {inner : List Turn} (c : Context)
    (hitems : ∃ d, loop.list.resolveAs Conversion.list d = .ok items)
    (hi : items[i.index]? = some i.item) (hdetail : r.detail = .iterate p iterations)
    (hcurrent : p.current = some i) (h : ∀ t ∈ inner, t.Aside k) (v : Option Value) :
    Found k loop v
      (.showing k r c :: inner.map (Turn.within (.iteration k items i.index))) := by
  refine fun _ => ⟨nofun, ?_⟩
  rw [Turn.showing, Context.action?_publish_self]
  refine .of_showing h fun m hm items' index hmem => ?_
  rcases List.mem_cons.mp hmem with he | hmem
  · cases he
    exact ⟨hitems, i.item, hi, Context.shows_of_action? hm.1 hdetail hcurrent⟩
  · exact absurd hmem (hm.2 items' index)

theorem locates_node {it : Action} {actions : List Action} (hit : it.kind = .iterate loop actions)
    (a : Action) (ha : (a.key = it.key → a = it) ∧ Single it.key a.tree)
    (inside : ∀ b ∈ a.kind.actions, b.Locates it.key loop)
    (recovery : ∀ b ∈ a.errorActions, b.Locates it.key loop) : a.Locates it.key loop := by
  obtain ⟨honly, hsingle⟩ := ha
  have hsub : (forest a.kind.actions).Sublist a.tree := by
    rw [tree_eq]
    exact (List.sublist_append_left _ _).trans (List.sublist_cons_self _ _)
  have hinside : Single it.key (forest a.kind.actions) := hsingle.sublist hsub
  have gathers : a.Gathers fun turns => ∀ v, Found it.key loop v turns := by
    refine ⟨fun _ => trivial, fun hx hy v => (hx v).append hy, ?_, ?_, ?_, ?_, ?_, ?_⟩
    · exact fun ht _ => .singleton fun m hm => ((ht.aside it.key).outside m hm).located
    · exact fun r c _ => .singleton nofun
    · exact fun handler _ s _ => .singleton fun m hm => (outside_call hm).located
    · intro parallel actions inner result records hkind hs v
      rw [hkind] at inside hinside
      exact (found_children inside hinside hs v).within nofun
    · intro loop' actions' items i p iterations r inner result records c hkind hitems hi hdetail
        hcurrent hs v
      by_cases hkey : a.key = it.key
      · obtain rfl := honly hkey
        obtain ⟨rfl, rfl⟩ := Kind.iterate.inj (hit.symm.trans hkind)
        have hbelow := hsingle.inside
        rw [hkind] at hbelow
        refine found_round c hitems hi hdetail hcurrent ?_ v
        exact aside_sequence (forest_induction aside_node hbelow) hs
      · have hplace : ∀ items' index,
            Place.iteration a.key items i.index ≠ .iteration it.key items' index :=
          fun _ _ he => hkey (Place.iteration.inj he).1
        rw [hkind] at inside
        have hshown : Found it.key loop v [.showing a.key r c] := .singleton nofun
        exact hshown.append fun w => (found_sequence inside hs w).within hplace
    · exact fun hs v => (found_sequence recovery hs v).within nofun
  exact fun turns result r hs => gathers.turns hs

end Action

/-! ### The automation -/

theorem eq_of_count_eq_one {α : Type} {f : α → String} {k : String} {xs : List α}
    (h : (xs.map f).count k = 1) {a b : α} (ha : a ∈ xs) (hb : b ∈ xs) (hfa : f a = k)
    (hfb : f b = k) : a = b := by
  induction xs with
  | nil => cases ha
  | cons x rest ih =>
    rw [List.map_cons, List.count_cons] at h
    have hmem : ∀ y ∈ rest, f y = k → 0 < (rest.map f).count k := fun y hy hf =>
      List.count_pos_iff.mpr (hf ▸ List.mem_map_of_mem hy)
    rcases List.mem_cons.mp ha with rfl | ha
    · rcases List.mem_cons.mp hb with rfl | hb
      · rfl
      · have hpos := hmem b hb hfb
        simp only [hfa, beq_self_eq_true, if_true] at h
        omega
    · have hpos := hmem a ha hfa
      rcases List.mem_cons.mp hb with rfl | hb
      · simp only [hfb, beq_self_eq_true, if_true] at h
        omega
      · refine ih ?_ ha hb
        split at h <;> omega

/-- In whatever round of the iteration with the key `k` the moment lies, the place of the item and
the item itself, as far as it can be shown, are found under the key. -/
def Moment.Finds (k : String) (loop : Loop) (m : Moment) : Prop :=
  ∀ items index, Place.iteration k items index ∈ m.path →
    (∃ c, loop.list.resolveAs Conversion.list c = .ok items) ∧
      ∃ item, items[index]? = some item ∧
        m.context.lookup (.currentIteration k "index") = some (.integer index) ∧
        m.context.lookup (.currentIteration k "item") = some item.written ∧
        (m.context.lookup (.currentIteration k "item") = some item ↔ item.isPlain = true)

theorem Action.Located.finds {k : String} {loop : Loop} {m : Moment} (h : Located k loop m) :
    m.Finds k loop := by
  intro items index hplace
  obtain ⟨hitems, item, hitem, hshows⟩ := h items index hplace
  refine ⟨hitems, item, hitem, hshows.index, hshows.item, ?_⟩
  rw [hshows.item, Option.some.injEq]
  exact Value.written_eq_self_iff item

section Automation

variable {a : Automation} {it : Action} {loop : Loop} {actions : List Action}
  (hmem : it ∈ Action.forest a.actions) (hit : it.kind = .iterate loop actions)
  (honly : ((Action.forest a.actions).map Action.key).count it.key = 1)
  (hh : a.HandlersKeep fun c => c.action? it.key)

include hmem hit honly hh

theorem Automation.located_of_run {ctx : Context} :
    ∀ m ∈ (a.run ctx).journal, Action.Located it.key loop m := by
  have hall : Action.Single it.key (Action.forest a.actions) := ⟨honly.le, hh⟩
  have hbelow := (hall.sublist (Action.forest_sublist hmem)).inside
  rw [hit] at hbelow
  have hready : ∀ b ∈ Action.forest a.actions, Action.Respects it b := fun b hb =>
    ⟨fun hkey => eq_of_count_eq_one honly hb hmem hkey rfl, hh b hb⟩
  have hlocated : (Action.runSequence a.actions).Traces (fun _ => True)
      (Action.Located it.key loop) :=
    Action.traces_runSequence (Action.forest_induction (Action.located_node hit hbelow) hready)
  exact (hlocated ⟨[], ctx⟩ trivial).2

theorem Automation.located_of_schedule {ctx last : Context} {turns : List Turn}
    {result : Except Fault Unit} {records : Entries Record}
    (h : a.Schedule ctx turns result records last) :
    ∀ m ∈ turns.flatMap Turn.journal, Action.Located it.key loop m := by
  have hall : Action.Single it.key (Action.forest a.actions) := ⟨honly.le, hh⟩
  have hready : ∀ b ∈ Action.forest a.actions,
      (b.key = it.key → b = it) ∧ Action.Single it.key b.tree := fun b hb =>
    ⟨fun hkey => eq_of_count_eq_one honly hb hmem hkey rfl, hall.sublist (Action.forest_sublist hb)⟩
  have hlocates := Action.forest_induction (Action.locates_node hit) hready
  exact (Action.found_sequence hlocates h.1 (ctx.action? it.key)).located h.2

/-- Every moment in a round of the iteration finds the item, in the run and in every order that the
tasks may take. -/
theorem Automation.currentItem_eq_written (ctx : Context) :
    (∀ m ∈ (a.run ctx).journal, m.Finds it.key loop) ∧
      ∀ turns result records last, a.Schedule ctx turns result records last →
        ∀ m ∈ turns.flatMap Turn.journal, m.Finds it.key loop :=
  ⟨fun m hm => (located_of_run hmem hit honly hh m hm).finds,
    fun _ _ _ _ h m hm => (located_of_schedule hmem hit honly hh h m hm).finds⟩

end Automation

/-- An iteration over the trigger, with an action inside that copies the item to a variable. -/
def Automation.copied : Automation where
  name := "copied"
  actions :=
    [{ head := { name := "each", key := "each" }
       kind := .iterate { list := .lookup ⟨["trigger"]⟩ none }
        [{ head := { name := "copy", key := "copy" }
           kind := .simple (.setVariable (.constant (.text "seen")) none
            (.lookup (.currentIteration "each" "item") none))
           errorActions := [] }]
       errorActions := [] }]

/-- A context that was triggered by bytes. -/
def Context.triggered : Context := .start "run" "now" (.array [.binary [104, 105]])

theorem Automation.currentItem_eq_written_copied :
    ((Action.forest copied.actions).map Action.key).count "each" = 1 ∧
      (copied.HandlersKeep fun c => c.action? "each") ∧
      ∃ turns result records last, copied.Schedule .triggered turns result records last ∧
        ∃ m ∈ (copied.run .triggered).journal, m ∈ turns.flatMap Turn.journal ∧
          Place.iteration "each" [.binary [104, 105]] 0 ∈ m.path ∧
            m.Finds "each" { list := .lookup ⟨["trigger"]⟩ none } ∧
            ∃ item, [Value.binary [104, 105]][0]? = some item ∧
              m.context.lookup (.currentIteration "each" "item") = some item.written ∧
              (m.context.lookup (.currentIteration "each" "item") = some item ↔
                item.isPlain = true) := by
  have hmem : _ ∈ Action.forest copied.actions := List.mem_cons_self
  have honly : ((Action.forest copied.actions).map Action.key).count "each" = 1 := by decide
  have hactions : ∀ b ∈ Action.forest copied.actions,
      (∀ actions, b.kind ≠ .group true actions) ∧ b.kind.handler? = none := by
    intro b hb
    rcases List.mem_cons.mp hb with rfl | hb
    · exact ⟨nofun, rfl⟩
    · rw [List.mem_singleton.mp hb]
      exact ⟨nofun, rfl⟩
  have hh : copied.HandlersKeep fun c => c.action? "each" := by
    intro b hb handler hhandler
    rw [(hactions b hb).2] at hhandler
    cases hhandler
  have hc : copied.CalmTasks := fun b hb actions hkind =>
    absurd hkind ((hactions b hb).1 actions)
  have hs : (copied.run .triggered).Settled := Ending.settled_of_ok rfl
  obtain ⟨turns, result, hschedule, -, hjournal⟩ := exists_schedule hc hs
  have hm := List.mem_of_getElem? (l := (copied.run .triggered).journal) (i := 3) rfl
  have hplace : Place.iteration "each" [.binary [104, 105]] 0 ∈
      [Place.iteration "each" [.binary [104, 105]] 0, .action "copy"] := List.mem_cons_self
  obtain ⟨hrun, hschedules⟩ := currentItem_eq_written hmem rfl honly hh .triggered
  have hfinds := hschedules turns result _ _ hschedule _ (hjournal ▸ hm)
  obtain ⟨-, item, hitem, -, hlook⟩ := hrun _ hm _ _ hplace
  exact ⟨honly, hh, turns, result, _, _, hschedule, _, hm, hjournal ▸ hm, hplace, hfinds, item,
    hitem, hlook⟩

theorem Automation.currentItem_ne_bytes :
    (copied.run .triggered).state.context.vars = [("seen", .text "aGk=")] ∧
      ∃ m ∈ (copied.run .triggered).journal,
        Place.iteration "each" [.binary [104, 105]] 0 ∈ m.path ∧
          m.context.lookup (.currentIteration "each" "item") = some (.text "aGk=") ∧
          m.context.lookup (.currentIteration "each" "item") ≠ some (.binary [104, 105]) := by
  have hm := List.mem_of_getElem? (l := (copied.run .triggered).journal) (i := 3) rfl
  have hlook : some (Value.text "aGk=") ≠ some (.binary [104, 105]) := nofun
  exact ⟨rfl, _, hm, List.mem_cons_self, rfl, hlook⟩

end ActionFlow
