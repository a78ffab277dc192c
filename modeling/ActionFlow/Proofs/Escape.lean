import ActionFlow.Proofs.TurnHandling

/-!
# How faults escape

The fault of an execution may be handled by its error actions, or replaced by one of theirs.  What
escapes an execution in the end can be read off its record.  Here the outcome of a run, and the
fault of every group and iteration in it, is explained by what escaped the records inside.
-/
namespace ActionFlow

namespace Record

mutual
/-- The fault that an execution let escape: none without a fault, its own without error actions,
else what escaped the last of these. -/
def escape (r : Record) : Option Fault :=
  match r with
  | ⟨_, _, _, _, _, _, none, _, _, _⟩ => none
  | ⟨_, _, _, _, _, _, some fault, _, errorActions, _⟩ => lastEscape (some fault) errorActions

/-- The fault that the last of the records let escape, or `otherwise` if there are none. -/
def lastEscape (otherwise : Option Fault) (records : List (String × Record)) : Option Fault :=
  match records with
  | [] => otherwise
  | (_, r) :: rest => lastEscape r.escape rest
end

def firstEscape (records : Entries Record) : Option Fault := records.findSome? fun p => p.2.escape

theorem lastEscape_eq (otherwise : Option Fault) (records : Entries Record) :
    lastEscape otherwise records =
      match records.getLast? with
      | none => otherwise
      | some p => p.2.escape := by
  induction records generalizing otherwise with
  | nil => rw [lastEscape]; rfl
  | cons p rest ih =>
    obtain ⟨k, r⟩ := p
    rw [lastEscape, ih]
    cases rest with
    | nil => rfl
    | cons q rest => rw [List.getLast?_cons_cons]; rfl

theorem escape_of_none {r : Record} (h : r.fault = none) : r.escape = none := by
  cases r
  cases h
  rw [escape]

theorem escape_of_some {r : Record} {fault : Fault} (h : r.fault = some fault) :
    r.escape = lastEscape (some fault) r.errorActions := by
  cases r
  cases h
  rw [escape]

theorem escape_of_nil {r : Record} (h : r.errorActions = []) : r.escape = r.fault := by
  cases hf : r.fault with
  | none => exact escape_of_none hf
  | some fault =>
    rw [escape_of_some hf, h]
    rfl

theorem escape_recovered {r : Record} {fault : Fault} (h : r.fault = some fault)
    (records : Entries Record) :
    ({ r with errorActions := records } : Record).escape = lastEscape (some fault) records := by
  refine escape_of_some ?_
  exact h

end Record

/-! ### Tables -/

/-- The records of a sequence that the fault `x` or none escaped: it escaped the last of them, and
nothing escaped those before. -/
structure EscapesLast (x : Option Fault) (records : Entries Record) : Prop where
  last : (records.getLast?.bind fun p => p.2.escape) = x
  before : ∀ p ∈ records.dropLast, p.2.escape = none

namespace EscapesLast

variable {x : Option Fault} {records : Entries Record}

theorem nil : EscapesLast none [] := ⟨rfl, nofun⟩

theorem single (key : String) {r : Record} (h : r.escape = x) : EscapesLast x [(key, r)] :=
  ⟨h, nofun⟩

theorem cons (key : String) {r : Record} (hr : r.escape = none) (h : EscapesLast x records) :
    EscapesLast x ((key, r) :: records) := by
  cases records with
  | nil => exact ⟨hr.trans h.last, nofun⟩
  | cons p rest =>
    constructor
    · rw [List.getLast?_cons_cons]
      exact h.last
    · intro q hq
      rw [List.dropLast_cons_cons, List.mem_cons] at hq
      rcases hq with rfl | hq
      · exact hr
      · exact h.before q hq

theorem eq_of_mem (h : EscapesLast x records) {p : String × Record} (hp : p ∈ records)
    {fault : Fault} (hf : p.2.escape = some fault) : x = some fault := by
  rcases List.eq_nil_or_concat records with rfl | ⟨init, q, rfl⟩
  · cases hp
  · have hlast := h.last
    rw [List.concat_eq_append] at hp hlast
    rw [List.getLast?_concat] at hlast
    rcases List.mem_append.mp hp with hp | hp
    · have hnone := h.before p (by simpa using hp)
      rw [hnone] at hf
      cases hf
    · have he : p = q := by simpa using hp
      subst he
      exact hlast.symm.trans hf

theorem none_of_mem (h : EscapesLast none records) {p : String × Record} (hp : p ∈ records) :
    p.2.escape = none := by
  cases hf : p.2.escape with
  | none => rfl
  | some fault => cases h.eq_of_mem hp hf

theorem ne_nil (h : EscapesLast x records) {expected : List String}
    (full : x = none → Entries.keys records = expected) (hne : expected ≠ []) : records ≠ [] := by
  rintro rfl
  exact hne (full h.last.symm).symm

theorem lastEscape_eq (h : EscapesLast x records) (hne : records ≠ []) (otherwise : Option Fault) :
    Record.lastEscape otherwise records = x := by
  have hlast := h.last
  rw [Record.lastEscape_eq]
  cases hr : records.getLast? with
  | none => exact absurd (List.getLast?_eq_none_iff.mp hr) hne
  | some p =>
    rw [hr] at hlast
    exact hlast

theorem firstEscape_eq (h : EscapesLast x records) : Record.firstEscape records = x := by
  cases hf : Record.firstEscape records with
  | some fault =>
    obtain ⟨p, hp, he⟩ := List.exists_of_findSome?_eq_some hf
    exact (h.eq_of_mem hp he).symm
  | none =>
    have hlast := h.last
    cases hr : records.getLast? with
    | none =>
      rw [hr] at hlast
      exact hlast
    | some p =>
      rw [hr] at hlast
      exact (List.findSome?_eq_none_iff.mp hf p (List.mem_of_getLast? hr)).symm.trans hlast

end EscapesLast

/-! ### What a record explains -/

/-- How the detail of a record accounts for the fault `x`, or for none, of its execution; `actions`
are the actions inside. -/
structure Detail.Explained (actions : List Action) (x : Option Fault) (d : Detail Record) :
    Prop where
  /-- Nested records stand in the order in which their actions are declared. -/
  order : ∀ records ∈ d.tables, Entries.keys records <+: actions.map Action.key
  /-- A group has the fault that escaped the first of its children that let one escape. -/
  group : ∀ parallel children fault, d = .group parallel children →
    Record.firstEscape children = some fault → x = some fault
  /-- An iteration has the fault that escaped an action in its last round. -/
  iterate : ∀ progress iterations i, d = .iterate progress iterations →
    iterations.getLast? = some i → ∀ p ∈ i.actions, ∀ fault, p.2.escape = some fault →
      x = some fault
  /-- Without a fault, nothing escaped anywhere right inside. -/
  quiet : x = none → ∀ records ∈ d.tables, ∀ p ∈ records, p.2.escape = none

/-- The record accounts for what became of an execution of `b`. -/
structure Record.Explained (b : Action) (r : Record) : Prop where
  key : r.key = b.key
  detail : r.detail.Explained b.kind.actions r.fault
  /-- Error actions run after a fault only. -/
  absorbed : r.fault = none → r.errorActions = []
  order : Entries.keys r.errorActions <+: b.errorActions.map Action.key

namespace Detail.Explained

variable {actions : List Action} {x : Option Fault} {d : Detail Record}

theorem stop (h : d.Explained actions none) : d.Explained actions x where
  order := h.order
  group := by
    rintro parallel children fault rfl hf
    cases h.group parallel children fault rfl hf
  iterate := by
    rintro progress iterations i rfl hi p hp fault hf
    cases h.iterate progress iterations i rfl hi p hp fault hf
  quiet := fun _ => h.quiet rfl

theorem progress {p : Progress} {iterations : List (Iteration Record)} (q : Progress)
    (h : (Detail.iterate p iterations).Explained actions x) :
    (Detail.iterate q iterations).Explained actions x where
  order := h.order
  group := nofun
  iterate := by
    intro _ _ i he
    cases he
    exact h.iterate p iterations i rfl
  quiet := h.quiet

theorem of_tables {d : Detail Record} (h : ∀ records ∈ d.tables, records = []) :
    d.Explained actions x where
  order := by
    intro records hr
    rw [h records hr]
    exact List.nil_prefix
  group := by
    rintro parallel children fault rfl hf
    rw [h children (by simp [Detail.tables])] at hf
    cases hf
  iterate := by
    rintro progress iterations i rfl hi p hp
    have hmem : i.actions ∈ (Detail.iterate progress iterations).tables :=
      List.mem_map_of_mem (List.mem_of_getLast? hi)
    rw [h i.actions hmem] at hp
    cases hp
  quiet := by
    intro _ records hr p hp
    rw [h records hr] at hp
    cases hp

theorem fresh (kind : Kind Action) (x : Option Fault) :
    kind.detail.Explained kind.actions x := by
  refine of_tables ?_
  rcases kind with _ | _ | (_ | _ | _) <;> simp [Kind.detail, Detail.tables]

theorem children (parallel : Bool) {children : Entries Record}
    (order : Entries.keys children <+: actions.map Action.key)
    (first : Record.firstEscape children = x) :
    (Detail.group parallel children).Explained actions x where
  order := by
    intro records hr
    rw [Detail.tables, List.mem_singleton] at hr
    rw [hr]
    exact order
  group := by
    intro _ _ fault he hf
    cases he
    exact first.symm.trans hf
  iterate := nofun
  quiet := by
    intro hx records hr p hp
    rw [Detail.tables, List.mem_singleton] at hr
    subst hr
    rw [hx] at first
    exact List.findSome?_eq_none_iff.mp first p hp

theorem round {q : Progress} {iterations : List (Iteration Record)} {records : Entries Record}
    (h : (Detail.iterate q iterations).Explained actions none) (index : Nat)
    (order : Entries.keys records <+: actions.map Action.key) (last : EscapesLast x records) :
    (Detail.iterate q (iterations ++ [⟨index, records⟩])).Explained actions x where
  order := by
    intro table ht
    simp only [Detail.tables, List.map_append, List.mem_append, List.map_cons, List.map_nil,
      List.mem_singleton] at ht
    rcases ht with ht | rfl
    · exact h.order table ht
    · exact order
  group := nofun
  iterate := by
    intro _ _ i he hi p hp fault hf
    cases he
    rw [List.getLast?_concat] at hi
    cases hi
    exact last.eq_of_mem hp hf
  quiet := by
    rintro rfl table ht p hp
    simp only [Detail.tables, List.map_append, List.mem_append, List.map_cons, List.map_nil,
      List.mem_singleton] at ht
    rcases ht with ht | rfl
    · exact h.quiet rfl table ht p hp
    · exact last.none_of_mem hp

end Detail.Explained

namespace Action

/-! ### What an action tells -/

def AllExplained (actions : List Action) (records : List Record) : Prop :=
  ∀ r ∈ records, ∃ b ∈ actions, r.Explained b

theorem AllExplained.nil {actions : List Action} : AllExplained actions [] := nofun

theorem AllExplained.append {actions : List Action} {xs ys : List Record}
    (hx : AllExplained actions xs) (hy : AllExplained actions ys) :
    AllExplained actions (xs ++ ys) := by
  intro r hr
  rcases List.mem_append.mp hr with hr | hr
  · exact hx r hr
  · exact hy r hr

theorem AllExplained.mono {actions more : List Action} {records : List Record}
    (h : AllExplained actions records) (hm : ∀ b ∈ actions, b ∈ more) :
    AllExplained more records := by
  intro r hr
  obtain ⟨b, hb, he⟩ := h r hr
  exact ⟨b, hm b hb, he⟩

/-- The record tells that the fault `x` or none escaped `a`, and explains itself with everything
inside. -/
structure Told (a : Action) (x : Option Fault) (r : Record) : Prop where
  escape : r.escape = x
  all : AllExplained a.tree r.tree

/-- What the records of a sequence tell that the fault `x` or none escaped. -/
structure SequenceTold (actions : List Action) (x : Option Fault) (records : Entries Record) :
    Prop where
  last : EscapesLast x records
  all : AllExplained (forest actions) (Record.forest records)

/-- What the records of the children of a group tell that the fault `x` or none escaped. -/
structure ChildrenTold (actions : List Action) (x : Option Fault) (records : Entries Record) :
    Prop where
  order : Entries.keys records <+: actions.map key
  first : Record.firstEscape records = x
  all : AllExplained (forest actions) (Record.forest records)

/-- The record of the task tells what became of `a`, whenever it is put together with the others. -/
structure TellsTask (a : Action) (t : Task) : Prop where
  start : t.start = a.freshRecord
  told : ∀ now, a.Told t.fault? (t.record now)

namespace SequenceTold

variable {actions : List Action} {x : Option Fault} {records : Entries Record} {a : Action}
  {r : Record}

theorem nil : SequenceTold actions none [] := ⟨.nil, by rw [Record.forest_nil]; exact .nil⟩

theorem single (ha : a ∈ actions) (h : a.Told x r) : SequenceTold actions x [(a.key, r)] := by
  refine ⟨.single _ h.escape, ?_⟩
  rw [Record.forest_cons, Record.forest_nil, List.append_nil]
  exact h.all.mono (forest_of_mem ha)

theorem cons (ha : a ∈ actions) (h : a.Told none r) (hrest : SequenceTold actions x records) :
    SequenceTold actions x ((a.key, r) :: records) := by
  refine ⟨hrest.last.cons _ h.escape, ?_⟩
  rw [Record.forest_cons]
  exact (h.all.mono (forest_of_mem ha)).append hrest.all

theorem children (h : SequenceTold actions x records)
    (order : Entries.keys records <+: actions.map key) : ChildrenTold actions x records :=
  ⟨order, h.last.firstEscape_eq, h.all⟩

end SequenceTold

theorem told_table {actions : List Action} {tasks : List Task}
    (h : List.Forall₂ TellsTask actions tasks) (now : String) :
    Record.firstEscape (Task.table now tasks) = tasks.findSome? Task.fault? ∧
      AllExplained (forest actions) (Record.forest (Task.table now tasks)) := by
  induction h with
  | nil => exact ⟨rfl, .nil⟩
  | @cons a t rest others ht _ ih =>
    obtain ⟨hfirst, hall⟩ := ih
    obtain ⟨hescape, htold⟩ := ht.told now
    have hcons : Task.table now (t :: others) =
        (t.start.key, t.record now) :: Task.table now others := rfl
    rw [hcons]
    constructor
    · rw [Record.firstEscape] at hfirst ⊢
      rw [List.findSome?_cons, List.findSome?_cons, hescape, hfirst]
    · rw [Record.forest_cons, forest_cons]
      exact (htold.mono fun b hb => List.mem_append_left _ hb).append
        (hall.mono fun b hb => List.mem_append_right _ hb)

/-- All tasks run, so that the group fails with the first fault in the order of declaration. -/
theorem childrenTold_settle {actions : List Action} (hn : (actions.map key).Nodup)
    {tasks : List Task} (h : List.Forall₂ TellsTask actions tasks) (c : Context) :
    ChildrenTold actions (tasks.findSome? Task.fault?) (Task.settle tasks ⟨[], c⟩).state.own := by
  have hkeys : (tasks.map fun t => t.start.key) = actions.map key := by
    induction h with
    | nil => rfl
    | cons ht _ ih =>
      rw [List.map_cons, List.map_cons, ih (List.nodup_cons.mp hn).2, ht.start]
      rfl
  have htable : (Task.settle tasks ⟨[], c⟩).state.own = Task.table c.clock tasks :=
    Task.putRecords_eq (hkeys ▸ hn) (by simp)
  have horder := (Task.keys_table c.clock tasks).trans hkeys
  obtain ⟨hfirst, hall⟩ := told_table h c.clock
  rw [htable]
  exact ⟨⟨[], (List.append_nil _).trans horder⟩, hfirst, hall⟩

/-! ### What the logic is to keep -/

/-- How the detail of a record accounts for the fault `x` or none, with everything inside. -/
structure DetailTold (actions : List Action) (x : Option Fault) (d : Detail Record) : Prop where
  own : d.Explained actions x
  inside : AllExplained (forest actions) (Record.detailForest d)

namespace DetailTold

variable {actions : List Action} {x : Option Fault} {d : Detail Record}

theorem stop (x : Option Fault) (h : DetailTold actions none d) : DetailTold actions x d :=
  ⟨h.own.stop, h.inside⟩

theorem progress {p : Progress} {iterations : List (Iteration Record)} (q : Progress)
    (h : DetailTold actions x (.iterate p iterations)) :
    DetailTold actions x (.iterate q iterations) :=
  ⟨h.own.progress q, h.inside⟩

theorem fresh (kind : Kind Action) (x : Option Fault) : DetailTold kind.actions x kind.detail :=
  ⟨.fresh kind x, by rw [Record.detailForest_detail]; exact .nil⟩

theorem children (parallel : Bool) {records : Entries Record}
    (h : ChildrenTold actions x records) : DetailTold actions x (.group parallel records) :=
  ⟨.children parallel h.order h.first, by rw [Record.detailForest]; exact h.all⟩

theorem round {p : Progress} {iterations : List (Iteration Record)} {records : Entries Record}
    (h : DetailTold actions none (.iterate p iterations)) (index : Nat)
    (order : Entries.keys records <+: actions.map key) (told : SequenceTold actions x records) :
    DetailTold actions x (.iterate p (iterations ++ [⟨index, records⟩])) := by
  refine ⟨h.own.round index order told.last, ?_⟩
  have hinside := h.inside
  rw [Record.detailForest] at hinside ⊢
  rw [Record.iterationForest_concat]
  exact hinside.append told.all

theorem write (x : Option Fault) (write : Write) : DetailTold [] x (.setVariable write) := by
  refine ⟨.of_tables (by simp [Detail.tables]), ?_⟩
  rw [Record.detailForest]
  exact .nil

theorem output (x : Option Fault) (output : Option Value) : DetailTold [] x (.external output) := by
  refine ⟨.of_tables (by simp [Detail.tables]), ?_⟩
  rw [Record.detailForest]
  exact .nil

end DetailTold

section Handled

variable {a : Action} {x : Option Fault} {r : Record} (hkey : r.key = a.key) (hfault : r.fault = x)
  (hd : DetailTold a.kind.actions x r.detail)

include hkey hfault hd

/-- Without error actions, the fault of the record is what escaped. -/
theorem told_of_nil (hnone : r.errorActions = []) : a.Told x r := by
  refine ⟨(Record.escape_of_nil hnone).trans hfault, ?_⟩
  have hown : r.Explained a :=
    ⟨hkey, hfault ▸ hd.own, fun _ => hnone, by rw [hnone]; exact List.nil_prefix⟩
  rw [Record.tree_eq, hnone, Record.forest_nil, List.append_nil]
  refine List.forall_mem_cons.mpr ⟨⟨a, a.self_mem_tree, hown⟩, ?_⟩
  exact hd.inside.mono fun _ => mem_tree_of_inside

/-- Error actions that are there leave a record, even if the first of them fails. -/
theorem told_recovered (hx : x ≠ none) (hne : a.errorActions ≠ []) {y : Option Fault}
    {records : Entries Record} (order : Entries.keys records <+: a.errorActions.map key)
    (full : y = none → Entries.keys records = a.errorActions.map key)
    (told : SequenceTold a.errorActions y records) :
    a.Told y { r with errorActions := records } := by
  obtain ⟨fault, rfl⟩ := Option.ne_none_iff_exists'.mp hx
  have hrecords := told.last.ne_nil full (by simpa using hne)
  refine ⟨(Record.escape_recovered hfault _).trans (told.last.lastEscape_eq hrecords _), ?_⟩
  have hown : ({ r with errorActions := records } : Record).Explained a :=
    ⟨hkey, hfault ▸ hd.own, fun hf => absurd (hfault.symm.trans hf) nofun, order⟩
  rw [Record.tree_eq]
  refine List.forall_mem_cons.mpr ⟨⟨a, a.self_mem_tree, hown⟩, ?_⟩
  exact (hd.inside.mono fun _ => mem_tree_of_inside).append
    (told.all.mono fun _ => mem_tree_of_recovery)

end Handled

/-! ### Runs -/

/-- Whatever context the action is handled in, its record tells what became of it. -/
def Telling (a : Action) : Prop := ∀ c, (a.ending c).Settled →
  a.Told (a.ending c).fault? (a.ending c).state.own

section Runs

variable {actions : List Action} (h : ∀ a ∈ actions, Telling a)

include h

theorem sequence_telling (hn : (actions.map key).Nodup) {c : Context}
    (hs : (runSequence actions ⟨[], c⟩).Settled) :
    Entries.keys (runSequence actions ⟨[], c⟩).state.own <+: actions.map key ∧
      ((runSequence actions ⟨[], c⟩).fault? = none →
        Entries.keys (runSequence actions ⟨[], c⟩).state.own = actions.map key) ∧
      SequenceTold actions (runSequence actions ⟨[], c⟩).fault?
        (runSequence actions ⟨[], c⟩).state.own := by
  have rule : SequenceRule actions fun _ records x _ => SequenceTold actions x records := by
    constructor
    · exact fun _ => .nil
    · intro a ha c fault hr
      have htold := h a ha c (Ending.settled_of_fault hr)
      rw [Ending.fault?_of_fault hr] at htold
      exact .single ha htold
    · intro a ha c rest x c' hr hrest
      have htold := h a ha c (Ending.settled_of_ok hr)
      rw [Ending.fault?_of_ok hr] at htold
      exact hrest.cons ha htold
  obtain ⟨added, ho, hp, ha, hR⟩ := rule.run hn (by simp) hs
  rw [ho, List.nil_append]
  exact ⟨hp, ha, hR⟩

omit h in
/-- The record of a task that panics has nothing inside. -/
theorem tellsTask {a : Action} (h : Telling a) (c : Context) : a.TellsTask (a.task c) := by
  refine ⟨rfl, fun now => ?_⟩
  by_cases hs : (a.ending c).Settled
  · rw [record_task hs, fault?_task hs]
    exact h c hs
  · obtain ⟨panic, hr⟩ := Ending.panic_of_not_settled hs
    obtain ⟨hrecord, hfault⟩ := task_of_panic hr now
    rw [hrecord, hfault]
    refine told_of_nil (by rw [Record.lost_eq]; rfl) (Record.fault_lost _ _ _) ?_
      (Record.errorActions_lost _ _ _)
    rw [Record.detail_lost]
    exact .fresh a.kind _

theorem tells_tasks (c : Context) : List.Forall₂ TellsTask actions (tasks actions c) := by
  induction actions generalizing c with
  | nil => exact .nil
  | cons a rest ih =>
    refine .cons (tellsTask (h a List.mem_cons_self) c) ?_
    exact ih (fun b hb => h b (List.mem_cons_of_mem _ hb)) _

theorem children_telling (hn : (actions.map key).Nodup) (parallel : Bool) {c : Context}
    (hs : (childrenEnding parallel actions c).Settled) :
    ChildrenTold actions (childrenEnding parallel actions c).fault?
      (childrenEnding parallel actions c).state.own := by
  cases parallel with
  | false =>
    obtain ⟨hkeys, -, htold⟩ := sequence_telling h hn hs
    exact htold.children hkeys
  | true =>
    have hfault : (childrenEnding true actions c).fault? =
        (tasks actions c).findSome? Task.fault? := fault?_runParallel actions c
    have hstate : (childrenEnding true actions c).state =
        (Task.settle (tasks actions c) ⟨[], afterTasks actions c⟩).state :=
      state_runParallel_put actions c
    rw [hfault, hstate]
    exact childrenTold_settle hn (tells_tasks h c) _

end Runs

theorem detailTold_steady (actions : List Action) : Steady fun x d _ => DetailTold actions x d :=
  ⟨fun x h => h.stop x, fun q h => h.progress q⟩

theorem detailTold_rule (k : String) {kind : Kind Action} (hn : (kind.actions.map key).Nodup)
    (h : ∀ a ∈ kind.actions, Telling a) :
    KindRule k (fun x d _ => DetailTold kind.actions x d) kind := by
  rcases kind with ⟨parallel, actions⟩ | ⟨loop, actions⟩ | (p | ⟨property, path, value⟩ | handler)
  · exact fun c _ hs => .children parallel (children_telling h hn parallel hs)
  · refine ⟨fun _ hk => hk, fun x hk => hk.stop x, ?_⟩
    intro iterations c index hk hs
    obtain ⟨hkeys, -, htold⟩ := sequence_telling h hn hs
    exact hk.round index hkeys htold
  · trivial
  · intro name path value c _
    split
    · exact .write _ _
    · exact .write _ _
  · exact fun x c _ => .output _ _

theorem telling_node (a : Action) (hd : a.DistinctBelow) (inside : ∀ b ∈ a.kind.actions, Telling b)
    (recovery : ∀ b ∈ a.errorActions, Telling b) : Telling a := by
  intro c hs
  have left := ending_left (detailTold_steady _) (detailTold_rule a.key hd.1 inside)
    (DetailTold.fresh a.kind none) hs
  generalize hr : (a.ending c).result = result at left
  generalize (a.ending c).state = state at left ⊢
  cases left with
  | passed closed =>
    rw [Ending.fault?_of_ok hr]
    exact told_of_nil closed.key closed.fault closed.kept closed.errorActions
  | escaped closed none =>
    rw [Ending.fault?_of_fault hr]
    exact told_of_nil closed.key closed.fault closed.kept closed.errorActions
  | recovered closed hne ran settled =>
    rw [Ending.fault?_congr hr]
    subst ran
    obtain ⟨hkeys, hfull, htold⟩ := sequence_telling recovery hd.2 settled
    exact told_recovered closed.key closed.fault closed.kept nofun hne hkeys hfull htold

/-! ### Turns -/

open Turns

/-- However the handling of the action takes turns, its record tells what became of it. -/
def TellingInTurns (a : Action) : Prop := ∀ turns result r,
  a.turns a.freshRecord turns result r → a.Told (fault? result) r

section Turns

variable {actions : List Action} (h : ∀ a ∈ actions, TellingInTurns a) {turns : List Turn}
  {result : Except Fault Unit} {records : Entries Record}

include h

theorem sequence_tellingInTurns (hn : (actions.map key).Nodup)
    (hs : sequenceTurns actions [] turns result records) :
    Entries.keys records <+: actions.map key ∧
      (fault? result = none → Entries.keys records = actions.map key) ∧
      SequenceTold actions (fault? result) records := by
  have ways : SequenceWays actions fun _ records x => SequenceTold actions x records := by
    refine ⟨.nil, ?_, ?_⟩
    · exact fun a ha ran _ r fault hran _ => .single ha (h a ha ran _ r hran)
    · exact fun a ha ran _ r _ rest x hran _ hrest => hrest.cons ha (h a ha ran _ r hran)
  obtain ⟨added, rfl, hp, ha, hR⟩ := ways.run hn (by simp) hs
  exact ⟨hp, ha, hR⟩

theorem tells_ended {each : List (List Turn)} {tasks : List Task}
    (hs : Turns.Ended (taskTurns actions) each tasks) :
    List.Forall₂ TellsTask actions tasks := by
  induction actions generalizing each tasks with
  | nil =>
    rw [taskTurns] at hs
    cases hs
    exact .nil
  | cons a rest ih =>
    obtain ⟨ran, r, result, others, later, hran, hothers, -, rfl⟩ := ended_cons hs
    have htold := h a List.mem_cons_self ran result r hran
    refine .cons ⟨rfl, fun now => ?_⟩ (ih (fun b hb => h b (List.mem_cons_of_mem _ hb)) hothers)
    cases result with
    | ok u => exact htold
    | error fault => exact htold

omit h in
/-- The first task that fails decides how the tasks end together. -/
theorem fault?_of_settle {tasks : List Task} {s : Frame (Entries Record)}
    (hr : (Task.settle tasks s).result = result.mapError .error) :
    tasks.findSome? Task.fault? = fault? result := by
  rw [Task.settle_eq, Task.firstFailure_eq] at hr
  cases hfind : tasks.findSome? Task.fault? with
  | none =>
    rw [hfind] at hr
    cases result with
    | ok u => rfl
    | error fault => cases hr
  | some fault =>
    rw [hfind] at hr
    cases result with
    | ok u => cases hr
    | error other =>
      cases hr
      rfl

theorem children_tellingInTurns (hn : (actions.map key).Nodup) {parallel : Bool}
    (hs : childrenTurns parallel actions [] turns result records) :
    ChildrenTold actions (fault? result) records := by
  cases parallel with
  | false =>
    obtain ⟨hkeys, -, htold⟩ := sequence_tellingInTurns h hn hs
    exact htold.children hkeys
  | true =>
    obtain ⟨each, tasks, inner, idle, c, hended, -, -, -, hresult, rfl⟩ := together_ways hs
    rw [← fault?_of_settle hresult]
    exact childrenTold_settle hn (tells_ended h hended) c

end Turns

theorem detailTold_stable (key : String) (actions : List Action) :
    Stable key fun x (_ : List Turn) d => DetailTold actions x d :=
  ⟨fun _ h => h, fun x h => h.stop x⟩

theorem detailTold_ways (k : String) {kind : Kind Action} (hn : (kind.actions.map key).Nodup)
    (h : ∀ a ∈ kind.actions, TellingInTurns a) :
    KindWays k (fun x _ d => DetailTold kind.actions x d) kind := by
  rcases kind with ⟨parallel, actions⟩ | ⟨loop, actions⟩ | (p | ⟨property, path, value⟩ | handler)
  · exact fun _ _ _ _ _ hs => .children parallel (children_tellingInTurns h hn hs)
  · refine ⟨fun q hk => hk.progress q, fun _ _ hk => hk, ?_⟩
    intro items i past p iterations r inner result records _ _ _ _ _ hk hs
    obtain ⟨hkeys, -, htold⟩ := sequence_tellingInTurns h hn hs
    exact hk.round i.index hkeys htold
  · trivial
  · exact fun write _ _ => .write _ write
  · exact fun x s _ _ => .output x _

theorem tellingInTurns_node (a : Action) (hd : a.DistinctBelow)
    (inside : ∀ b ∈ a.kind.actions, TellingInTurns b)
    (recovery : ∀ b ∈ a.errorActions, TellingInTurns b) : TellingInTurns a := by
  intro turns result r hs
  obtain ⟨ran, c, idle, -, -, left⟩ := turns_left (detailTold_stable a.key _)
    (detailTold_ways a.key hd.1 inside) (DetailTold.fresh a.kind none) hs
  cases left with
  | passed shut => exact told_of_nil shut.key shut.fault shut.kept shut.errorActions
  | escaped shut none => exact told_of_nil shut.key shut.fault shut.kept shut.errorActions
  | recovered d shut hne ran rest =>
    obtain ⟨hkeys, hfull, htold⟩ := sequence_tellingInTurns recovery hd.2 ran
    exact told_recovered shut.key shut.fault shut.kept nofun hne hkeys hfull htold

end Action

/-! ### Outcomes -/

/-- How the records of a run account for its fault `x`, or for none: it escaped the last of the
outermost records, nothing escaped those before, and every record inside accounts for its own
fault. -/
structure Automation.Explains (a : Automation) (x : Option Fault) (records : Entries Record) :
    Prop where
  last : x = records.getLast?.bind fun p => p.2.escape
  before : ∀ p ∈ records.dropLast, p.2.escape = none
  inside : ∀ r ∈ Record.forest records, ∃ b ∈ Action.forest a.actions, r.Explained b

theorem Action.SequenceTold.explains {a : Automation} {x : Option Fault} {records : Entries Record}
    (h : SequenceTold a.actions x records) : a.Explains x records :=
  ⟨h.last.last.symm, h.last.before, h.all⟩

/-- The records of a run explain its outcome, even if tasks panic, and so they do however the tasks
take turns.  A run whose tasks do not panic is one of the ways to take turns.  Without a panic of a
supplied provider there is an outcome. -/
theorem Automation.outcome_explained {a : Automation} (h : a.DistinctKeys) (ctx : Context) :
    (a.Calm → ∃ o, a.outcome ctx = .ok o) ∧
      (∀ o, a.outcome ctx = .ok o → a.Explains o.error o.actions ∧
        (a.CalmTasks → ∃ turns result,
          a.Schedule ctx turns result o.actions (a.run ctx).state.context ∧
            o.error = Turns.fault? result)) ∧
      ∀ turns result records last, a.Schedule ctx turns result records last →
        a.Explains (Turns.fault? result) records := by
  refine ⟨fun hc => hc.exists_outcome ctx, fun o ho => ⟨?_, fun hc => ?_⟩, ?_⟩
  · obtain ⟨hs, rfl⟩ := outcome_eq_ok_iff.mp ho
    have ht := Action.forest_induction Action.telling_node h.2
    exact (Action.sequence_telling ht h.1 hs).2.2.explains
  · obtain ⟨turns, result, hschedule, herror, -⟩ := exists_schedule_of_outcome hc ho
    exact ⟨turns, result, hschedule, herror⟩
  · intro turns result records last hschedule
    have ht := Action.forest_induction Action.tellingInTurns_node h.2
    exact (Action.sequence_tellingInTurns ht h.1 hschedule.1).2.2.explains

/-- A parallel group with two failures, and an error action that fails in turn. -/
def Automation.relayed : Automation where
  name := "relayed"
  actions :=
    [{ head := { name := "all", key := "all" }
       kind := .group true [.failing "first", .idle "second", .failing "third"]
       errorActions := [.failing "last"] }]

theorem Automation.calm_relayed : relayed.Calm := by
  intro b hb
  have hforest : Action.forest relayed.actions =
      relayed.actions ++
        [.failing "first", .idle "second", .failing "third", .failing "last"] := rfl
  rw [hforest] at hb
  simp only [relayed, List.cons_append, List.nil_append, List.mem_cons, List.not_mem_nil,
    or_false] at hb
  rcases hb with rfl | rfl | rfl | rfl | rfl
  · exact ⟨⟨nofun, nofun, nofun⟩, trivial⟩
  · exact Action.calm_failing _
  · exact Action.calm_idle _
  · exact Action.calm_failing _
  · exact Action.calm_failing _

theorem Automation.outcome_explained_relayed :
    relayed.DistinctKeys ∧ relayed.Calm ∧
      ∃ o turns result, relayed.outcome (.start "run" "now" .null) = .ok o ∧
        relayed.Schedule (.start "run" "now" .null) turns result o.actions
          (relayed.run (.start "run" "now" .null)).state.context ∧
        o.error.map Fault.code = some "last" ∧ relayed.Explains o.error o.actions ∧
        relayed.Explains (Turns.fault? result) o.actions := by
  have h : relayed.DistinctKeys := by decide
  obtain ⟨hexists, hrun, hschedules⟩ := outcome_explained h (.start "run" "now" .null)
  obtain ⟨o, ho⟩ := hexists calm_relayed
  obtain ⟨hexplains, hone⟩ := hrun o ho
  obtain ⟨turns, result, hschedule, -⟩ := hone calm_relayed.calmTasks
  have hcode : (relayed.run (.start "run" "now" .null)).fault?.map Fault.code = some "last" := by
    decide +kernel
  obtain ⟨-, ho'⟩ := outcome_eq_ok_iff.mp ho
  exact ⟨h, calm_relayed, o, turns, result, ho, hschedule, by rw [ho']; exact hcode, hexplains,
    hschedules turns result _ _ hschedule⟩

end ActionFlow
