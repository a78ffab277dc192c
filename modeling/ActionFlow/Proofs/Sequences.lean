import Mathlib.Data.List.Induction
import ActionFlow.Proofs.Calm

/-!
# Sequences one after another

A sequence of actions whose keys are distinct is the first part of it, followed by the second part
in the context that the first one leaves.  It stops at the first action that does not succeed, and
what stands behind that action is never looked at.
-/
namespace ActionFlow

/-- Goes on from an ending if there is nothing that stops it, and keeps the records of both. -/
def Ending.followedBy (e : Ending (Frame (Entries Record)) Unit)
    (next : Context → Ending (Frame (Entries Record)) Unit) :
    Ending (Frame (Entries Record)) Unit :=
  match e.result with
  | .ok () =>
    let later := next e.state.context
    ⟨later.result, ⟨e.state.own ++ later.state.own, later.state.context⟩,
      e.journal ++ later.journal⟩
  | .error _ => e

section FollowedBy

variable {e : Ending (Frame (Entries Record)) Unit}

theorem Ending.followedBy_of_ok (h : e.result = .ok ())
    (next : Context → Ending (Frame (Entries Record)) Unit) :
    e.followedBy next =
      ⟨(next e.state.context).result,
        ⟨e.state.own ++ (next e.state.context).state.own, (next e.state.context).state.context⟩,
        e.journal ++ (next e.state.context).journal⟩ := by
  rw [followedBy, h]

theorem Ending.followedBy_of_error {stop : Stop Fault} (h : e.result = .error stop)
    (next : Context → Ending (Frame (Entries Record)) Unit) : e.followedBy next = e := by
  rw [followedBy, h]

end FollowedBy

namespace Action

open ActionFlow.Frame

variable {a : Action} {actions : List Action} {done : Entries Record} {c : Context}

/-- An action that does not succeed hides what stands behind it. -/
theorem runSequence_of_error {stop : Stop Fault} (h : (a.ending c).result = .error stop)
    (rest other : List Action) (done : Entries Record) :
    (runSequence (a :: rest) ⟨done, c⟩).result = .error stop ∧
      runSequence (a :: other) ⟨done, c⟩ = runSequence (a :: rest) ⟨done, c⟩ := by
  rcases stop with fault | panic
  · rw [runSequence_of_fault rest done h, runSequence_of_fault other done h]
    exact ⟨rfl, rfl⟩
  · rw [runSequence_of_panic rest done h, runSequence_of_panic other done h]
    exact ⟨rfl, rfl⟩

/-! ### One part after another -/

theorem runSequence_append (xs ys : List Action) :
    runSequence (xs ++ ys) = (runSequence xs >>= fun _ => runSequence ys) := by
  induction xs with
  | nil =>
    rw [List.nil_append, runSequence, pure_bind]
  | cons a rest ih =>
    rw [List.cons_append, runSequence, runSequence, ih, bind_assoc]

/-- Records of other keys that are there already stay in front, and nothing else depends on them. -/
theorem runSequence_behind (hn : (actions.map key).Nodup)
    (hd : ∀ a ∈ actions, a.key ∉ Entries.keys done) (c : Context) :
    runSequence actions ⟨done, c⟩ =
      ⟨(runSequence actions ⟨[], c⟩).result,
        ⟨done ++ (runSequence actions ⟨[], c⟩).state.own,
          (runSequence actions ⟨[], c⟩).state.context⟩,
        (runSequence actions ⟨[], c⟩).journal⟩ := by
  induction actions generalizing done c with
  | nil => simp [runSequence_nil]
  | cons a rest ih =>
    have hhead : a.key ∉ Entries.keys done := hd a List.mem_cons_self
    have hempty : a.key ∉ Entries.keys ([] : Entries Record) := List.not_mem_nil
    rcases hr : (a.ending c).result with (fault | panic) | _
    · rw [runSequence_of_fault rest done hr, runSequence_of_fault rest [] hr,
        filed_of_not_mem hhead, filed_of_not_mem hempty]
      rfl
    · rw [runSequence_of_panic rest done hr, runSequence_of_panic rest [] hr]
      simp
    · obtain ⟨hnot, hrest⟩ := List.nodup_cons.mp hn
      have hapart : ∀ {others : Entries Record} (r : Record),
          (∀ b ∈ rest, b.key ∉ Entries.keys others) →
            ∀ b ∈ rest, b.key ∉ Entries.keys (others ++ [(a.key, r)]) := by
        intro others r hothers b hb
        refine Entries.not_mem_keys_concat (hothers b hb) fun he => ?_
        exact hnot (he ▸ List.mem_map_of_mem hb)
      have htail : ∀ b ∈ rest, b.key ∉ Entries.keys done := fun b hb =>
        hd b (List.mem_cons_of_mem _ hb)
      rw [runSequence_of_ok rest done hr, runSequence_of_ok rest [] hr, filed_of_not_mem hhead,
        filed_of_not_mem hempty, ih hrest (hapart _ htail),
        ih hrest (hapart _ fun _ _ => List.not_mem_nil)]
      simp

theorem keys_of_ok (hn : (actions.map key).Nodup)
    (h : (runSequence actions ⟨[], c⟩).result = .ok ()) :
    Entries.keys (runSequence actions ⟨[], c⟩).state.own = actions.map key := by
  have rule : SequenceRule actions fun _ _ _ _ => True :=
    ⟨fun _ => trivial, fun _ _ _ _ _ => trivial, fun _ _ _ _ _ _ _ _ => trivial⟩
  obtain ⟨added, hown, -, hkeys, -⟩ := rule.run hn (by simp) (Ending.settled_of_ok h)
  rw [hown, List.nil_append]
  exact hkeys (Ending.fault?_of_ok h)

theorem runSequence_followedBy {xs ys : List Action} (hn : ((xs ++ ys).map key).Nodup)
    (c : Context) :
    runSequence (xs ++ ys) ⟨[], c⟩ =
      (runSequence xs ⟨[], c⟩).followedBy fun d => runSequence ys ⟨[], d⟩ := by
  rw [List.map_append, List.nodup_append] at hn
  obtain ⟨hxs, hys, hapart⟩ := hn
  rw [runSequence_append]
  rcases hr : (runSequence xs ⟨[], c⟩).result with stop | _
  · rw [Ending.followedBy_of_error hr, Step.bind_of_error hr, ← hr]
  · have hkeys := keys_of_ok hxs hr
    have hd : ∀ b ∈ ys, b.key ∉ Entries.keys (runSequence xs ⟨[], c⟩).state.own := by
      intro b hb hmem
      rw [hkeys] at hmem
      exact hapart b.key hmem b.key (List.mem_map_of_mem hb) rfl
    have hbehind := runSequence_behind hys hd (runSequence xs ⟨[], c⟩).state.context
    rw [Ending.followedBy_of_ok hr, Step.bind_of_ok hr, hbehind]

/-! ### Where a sequence stops -/

/-- The sequence stops in the context `c` at the action `a`, with the actions of `before` done. -/
structure StopsAt (before : List Action) (a : Action) (c : Context) (stop : Stop Fault) : Prop where
  passed : (runSequence before ⟨[], c⟩).result = .ok ()
  stopped : (a.ending (runSequence before ⟨[], c⟩).state.context).result = .error stop

theorem result_singleton (a : Action) (done : Entries Record) (c : Context) :
    (runSequence [a] ⟨done, c⟩).result = (a.ending c).result := by
  rcases hr : (a.ending c).result with stop | u
  · exact (runSequence_of_error hr [] [] done).1
  · rw [runSequence_of_ok [] done hr, filed, runSequence_nil]

/-- The induction takes the last action away: the sequence stops before it or at it. -/
theorem exists_stopsAt {stop : Stop Fault}
    (h : (runSequence actions ⟨[], c⟩).result = .error stop) :
    ∃ before a after, actions = before ++ a :: after ∧ StopsAt before a c stop := by
  induction actions using List.reverseRecOn with
  | nil =>
    rw [runSequence_nil] at h
    cases h
  | append_singleton before a ih =>
    rw [runSequence_append] at h
    rcases hr : (runSequence before ⟨[], c⟩).result with first | u
    · rw [Step.bind_of_error hr] at h
      obtain ⟨earlier, b, after, rfl, hstops⟩ := ih (hr.trans h)
      exact ⟨earlier, b, after ++ [a], by simp, hstops⟩
    · have hlast : (runSequence [a] (runSequence before ⟨[], c⟩).state).result = .error stop := by
        rw [Step.bind_of_ok hr] at h
        exact h
      rw [result_singleton] at hlast
      exact ⟨before, a, [], rfl, hr, hlast⟩

theorem StopsAt.runSequence_eq {before : List Action} {stop : Stop Fault}
    (h : StopsAt before a c stop) (after other : List Action) :
    runSequence (before ++ a :: other) ⟨[], c⟩ = runSequence (before ++ a :: after) ⟨[], c⟩ := by
  have hbehind : runSequence (a :: other) (runSequence before ⟨[], c⟩).state =
      runSequence (a :: after) (runSequence before ⟨[], c⟩).state :=
    (runSequence_of_error h.stopped after other _).2
  rw [runSequence_append, runSequence_append, Step.bind_of_ok h.passed, Step.bind_of_ok h.passed,
    hbehind]

theorem StopsAt.keys_eq {before after : List Action} {stop : Stop Fault}
    (h : StopsAt before a c stop) (hn : ((before ++ a :: after).map key).Nodup) :
    Entries.keys (runSequence (before ++ a :: after) ⟨[], c⟩).state.own =
      before.map key ++ Entries.keys
        (runSequence [a] ⟨[], (runSequence before ⟨[], c⟩).state.context⟩).state.own := by
  have hbefore : (before.map key).Nodup := by
    rw [List.map_append] at hn
    exact (List.nodup_append.mp hn).1
  rw [runSequence_followedBy hn, Ending.followedBy_of_ok h.passed,
    (runSequence_of_error h.stopped [] after []).2, Entries.keys_append,
    keys_of_ok hbefore h.passed]

/-- What a sequence records, and what it does not look at. -/
structure StopsCleanly (actions : List Action) (c : Context) : Prop where
  declared : Entries.keys (runSequence actions ⟨[], c⟩).state.own <+: actions.map key
  whole : (runSequence actions ⟨[], c⟩).result = .ok () →
    Entries.keys (runSequence actions ⟨[], c⟩).state.own = actions.map key
  /-- The last record is that of the action that the fault escaped from. -/
  escaped : ∀ fault, (runSequence actions ⟨[], c⟩).result = .error (.error fault) →
    ∃ before a after, actions = before ++ a :: after ∧ StopsAt before a c (.error fault) ∧
      Entries.keys (runSequence actions ⟨[], c⟩).state.own = (before ++ [a]).map key
  /-- Any other actions behind the one that the sequence stops at make no difference. -/
  blind : ∀ before a after stop, actions = before ++ a :: after → StopsAt before a c stop →
    ∀ other, runSequence (before ++ a :: other) ⟨[], c⟩ = runSequence actions ⟨[], c⟩

theorem stopsCleanly (hn : (actions.map key).Nodup) (c : Context) : StopsCleanly actions c := by
  have hescaped : ∀ fault, (runSequence actions ⟨[], c⟩).result = .error (.error fault) →
      ∃ before a after, actions = before ++ a :: after ∧ StopsAt before a c (.error fault) ∧
        Entries.keys (runSequence actions ⟨[], c⟩).state.own = (before ++ [a]).map key := by
    intro fault hr
    obtain ⟨before, a, after, rfl, hstops⟩ := exists_stopsAt hr
    refine ⟨before, a, after, rfl, hstops, ?_⟩
    rw [hstops.keys_eq hn, runSequence_of_fault [] [] hstops.stopped,
      filed_of_not_mem List.not_mem_nil, List.map_append]
    rfl
  refine ⟨?_, keys_of_ok hn, hescaped, ?_⟩
  · rcases hr : (runSequence actions ⟨[], c⟩).result with (fault | panic) | _
    · obtain ⟨before, a, after, rfl, -, hkeys⟩ := hescaped fault hr
      rw [hkeys, List.append_cons before a after]
      exact (List.prefix_append (before ++ [a]) after).map key
    · obtain ⟨before, a, after, rfl, hstops⟩ := exists_stopsAt hr
      rw [hstops.keys_eq hn, runSequence_of_panic [] [] hstops.stopped, Entries.keys_nil,
        List.append_nil]
      exact (List.prefix_append before (a :: after)).map key
    · exact (keys_of_ok hn hr).symm ▸ List.prefix_rfl
  · rintro before a after stop rfl hstops other
    exact hstops.runSequence_eq after other

/-- Sequences of distinct keys compose, and they stop cleanly. -/
theorem runSequence_composes {xs ys : List Action} (hn : ((xs ++ ys).map key).Nodup)
    (c : Context) :
    runSequence (xs ++ ys) ⟨[], c⟩ =
        (runSequence xs ⟨[], c⟩).followedBy (fun d => runSequence ys ⟨[], d⟩) ∧
      StopsCleanly (xs ++ ys) c :=
  ⟨runSequence_followedBy hn c, stopsCleanly hn c⟩

/-- The first part passes, and the second part stops at its first action. -/
theorem runSequence_composes_failing :
    let xs := [assigning "one" "x" none (.integer 1) [], idle "two"]
    let ys := [failing "three", assigning "four" "x" none (.integer 4) []]
    let c : Context := .start "run" "now" .null
    ((xs ++ ys).map key).Nodup ∧
      runSequence (xs ++ ys) ⟨[], c⟩ =
        (runSequence xs ⟨[], c⟩).followedBy (fun d => runSequence ys ⟨[], d⟩) ∧
      StopsCleanly (xs ++ ys) c ∧
      Entries.keys (runSequence (xs ++ ys) ⟨[], c⟩).state.own = ["one", "two", "three"] := by
  intro xs ys c
  have hn : ((xs ++ ys).map key).Nodup := by decide
  obtain ⟨hcomposes, hstops⟩ := runSequence_composes hn c
  exact ⟨hn, hcomposes, hstops, by decide +kernel⟩

end Action

end ActionFlow
