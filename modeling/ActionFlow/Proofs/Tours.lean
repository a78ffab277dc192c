import ActionFlow.Proofs.Exits

/-!
# What the record of an iteration tells

The record of an iteration keeps the rounds that ran and counts those that were completed, and it
holds the last of these and the one at hand.  Together they tell at which round the loop ended and
in which of its ways.
-/
namespace ActionFlow

/-- A loop on its way over a range of a list, with the frame in which it sets out. -/
structure Tour where
  key : String
  loop : Loop
  body : Step (Frame (Entries Record)) Unit
  items : List Value
  range : Range
  start : Frame Record

namespace Tour

open ActionFlow.Frame

def places (t : Tour) : List IterationItem := Loop.visited t.items t.range

/-- The frame right after `n` rounds that were completed. -/
def before (t : Tour) (n : Nat) : Frame Record :=
  Loop.after t.key t.body t.start (t.places.take n)

/-- How the actions inside end in the round number `n`, which is for `i`. -/
def inside (t : Tour) (n : Nat) (i : IterationItem) : Ending (Frame (Entries Record)) Unit :=
  Loop.inside t.key t.body (t.before n) i

/-- The loop comes to the round number `n`, which is for `i`, and starts it. -/
structure Starts (t : Tour) (n : Nat) (i : IterationItem) : Prop where
  place : t.places[n]? = some i
  passes : Loop.Passes t.key t.loop t.body t.start (t.places.take n)
  live : (t.before n).context.cancelled = false

/-- The actions inside let a fault escape in the round number `n`. -/
def Escapes (t : Tour) (n : Nat) (fault : Fault) : Prop :=
  ∃ i, t.Starts n i ∧ (t.inside n i).result = .error (.error fault)

/-- What a record keeps of a tour, and how it counts. -/
structure Counts (t : Tour) (p : Progress) (rounds : List (Iteration Record)) : Prop where
  /-- The rounds are the first of the range. -/
  indices : rounds.map Iteration.index = t.range.places.take rounds.length
  kept : ∀ n < rounds.length, ∃ i, t.Starts n i ∧
    rounds[n]? = some ⟨i.index, (t.inside n i).state.own⟩
  bound : p.completed ≤ t.range.places.length
  completed : ∀ n < p.completed, ∃ i, t.Starts n i ∧ (t.inside n i).result = .ok ()
  noLast : p.last = none ↔ p.completed = 0
  last : ∀ i, p.last = some i →
    t.range.places[p.completed - 1]? = some i.index ∧ t.items[i.index]? = some i.item

/-- What the record of an iteration tells of the tour that left it with a result. -/
structure Tells (t : Tour) (result : Except (Stop Fault) Unit) (p : Progress)
    (rounds : List (Iteration Record)) : Prop extends t.Counts p rounds where
  length : rounds.length = p.completed ∨ rounds.length = p.completed + 1
  /-- One more round is kept than was completed exactly when a fault escaped from it, -/
  escaped : rounds.length = p.completed + 1 ↔ ∃ fault, t.Escapes p.completed fault
  /-- and that fault is the result. -/
  raised : ∀ fault, t.Escapes p.completed fault → result = .error (.error fault)
  succeeded : result = .ok () →
    0 < p.completed ∧ p.current = none ∧
      (p.completed < t.range.places.length → ∃ condition, t.loop.doWhile = some condition ∧
        condition.resolve (t.before p.completed).context = .ok false ∧
        ∀ n, 0 < n → n < p.completed → condition.resolve (t.before n).context = .ok true)
  /-- A round is at hand still if the iteration fails once it has started one. -/
  failed : result ≠ .ok () → ∀ i, t.Starts 0 i →
    ∃ j, p.current = some j ∧ (t.Starts p.completed j ∨ p.last = some j)

variable {t : Tour} {n : Nat} {i : IterationItem}

theorem Starts.unique {j : IterationItem} (h : t.Starts n i) (h' : t.Starts n j) : i = j :=
  Option.some.inj (h.place.symm.trans h'.place)

section Passed

variable {passed rest : List IterationItem} (hplaces : t.places = passed ++ rest)
  (passes : Loop.Passes t.key t.loop t.body t.start passed)

include hplaces

theorem before_length : t.before passed.length = Loop.after t.key t.body t.start passed := by
  rw [before, hplaces, List.take_left]

include passes

theorem passed_starts (hn : n < passed.length) :
    ∃ i, t.Starts n i ∧ (t.inside n i).result = .ok () := by
  have hi : passed[n]? = some passed[n] := List.getElem?_eq_getElem hn
  have htake : t.places.take n = passed.take n := by
    rw [hplaces, List.take_append_of_le_length (Nat.le_of_lt hn)]
  have hbefore : t.before n = Loop.after t.key t.body t.start (passed.take n) := by
    rw [before, htake]
  obtain ⟨live, ended, -⟩ := passes.at hi
  refine ⟨passed[n], ⟨?_, ?_, ?_⟩, ?_⟩
  · rw [hplaces, List.getElem?_append_left hn, hi]
  · rw [htake]
    exact passes.take n
  · rw [hbefore]
    exact live
  · rw [inside, hbefore]
    exact ended

theorem passed_goesOn (hn : 0 < n) (hlength : n ≤ passed.length) :
    t.loop.decision (t.before n).context = .ok true := by
  obtain ⟨m, rfl⟩ := Nat.exists_eq_add_one_of_ne_zero (Nat.ne_of_gt hn)
  have hi : passed[m]? = some passed[m] := List.getElem?_eq_getElem hlength
  obtain ⟨-, -, goesOn⟩ := passes.at hi
  rw [before, hplaces, List.take_append_of_le_length hlength]
  exact goesOn

end Passed

/-- What a record keeps when it has counted all rounds of `done` and kept those of `extra` too. -/
theorem counts_of_starts {done extra : List IterationItem} {p : Progress}
    (hsweeps : t.range.Sweeps t.items.length) (hkept : done ++ extra <+: t.places)
    (hstarts : ∀ n < (done ++ extra).length, ∃ i, t.Starts n i)
    (hdone : ∀ n < done.length, ∃ i, t.Starts n i ∧ (t.inside n i).result = .ok ())
    (hcompleted : p.completed = done.length) (hlast : p.last = done.getLast?) :
    t.Counts p (Loop.iterations t.key t.body t.start (done ++ extra)) := by
  have hindex : t.places.map IterationItem.index = t.range.places := Loop.index_visited hsweeps
  have htake : t.places.take (done ++ extra).length = done ++ extra :=
    (List.prefix_iff_eq_take.mp hkept).symm
  have hdoneplaces : done <+: t.places := (List.prefix_append done extra).trans hkept
  refine ⟨?_, ?_, ?_, ?_, ?_, ?_⟩
  · rw [Loop.index_iterations, Loop.length_iterations, ← hindex, ← List.map_take, htake]
  · intro n hn
    rw [Loop.length_iterations] at hn
    obtain ⟨i, hi⟩ := hstarts n hn
    have hmem : (done ++ extra)[n]? = some i := by
      rw [← hi.place, ← htake, List.getElem?_take_of_lt hn]
    have hbefore : (done ++ extra).take n = t.places.take n := by
      rw [← htake, List.take_take, Nat.min_eq_left (Nat.le_of_lt hn)]
    refine ⟨i, hi, ?_⟩
    rw [Loop.iterations_getElem? hmem, hbefore]
    rfl
  · rw [hcompleted, ← hindex, List.length_map]
    exact hdoneplaces.length_le
  · rw [hcompleted]
    exact hdone
  · rw [hcompleted, hlast, List.getLast?_eq_none_iff, List.length_eq_zero_iff]
  · intro i hi
    have hlastplace : done[done.length - 1]? = some i := by
      rw [← List.getLast?_eq_getElem?, ← hlast, hi]
    have hplace : t.places[done.length - 1]? = some i := by
      obtain ⟨hlt, rfl⟩ := List.getElem?_eq_some_iff.mp hlastplace
      exact List.prefix_iff_getElem?.mp hdoneplaces _ hlt
    constructor
    · rw [hcompleted, ← hindex, List.getElem?_map, hplace, Option.map_some]
    · exact Loop.mem_visited (List.mem_of_getElem? hplace)

/-! ### The ways to end -/

section Ends

variable {passed rest : List IterationItem} {p : Progress} {result : Except (Stop Fault) Unit}
  (hsweeps : t.range.Sweeps t.items.length)

include hsweeps

/-- The loop stops with the rounds of `done` behind it, and none escapes after them. -/
theorem tells_of_done {done : List IterationItem} (hplaces : t.places = done ++ rest)
    (hdone : ∀ n < done.length, ∃ i, t.Starts n i ∧ (t.inside n i).result = .ok ())
    (hcompleted : p.completed = done.length) (hlast : p.last = done.getLast?)
    (hinside : ∀ fault, ¬ t.Escapes done.length fault)
    (hok : result = .ok () → 0 < p.completed ∧ p.current = none ∧
      (p.completed < t.range.places.length → ∃ condition, t.loop.doWhile = some condition ∧
        condition.resolve (t.before p.completed).context = .ok false ∧
        ∀ n, 0 < n → n < p.completed → condition.resolve (t.before n).context = .ok true))
    (hfailed : result ≠ .ok () → ∀ i, t.Starts 0 i →
      ∃ j, p.current = some j ∧ (t.Starts p.completed j ∨ p.last = some j)) :
    t.Tells result p (Loop.iterations t.key t.body t.start done) := by
  have hlength : (Loop.iterations t.key t.body t.start done).length = p.completed := by
    rw [Loop.length_iterations, hcompleted]
  have hcounts : t.Counts p (Loop.iterations t.key t.body t.start (done ++ [])) := by
    refine counts_of_starts hsweeps ?_ ?_ hdone hcompleted hlast
    · rw [hplaces, List.append_nil]
      exact List.prefix_append done rest
    · intro n hn
      rw [List.append_nil] at hn
      obtain ⟨i, hi, -⟩ := hdone n hn
      exact ⟨i, hi⟩
  rw [List.append_nil] at hcounts
  rw [← hcompleted] at hinside
  refine ⟨hcounts, Or.inl hlength, ?_, ?_, hok, hfailed⟩
  · constructor
    · intro h
      omega
    · rintro ⟨fault, h⟩
      exact absurd h (hinside fault)
  · intro fault h
    exact absurd h (hinside fault)

theorem length_places : t.places.length = t.range.places.length := by
  have hindex : t.places.map IterationItem.index = t.range.places := Loop.index_visited hsweeps
  rw [← hindex, List.length_map]

theorem tells_of_finished (hne : t.places ≠ [])
    (passes : Loop.Passes t.key t.loop t.body t.start t.places)
    (hcompleted : p.completed = t.places.length) (hlast : p.last = t.places.getLast?)
    (hcurrent : p.current = none) :
    t.Tells (.ok ()) p (Loop.iterations t.key t.body t.start t.places) := by
  have hplaces : t.places = t.places ++ [] := (List.append_nil _).symm
  refine tells_of_done hsweeps hplaces (fun n hn => passed_starts hplaces passes hn) hcompleted
    hlast ?_ ?_ (fun h => absurd rfl h)
  · rintro fault ⟨i, hi, -⟩
    have hnone : t.places[t.places.length]? = none := List.getElem?_eq_none (Nat.le_refl _)
    rw [hi.place] at hnone
    cases hnone
  · intro _
    refine ⟨?_, hcurrent, fun hlt => ?_⟩
    · rw [hcompleted]
      exact List.length_pos_iff.mpr hne
    · rw [hcompleted, length_places hsweeps] at hlt
      exact absurd hlt (Nat.lt_irrefl _)

section Stopped

variable (hplaces : t.places = passed ++ i :: rest)
  (passes : Loop.Passes t.key t.loop t.body t.start passed)

include hplaces passes

omit hsweeps in
/-- The round that the loop stops at starts, unless the run is cancelled by then. -/
theorem starts_of_live (live : (Loop.after t.key t.body t.start passed).context.cancelled = false) :
    t.Starts passed.length i := by
  have hbefore : t.before passed.length = Loop.after t.key t.body t.start passed :=
    before_length hplaces
  refine ⟨?_, ?_, ?_⟩
  · rw [hplaces, List.getElem?_append_right (Nat.le_refl _), Nat.sub_self, List.getElem?_cons_zero]
  · rw [hplaces, List.take_left]
    exact passes
  · rw [hbefore]
    exact live

omit hsweeps passes in
theorem inside_of_stopped :
    t.inside passed.length i =
      Loop.inside t.key t.body (Loop.after t.key t.body t.start passed) i := by
  rw [inside, before_length hplaces]

theorem tells_of_cancelled
    (cancelled : (Loop.after t.key t.body t.start passed).context.cancelled = true)
    (hcompleted : p.completed = passed.length) (hlast : p.last = passed.getLast?)
    (hcurrent : p.current = passed.getLast?) :
    t.Tells (.error (.error (.actionCancelled t.key))) p
      (Loop.iterations t.key t.body t.start passed) := by
  have hstops : ∀ j, ¬ t.Starts passed.length j := by
    intro j hj
    have hlive := hj.live
    rw [before_length hplaces, cancelled] at hlive
    cases hlive
  refine tells_of_done hsweeps hplaces (fun n hn => passed_starts hplaces passes hn) hcompleted
    hlast ?_ nofun ?_
  · rintro fault ⟨j, hj, -⟩
    exact hstops j hj
  · intro _ j hj
    cases hp : passed.getLast? with
    | none =>
      rw [List.getLast?_eq_none_iff] at hp
      rw [hp] at hstops
      exact absurd hj (hstops j)
    | some k =>
      refine ⟨k, ?_, Or.inr ?_⟩
      · rw [hcurrent, hp]
      · rw [hlast, hp]

theorem tells_of_panicked {panic : Panic}
    (live : (Loop.after t.key t.body t.start passed).context.cancelled = false)
    (ended : (Loop.inside t.key t.body (Loop.after t.key t.body t.start passed) i).result =
      .error (.panic panic))
    (hcompleted : p.completed = passed.length) (hlast : p.last = passed.getLast?)
    (hcurrent : p.current = some i) :
    t.Tells (.error (.panic panic)) p (Loop.iterations t.key t.body t.start passed) := by
  have hi : t.Starts passed.length i := starts_of_live hplaces passes live
  refine tells_of_done hsweeps hplaces (fun n hn => passed_starts hplaces passes hn) hcompleted
    hlast ?_ nofun ?_
  · rintro fault ⟨j, hj, hfault⟩
    rw [hj.unique hi, inside_of_stopped hplaces, ended] at hfault
    cases hfault
  · intro _ _ _
    refine ⟨i, hcurrent, Or.inl ?_⟩
    rw [hcompleted]
    exact hi

/-- A round that was completed and is not gone on from. -/
theorem tells_of_last
    (live : (Loop.after t.key t.body t.start passed).context.cancelled = false)
    (ended : (Loop.inside t.key t.body (Loop.after t.key t.body t.start passed) i).result = .ok ())
    (stops : t.loop.decision (Loop.after t.key t.body t.start (passed ++ [i])).context ≠ .ok true)
    (hcompleted : p.completed = passed.length + 1) (hlast : p.last = some i)
    (hok : result = .ok () → p.current = none ∧
      t.loop.decision (Loop.after t.key t.body t.start (passed ++ [i])).context = .ok false)
    (hfailed : result ≠ .ok () → p.current = some i) :
    t.Tells result p (Loop.iterations t.key t.body t.start (passed ++ [i])) := by
  have hdone : t.places = (passed ++ [i]) ++ rest := by
    rw [hplaces, List.append_cons passed i rest]
  have hlength : (passed ++ [i]).length = passed.length + 1 := List.length_append
  have hi : t.Starts passed.length i := starts_of_live hplaces passes live
  have hbefore : t.before (passed.length + 1) =
      Loop.after t.key t.body t.start (passed ++ [i]) := by
    rw [← hlength]
    exact before_length hdone
  refine tells_of_done hsweeps hdone ?_ (hcompleted.trans hlength.symm)
    (hlast.trans List.getLast?_concat.symm) ?_ ?_ ?_
  · intro n hn
    rw [hlength] at hn
    rcases Nat.lt_or_eq_of_le (Nat.le_of_lt_succ hn) with hlt | rfl
    · exact passed_starts hplaces passes hlt
    · refine ⟨i, hi, ?_⟩
      rw [inside_of_stopped hplaces]
      exact ended
  · rintro fault ⟨j, hj, -⟩
    have htake : t.places.take (passed ++ [i]).length = passed ++ [i] := by
      rw [hdone, List.take_left]
    have hpasses := hj.passes
    rw [htake] at hpasses
    have hat : (passed ++ [i])[passed.length]? = some i := by
      rw [List.getElem?_append_right (Nat.le_refl _), Nat.sub_self, List.getElem?_cons_zero]
    obtain ⟨-, -, hgoesOn⟩ := hpasses.at hat
    rw [← hlength, List.take_length] at hgoesOn
    exact stops hgoesOn
  · intro hresult
    obtain ⟨hcurrent, hdecision⟩ := hok hresult
    obtain ⟨condition, hcondition⟩ := Loop.exists_condition hdecision
    refine ⟨by omega, hcurrent, fun _ => ⟨condition, hcondition, ?_, ?_⟩⟩
    · rw [hcompleted, hbefore, ← Loop.decision_of_some hcondition]
      exact hdecision
    · intro n hn hlt
      rw [← Loop.decision_of_some hcondition]
      exact passed_goesOn hplaces passes hn (by omega)
  · intro hresult _ _
    exact ⟨i, hfailed hresult, Or.inr hlast⟩

theorem tells_of_escaped {fault : Fault}
    (live : (Loop.after t.key t.body t.start passed).context.cancelled = false)
    (ended : (Loop.inside t.key t.body (Loop.after t.key t.body t.start passed) i).result =
      .error (.error fault))
    (hcompleted : p.completed = passed.length) (hlast : p.last = passed.getLast?)
    (hcurrent : p.current = some i) :
    t.Tells (.error (.error fault)) p (Loop.iterations t.key t.body t.start (passed ++ [i])) := by
  have hi : t.Starts passed.length i := starts_of_live hplaces passes live
  have hinside : (t.inside passed.length i).result = .error (.error fault) := by
    rw [inside_of_stopped hplaces]
    exact ended
  have hlength : (Loop.iterations t.key t.body t.start (passed ++ [i])).length =
      p.completed + 1 := by
    rw [Loop.length_iterations, hcompleted, List.length_append, List.length_singleton]
  have hcounts : t.Counts p (Loop.iterations t.key t.body t.start (passed ++ [i])) := by
    refine counts_of_starts hsweeps ?_ ?_ (fun n hn => passed_starts hplaces passes hn) hcompleted
      hlast
    · rw [hplaces, List.append_cons passed i rest]
      exact List.prefix_append _ rest
    · intro n hn
      rw [List.length_append, List.length_singleton] at hn
      rcases Nat.lt_or_eq_of_le (Nat.le_of_lt_succ hn) with hlt | rfl
      · obtain ⟨j, hj, -⟩ := passed_starts hplaces passes hlt
        exact ⟨j, hj⟩
      · exact ⟨i, hi⟩
  refine ⟨hcounts, Or.inr hlength, ?_, ?_, nofun, ?_⟩
  · rw [hcompleted]
    exact ⟨fun _ => ⟨fault, i, hi, hinside⟩, fun _ => hcompleted ▸ hlength⟩
  · rintro other ⟨j, hj, hother⟩
    rw [hcompleted] at hj hother
    rw [hj.unique hi, hinside] at hother
    exact hother
  · intro _ _ _
    refine ⟨i, hcurrent, Or.inl ?_⟩
    rw [hcompleted]
    exact hi

end Stopped

end Ends

/-! ### Whole tours -/

/-- The loop goes over its range and puts away the round at hand when it is through. -/
def walk (t : Tour) : Ending (Frame Record) Unit :=
  (do
    Loop.visit t.key t.loop t.items t.body t.places
    modify (Record.updateProgress fun p => { p with current := none })) t.start

theorem places_ne_nil (hsweeps : t.range.Sweeps t.items.length) : t.places ≠ [] := by
  intro hnil
  have hlength : t.places.length = t.range.places.length := length_places hsweeps
  have hstarts := hsweeps.starts
  rw [hnil, List.length_nil, eq_comm, List.length_eq_zero_iff] at hlength
  rw [hlength] at hstarts
  cases hstarts

theorem own_away {s : Frame Record} {r : Record} {p : Progress} {rounds : List (Iteration Record)}
    (h : s.own = { r with detail := .iterate p rounds }) :
    s.own.updateProgress (fun p => { p with current := none }) =
      { r with detail := .iterate { p with current := none } rounds } := by
  simp [h, Record.updateProgress, Record.updateIteration]

section Walk

variable {r : Record}
  (hstart : t.start.own = { r with detail := .iterate (Loop.bounded t.range {}) [] })

include hstart

theorem own_after (done : List IterationItem) :
    (Loop.after t.key t.body t.start done).own =
      { r with
        detail := .iterate
          { Loop.bounded t.range {} with
            completed := done.length
            last := done.getLast?
            current := done.getLast? }
          (Loop.iterations t.key t.body t.start done) } := by
  rw [Loop.own_after hstart]
  simp [Loop.bounded]

theorem tells_of_walk (hsweeps : t.range.Sweeps t.items.length) :
    ∃ p rounds, t.walk.state.own = { r with detail := .iterate p rounds } ∧
      t.Tells t.walk.result p rounds := by
  rcases Loop.visit_cases t.key t.loop t.items t.body t.start t.places with
    ⟨passes, hresult, hstate⟩ | ⟨passed, i, rest, hplaces, passes, hexit⟩
  · rw [walk, Step.bind_of_ok hresult, hstate]
    refine ⟨_, _, own_away (own_after hstart t.places), ?_⟩
    exact tells_of_finished hsweeps (places_ne_nil hsweeps) passes rfl rfl rfl
  · generalize hr : (Loop.visit t.key t.loop t.items t.body t.places t.start).result = result at *
    generalize hs : (Loop.visit t.key t.loop t.items t.body t.places t.start).state = left at *
    have hown := own_after hstart passed
    have hran := Loop.own_ran hown t.key t.body i
    have hcompleted := Loop.own_completed hown t.key t.body i
    rw [← Loop.iterations_concat] at hran hcompleted
    cases hexit with
    | cancelled cancelled =>
      rw [walk, Step.bind_of_error hr, hs]
      exact ⟨_, _, hown, tells_of_cancelled hsweeps hplaces passes cancelled rfl rfl rfl⟩
    | escaped live ended =>
      rw [walk, Step.bind_of_error hr, hs]
      exact ⟨_, _, hran, tells_of_escaped hsweeps hplaces passes live ended rfl rfl rfl⟩
    | panicked live ended =>
      rw [walk, Step.bind_of_error hr, hs]
      refine ⟨_, _, Loop.own_opened hown t.key i, ?_⟩
      exact tells_of_panicked hsweeps hplaces passes live ended rfl rfl rfl
    | decided live ended stops =>
      rw [← Loop.after_concat] at stops
      have hno : t.loop.decision (Loop.after t.key t.body t.start (passed ++ [i])).context ≠
          .ok true := by
        rw [stops]
        nofun
      rw [walk, Step.bind_of_ok hr, hs]
      refine ⟨_, _, own_away hcompleted, ?_⟩
      exact tells_of_last hsweeps hplaces passes live ended hno rfl rfl (fun _ => ⟨rfl, stops⟩)
        (fun h => absurd rfl h)
    | undecided live ended stops =>
      rw [← Loop.after_concat] at stops
      have hno : t.loop.decision (Loop.after t.key t.body t.start (passed ++ [i])).context ≠
          .ok true := by
        rw [stops]
        nofun
      rw [walk, Step.bind_of_error hr, hs]
      refine ⟨_, _, hcompleted, ?_⟩
      exact tells_of_last hsweeps hplaces passes live ended hno rfl rfl nofun (fun _ => rfl)

end Walk

end Tour

/-! ### Iterations -/

namespace Loop

open ActionFlow.Frame

/-- In this context the loop finds items, and the range of them that it is to go over. -/
structure Opens (loop : Loop) (c : Context) (items : List Value) (range : Range) : Prop where
  list : loop.list.resolveAs Conversion.list c = .ok items
  nonempty : items ≠ []
  range : ∃ first last reverse,
    (loop.startIndex.mapM fun p => p.resolve c) = .ok first ∧
      (loop.endIndex.mapM fun p => p.resolve c) = .ok last ∧
      (loop.reverse.mapM fun p => p.resolve c) = .ok reverse ∧
      Range.resolve items.length first last (reverse.getD false) = .ok range

/-- The way over a range that a loop sets out on, with the range in its record. -/
def tour (key : String) (loop : Loop) (body : Step (Frame (Entries Record)) Unit)
    (items : List Value) (range : Range) (s : Frame Record) : Tour where
  key := key
  loop := loop
  body := body
  items := items
  range := range
  start := ⟨s.own.updateProgress (bounded range), s.context⟩

variable {loop : Loop} {items : List Value} {range : Range} {s : Frame Record}

theorem Opens.sweeps {c : Context} (h : loop.Opens c items range) :
    range.Sweeps items.length := by
  obtain ⟨first, last, reverse, -, -, -, hrange⟩ := h.range
  exact Range.sweeps_of_resolve (List.length_pos_iff.mpr h.nonempty) hrange

theorem Opens.run (h : loop.Opens s.context items range) (key : String)
    (body : Step (Frame (Entries Record)) Unit) :
    (loop.run key body s).result = (loop.tour key body items range s).walk.result ∧
      (loop.run key body s).state = (loop.tour key body items range s).walk.state := by
  obtain ⟨first, last, reverse, hfirst, hlast, hreverse, hrange⟩ := h.range
  have hempty : items.isEmpty = false := List.isEmpty_eq_false_iff.mpr h.nonempty
  rw [Loop.run, (resolve_bind_of_ok h.list key _).1, (resolve_bind_of_ok h.list key _).2,
    (resolveOptional_bind_of_ok hfirst key _).1, (resolveOptional_bind_of_ok hfirst key _).2,
    (resolveOptional_bind_of_ok hlast key _).1, (resolveOptional_bind_of_ok hlast key _).2,
    (resolveOptional_bind_of_ok hreverse key _).1, (resolveOptional_bind_of_ok hreverse key _).2]
  simp only [hempty, hrange]
  exact ⟨rfl, rfl⟩

/-- A loop that finds its items and their range, run with nothing in its record yet: the record
tells which rounds ran and how they ended, whatever the actions inside do and whatever stopped the
loop. -/
theorem Opens.tells (h : loop.Opens s.context items range) (hfresh : s.own.detail = .iterate {} [])
    (key : String) (body : Step (Frame (Entries Record)) Unit) :
    ∃ p rounds, (loop.run key body s).state.own = { s.own with detail := .iterate p rounds } ∧
      (loop.tour key body items range s).Tells (loop.run key body s).result p rounds := by
  have hstart : (loop.tour key body items range s).start.own =
      { s.own with detail := .iterate (bounded range {}) [] } := by
    show s.own.updateProgress (bounded range) = _
    simp only [Record.updateProgress, Record.updateIteration, hfresh]
  obtain ⟨hresult, hstate⟩ := h.run key body
  rw [hresult, hstate]
  exact Tour.tells_of_walk hstart h.sweeps

end Loop

/-- What the record of an iteration counts: the rounds that were completed, those that it keeps by
their indices, the index of the last one and of the one at hand. -/
def Record.counted (r : Record) : Nat × List Nat × Option Nat × Option Nat :=
  match r.detail with
  | .iterate p rounds =>
    (p.completed, rounds.map Iteration.index, p.last.map IterationItem.index,
      p.current.map IterationItem.index)
  | _ => (0, [], none, none)

namespace Action

/-- The record of an iteration tells which rounds ran and how they ended; and so it does when
anything else runs inside, as the tasks of a group may in any order. -/
theorem runInternal_tells {a : Action} {loop : Loop} {actions : List Action}
    (hkind : a.kind = .iterate loop actions) {r : Record} (hfresh : r.detail = a.kind.detail)
    {c : Context} {items : List Value} {range : Range} (h : loop.Opens c items range) :
    (∃ p rounds, (a.runInternal ⟨r, c⟩).state.own = { r with detail := .iterate p rounds } ∧
      (loop.tour a.key (runSequence actions) items range ⟨r, c⟩).Tells
        (a.runInternal ⟨r, c⟩).result p rounds) ∧
    ∀ body, ∃ p rounds,
      (loop.run a.key body ⟨r, c⟩).state.own = { r with detail := .iterate p rounds } ∧
        (loop.tour a.key body items range ⟨r, c⟩).Tells (loop.run a.key body ⟨r, c⟩).result p
          rounds := by
  have hdetail : r.detail = .iterate {} [] := by rw [hfresh, hkind, Kind.detail]
  have htells := Loop.Opens.tells (s := ⟨r, c⟩) h hdetail a.key
  have hinternal : (a.runInternal ⟨r, c⟩).result =
        (loop.run a.key (runSequence actions) ⟨r, c⟩).result ∧
      (a.runInternal ⟨r, c⟩).state = (loop.run a.key (runSequence actions) ⟨r, c⟩).state := by
    rw [runInternal, hkind, runKind]
    exact ⟨rfl, rfl⟩
  rw [hinternal.1, hinternal.2]
  exact ⟨htells (runSequence actions), htells⟩

/-- Backwards over three items: the first round sets a variable, and the second one fails for it.  A
panic in the first round leaves it at hand. -/
theorem runInternal_tells_backwards :
    let late : Action :=
      { failing "late" with
        head :=
          { name := "late", key := "late"
            runCondition := some (.present ⟨["variables", "seen"]⟩) } }
    let actions := [late, assigning "early" "seen" none (.bool true) []]
    let items : List Value := [.integer 1, .integer 2, .integer 3]
    let loop : Loop :=
      { list := .constant (.array items)
        startIndex := some (.typed (.constant (.integer 2)))
        endIndex := some (.typed (.constant (.integer 0)))
        doWhile := some (.present ⟨["variables", "seen"]⟩) }
    let a : Action :=
      { head := { name := "each", key := "each" }
        kind := .iterate loop actions
        errorActions := [] }
    let r : Record := a.freshRecord
    let c : Context := .start "run" "now" .null
    let lost : Step (Frame (Entries Record)) Unit := fun s => ⟨.error (.panic ⟨none⟩), s, []⟩
    a.kind = .iterate loop actions ∧ r.detail = a.kind.detail ∧
      loop.Opens c items ⟨2, 0, true⟩ ∧
      (∃ p rounds, (a.runInternal ⟨r, c⟩).state.own = { r with detail := .iterate p rounds } ∧
        (loop.tour a.key (runSequence actions) items ⟨2, 0, true⟩ ⟨r, c⟩).Tells
          (a.runInternal ⟨r, c⟩).result p rounds ∧
        p.completed = 1 ∧ rounds.map Iteration.index = [2, 1] ∧
        p.last.map IterationItem.index = some 2 ∧ p.current.map IterationItem.index = some 1) ∧
      ∃ p rounds,
        (loop.run a.key lost ⟨r, c⟩).state.own = { r with detail := .iterate p rounds } ∧
          (loop.tour a.key lost items ⟨2, 0, true⟩ ⟨r, c⟩).Tells
            (loop.run a.key lost ⟨r, c⟩).result p rounds ∧
          p.completed = 0 ∧ rounds.map Iteration.index = [] ∧
          p.last.map IterationItem.index = none ∧ p.current.map IterationItem.index = some 2 := by
  intro late actions items loop a r c lost
  have hkind : a.kind = .iterate loop actions := rfl
  have hfresh : r.detail = a.kind.detail := rfl
  have hopens : loop.Opens c items ⟨2, 0, true⟩ :=
    ⟨rfl, nofun, some 2, some 0, none, rfl, rfl, rfl, rfl⟩
  have hcounted : ∀ {left : Record} {p : Progress} {rounds : List (Iteration Record)},
      left = { r with detail := .iterate p rounds } → left.counted =
        (p.completed, rounds.map Iteration.index, p.last.map IterationItem.index,
          p.current.map IterationItem.index) := by
    rintro _ p rounds rfl
    rfl
  have hran : (a.runInternal ⟨r, c⟩).state.own.counted = (1, [2, 1], some 2, some 1) := by
    decide +kernel
  have hlost : (loop.run a.key lost ⟨r, c⟩).state.own.counted = (0, [], none, some 2) := by
    decide +kernel
  obtain ⟨⟨p, rounds, hown, htells⟩, hany⟩ := runInternal_tells hkind hfresh hopens
  obtain ⟨q, others, hleft, htells'⟩ := hany lost
  rw [hcounted hown] at hran
  rw [hcounted hleft] at hlost
  simp only [Prod.mk.injEq] at hran hlost
  exact ⟨hkind, hfresh, hopens, ⟨p, rounds, hown, htells, hran⟩, q, others, hleft, htells', hlost⟩

end Action

end ActionFlow
