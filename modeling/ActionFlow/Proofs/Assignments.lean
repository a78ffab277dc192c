import ActionFlow.Proofs.Independence

/-!
# Lists of writes

Calls that write variables, made one after another.  If their targets lie apart, the order of the
calls decides nothing but the order of new keys: each call succeeds or is blocked as it would be
alone, and nothing that one of them wrote is lost to another.
-/
namespace ActionFlow

/-- A call that writes a variable. -/
structure Assignment where
  property : String
  path : Option Path
  value : Value

namespace Assignment

def segments (w : Assignment) : List String := (w.path.map Path.segments).getD []

/-- The segments that lead to what is written. -/
def target (w : Assignment) : List String := w.segments ++ [w.property]

/-- What the write in `c` comes to. -/
def result (w : Assignment) (c : Context) : Except Fault Unit :=
  (c.setVariable w.property w.path w.value).map fun _ => ()

/-- The context after the write in `c`; a blocked write leaves it as it is. -/
def after (w : Assignment) (c : Context) : Context :=
  match c.setVariable w.property w.path w.value with
  | .ok c' => c'
  | .error _ => c

variable {u w : Assignment} {c d : Context}

/-- A write goes through and changes the variables, or it is blocked and changes nothing. -/
theorem after_cases (w : Assignment) (c : Context) :
    (Entries.blocked? c.vars w.segments = none ∧ w.result c = .ok () ∧
        Entries.writeAt c.vars w.segments w.property w.value = .ok (w.after c).vars) ∨
      (∃ b, Entries.blocked? c.vars w.segments = some b ∧
        w.result c =
          .error (.setVariableFailed w.property ((w.path.map Path.text).getD "") b.reason)) ∧
        w.after c = c := by
  unfold result after Context.setVariable
  cases hb : Entries.blocked? c.vars w.segments with
  | none =>
    obtain ⟨vars, hw⟩ := Entries.exists_writeAt w.property w.value hb
    have hw' := hw
    unfold segments at hw'
    rw [hw']
    exact Or.inl ⟨rfl, rfl, hw⟩
  | some b =>
    have hw : Entries.writeAt c.vars w.segments w.property w.value = .error b :=
      Entries.writeAt_eq_error_iff.mpr hb
    unfold segments at hw
    rw [hw]
    exact Or.inr ⟨⟨b, rfl, rfl⟩, rfl⟩

theorem result_congr
    (h : Entries.blocked? c.vars w.segments = Entries.blocked? d.vars w.segments) :
    w.result c = w.result d := by
  rcases w.after_cases c with ⟨hb, hr, -⟩ | ⟨⟨b, hb, hr⟩, -⟩ <;>
    rcases w.after_cases d with ⟨hb', hr', -⟩ | ⟨⟨b', hb', hr'⟩, -⟩ <;> rw [hr, hr']
  · rw [hb, hb'] at h
    cases h
  · rw [hb, hb'] at h
    cases h
  · rw [hb, hb'] at h
    cases h
    rfl

theorem blocked?_after (h : Entries.Apart u.target w.target) :
    Entries.blocked? (u.after c).vars w.segments = Entries.blocked? c.vars w.segments := by
  rcases u.after_cases c with ⟨-, -, hu⟩ | ⟨-, hu⟩
  · exact Entries.blocked?_writeAt hu fun hp => h.1 (hp.trans (List.prefix_append _ _))
  · rw [hu]

theorem lookup_after_of_apart {t : List String} (h : Entries.Apart u.target t) :
    (Value.object (u.after c).vars).lookup t = (Value.object c.vars).lookup t := by
  rcases u.after_cases c with ⟨-, -, hu⟩ | ⟨-, hu⟩
  · exact Entries.lookup_writeAt_of_apart hu h
  · rw [hu]

theorem lookup_after (h : w.result c = .ok ()) :
    (Value.object (w.after c).vars).lookup w.target = some w.value := by
  rcases w.after_cases c with ⟨-, -, hw⟩ | ⟨⟨b, -, hr⟩, -⟩
  · rw [target, Entries.lookup_writeAt hw, Value.lookup_nil]
  · rw [hr] at h
    cases h

theorem wellFormed_after (hc : (Value.object c.vars).WellFormed) (hw : w.value.WellFormed) :
    (Value.object (w.after c).vars).WellFormed := by
  rcases w.after_cases c with ⟨-, -, h⟩ | ⟨-, h⟩
  · exact Entries.wellFormed_writeAt hc hw h
  · rw [h]
    exact hc

end Assignment

namespace Context

/-- Equal variables up to the order of keys. -/
def VarsAlike (c d : Context) : Prop := Value.Alike (.object c.vars) (.object d.vars)

theorem VarsAlike.after {c d : Context} (h : c.VarsAlike d) (w : Assignment) :
    (w.after c).VarsAlike (w.after d) := by
  have hb := Entries.blocked?_alike h w.segments
  rcases w.after_cases c with ⟨hc, -, hw⟩ | ⟨⟨b, hc, -⟩, hw⟩ <;>
    rcases w.after_cases d with ⟨hd, -, hw'⟩ | ⟨⟨b', hd, -⟩, hw'⟩
  · exact Entries.writeAt_alike h hw hw'
  · rw [hc, hd] at hb
    cases hb
  · rw [hc, hd] at hb
    cases hb
  · rw [hw, hw']
    exact h

/-- Two calls with targets that lie apart may be exchanged. -/
theorem varsAlike_after_after {u w : Assignment} (h : Entries.Apart u.target w.target)
    (c : Context) : (w.after (u.after c)).VarsAlike (u.after (w.after c)) := by
  have hw := Assignment.blocked?_after (c := c) h
  have hu := Assignment.blocked?_after (c := c) h.symm
  rcases u.after_cases c with ⟨hbu, -, hcu⟩ | ⟨⟨b, hbu, -⟩, hcu⟩
  · rcases w.after_cases c with ⟨hbw, -, hcw⟩ | ⟨⟨b', hbw, -⟩, hcw⟩
    · rcases w.after_cases (u.after c) with ⟨-, -, hcuw⟩ | ⟨⟨b, hb, -⟩, -⟩
      · rcases u.after_cases (w.after c) with ⟨-, -, hcwu⟩ | ⟨⟨b, hb, -⟩, -⟩
        · exact Entries.writeAt_comm h hcu hcw hcuw hcwu
        · rw [hb, hbu] at hu
          cases hu
      · rw [hb, hbw] at hw
        cases hw
    · rcases w.after_cases (u.after c) with ⟨hb, -, -⟩ | ⟨-, hcuw⟩
      · rw [hb, hbw] at hw
        cases hw
      · rw [hcuw, hcw]
        exact .refl _
  · rw [hcu]
    rcases u.after_cases (w.after c) with ⟨hb, -, -⟩ | ⟨-, hcwu⟩
    · rw [hb, hbu] at hu
      cases hu
    · rw [hcwu]
      exact .refl _

/-- Makes the calls one after another; each call with its result, and the context in the end. -/
def assignAll (c : Context) : List Assignment → List (Assignment × Except Fault Unit) × Context
  | [] => ([], c)
  | w :: rest =>
    let (results, last) := assignAll (w.after c) rest
    ((w, w.result c) :: results, last)

theorem assignAll_cons (c : Context) (w : Assignment) (rest : List Assignment) :
    c.assignAll (w :: rest) =
      ((w, w.result c) :: ((w.after c).assignAll rest).1, ((w.after c).assignAll rest).2) := rfl

def TargetsApart (calls : List Assignment) : Prop :=
  calls.Pairwise fun u w => Entries.Apart u.target w.target

instance (calls : List Assignment) : Decidable (TargetsApart calls) :=
  inferInstanceAs (Decidable (calls.Pairwise _))

variable {c : Context} {calls calls' : List Assignment}

/-- Each call gives the result that it gives alone. -/
theorem results_assignAll (h : TargetsApart calls) (c : Context) :
    (c.assignAll calls).1 = calls.map fun w => (w, w.result c) := by
  induction calls generalizing c with
  | nil => rfl
  | cons u rest ih =>
    obtain ⟨hu, hrest⟩ := List.pairwise_cons.mp h
    have hresults : (rest.map fun w => (w, w.result (u.after c))) =
        rest.map fun w => (w, w.result c) := by
      refine List.map_congr_left fun w hw => ?_
      rw [Assignment.result_congr (Assignment.blocked?_after (hu w hw))]
    rw [assignAll_cons, ih hrest, hresults, List.map_cons]

theorem VarsAlike.assignAll {c d : Context} (h : c.VarsAlike d) (calls : List Assignment) :
    (c.assignAll calls).2.VarsAlike (d.assignAll calls).2 := by
  induction calls generalizing c d with
  | nil => exact h
  | cons w rest ih => exact ih (h.after w)

theorem TargetsApart.perm (h : TargetsApart calls) (hp : calls.Perm calls') :
    TargetsApart calls' := (hp.pairwise_iff fun h => h.symm).mp h

theorem varsAlike_assignAll (hp : calls.Perm calls') (h : TargetsApart calls) (c : Context) :
    (c.assignAll calls).2.VarsAlike (c.assignAll calls').2 := by
  induction hp generalizing c with
  | nil => exact .refl _
  | cons w _ ih => exact ih (List.pairwise_cons.mp h).2 (w.after c)
  | swap u w rest =>
    have huw := (List.pairwise_cons.mp h).1 u List.mem_cons_self
    exact (varsAlike_after_after huw c).assignAll rest
  | trans hp _ ih ih' => exact (ih h c).trans (ih' (h.perm hp) c)

theorem lookup_assignAll_of_apart {t : List String}
    (h : ∀ w ∈ calls, Entries.Apart w.target t) (c : Context) :
    (Value.object (c.assignAll calls).2.vars).lookup t = (Value.object c.vars).lookup t := by
  induction calls generalizing c with
  | nil => rfl
  | cons u rest ih =>
    rw [assignAll_cons, ih fun w hw => h w (List.mem_cons_of_mem _ hw)]
    exact Assignment.lookup_after_of_apart (h u List.mem_cons_self)

/-- What a call wrote is not lost to the calls after it. -/
theorem lookup_assignAll (h : TargetsApart calls) (c : Context) {w : Assignment}
    (hw : (w, .ok ()) ∈ (c.assignAll calls).1) :
    (Value.object (c.assignAll calls).2.vars).lookup w.target = some w.value := by
  induction calls generalizing c with
  | nil => cases hw
  | cons u rest ih =>
    obtain ⟨hu, hrest⟩ := List.pairwise_cons.mp h
    rw [assignAll_cons] at hw ⊢
    rcases List.mem_cons.mp hw with he | hw
    · obtain ⟨rfl, hr⟩ := Prod.mk.inj he
      rw [lookup_assignAll_of_apart fun v hv => (hu v hv).symm]
      exact Assignment.lookup_after hr.symm
    · exact ih hrest (u.after c) hw

theorem wellFormed_assignAll (hv : ∀ w ∈ calls, w.value.WellFormed)
    (hc : (Value.object c.vars).WellFormed) :
    (Value.object (c.assignAll calls).2.vars).WellFormed := by
  induction calls generalizing c with
  | nil => exact hc
  | cons u rest ih =>
    refine ih (fun w hw => hv w (List.mem_cons_of_mem _ hw)) ?_
    exact Assignment.wellFormed_after hc (hv u List.mem_cons_self)

theorem lookup_variables (c : Context) (segments : List String) :
    c.lookup ⟨"variables" :: segments⟩ = (Value.object c.vars).lookup segments := by
  cases segments with
  | nil => simp [lookup, Path.splitFirst?, lookupIn]
  | cons s rest => simp [lookup, Path.splitFirst?, lookupIn, Value.lookup_object_cons]

/-- Writes whose targets lie apart may be made in any order: each gives the result that it gives
alone, the variables come out the same, and what a successful one wrote stands at its target. -/
theorem assignAll_perm (hc : (Value.object c.vars).WellFormed)
    (hv : ∀ w ∈ calls, w.value.WellFormed) (ha : TargetsApart calls) (hp : calls.Perm calls') :
    (c.assignAll calls').1 = (calls'.map fun w => (w, w.result c)) ∧
      (Value.object (c.assignAll calls).2.vars).same (.object (c.assignAll calls').2.vars) = true ∧
      ∀ w, (w, .ok ()) ∈ (c.assignAll calls').1 →
        (c.assignAll calls').2.lookup ⟨"variables" :: w.target⟩ = some w.value := by
  have ha' := ha.perm hp
  refine ⟨results_assignAll ha' c, ?_, ?_⟩
  · exact (varsAlike_assignAll hp ha c).same (wellFormed_assignAll hv hc)
  · intro w hw
    rw [lookup_variables]
    exact lookup_assignAll ha' c hw

/-- A store with an object and a number in it. -/
def stocked : Context :=
  { start "run" "now" .null with
    vars := [("box", .object [("first", .bool true)]), ("flat", .integer 5)] }

/-- Two writes into a new object, one into an old one, and one that a number blocks. -/
def deliveries : List Assignment :=
  [⟨"left", some ⟨["new", "deep"]⟩, .binary [1, 2]⟩, ⟨"second", some ⟨["box"]⟩, .null⟩,
    ⟨"right", some ⟨["new", "deep"]⟩, .file "f" [3]⟩, ⟨"inner", some ⟨["flat"]⟩, .text "t"⟩]

theorem assignAll_perm_deliveries :
    (Value.object stocked.vars).WellFormed ∧ (∀ w ∈ deliveries, w.value.WellFormed) ∧
      TargetsApart deliveries ∧ deliveries.Perm deliveries.reverse ∧
      Entries.keys (stocked.assignAll deliveries.reverse).2.vars = ["box", "flat", "new"] ∧
      ((stocked.assignAll deliveries.reverse).1.map fun p => p.2.isOk) =
        [false, true, true, true] ∧
      (stocked.assignAll deliveries.reverse).1 =
        (deliveries.reverse.map fun w => (w, w.result stocked)) ∧
      (Value.object (stocked.assignAll deliveries).2.vars).same
        (.object (stocked.assignAll deliveries.reverse).2.vars) = true ∧
      ∀ w, (w, .ok ()) ∈ (stocked.assignAll deliveries.reverse).1 →
        (stocked.assignAll deliveries.reverse).2.lookup ⟨"variables" :: w.target⟩ =
          some w.value := by
  have hc : (Value.object stocked.vars).WellFormed := by
    simp [stocked, Value.WellFormed, Value.FieldsWellFormed, Value.integer, Number.WellFormed,
      minInt64, wordCount]
  have hv : ∀ w ∈ deliveries, w.value.WellFormed := by simp [deliveries, Value.WellFormed]
  have ha : TargetsApart deliveries := by decide
  have hp : deliveries.Perm deliveries.reverse := (List.reverse_perm deliveries).symm
  exact ⟨hc, hv, ha, hp, by decide +kernel, by decide +kernel, assignAll_perm hc hv ha hp⟩

end Context

end ActionFlow
