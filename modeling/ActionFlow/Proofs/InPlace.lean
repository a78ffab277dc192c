import ActionFlow.Action.Logic
import ActionFlow.Proofs.Independence

/-!
# Writes in place

A write walks down its path, makes the objects that are missing there, and may be blocked further
down.  Made in place, it would leave behind whatever it had made until then.  It never does: only
what stood in the fields before can block it, and nothing stood beneath an object that it made.
-/
namespace ActionFlow

namespace Entries

/-! ### What blocks a write -/

variable {fields fields' inner : Entries Value} {segment : String} {path rest : List String}
  {property : String} {value : Value}

theorem blocked?_of_empty (path : List String) : blocked? [] path = none := by
  induction path with
  | nil => rw [blocked?]
  | cons segment rest ih =>
    have hi : inside [] segment = .ok [] := rfl
    rw [blocked?, hi]
    exact ih

theorem lookup_cons_of_find? {v : Value} (h : find? fields segment = some v)
    (rest : List String) : (Value.object fields).lookup (segment :: rest) = v.lookup rest := by
  rw [Value.lookup_object_cons, h]
  rfl

theorem lookup_cons_of_absent (h : find? fields segment = none) (rest : List String) :
    (Value.object fields).lookup (segment :: rest) = none := by
  rw [Value.lookup_object_cons, h]
  rfl

/-- Some part of the path, from its start, leads to a value that is no object. -/
def Obstructed (fields : Entries Value) (path : List String) : Prop :=
  ∃ s, s ≠ [] ∧ s <+: path ∧ ∃ v, (Value.object fields).lookup s = some v ∧ v.object? = none

theorem not_obstructed_nil : ¬ Obstructed fields [] := by
  rintro ⟨s, hne, hs, -⟩
  exact hne (List.prefix_nil.mp hs)

theorem not_obstructed_of_absent (h : find? fields segment = none) :
    ¬ Obstructed fields (segment :: rest) := by
  rintro ⟨s, hne, hs, v, hv, -⟩
  cases s with
  | nil => exact hne rfl
  | cons first s =>
    obtain ⟨rfl, -⟩ := List.cons_prefix_cons.mp hs
    rw [lookup_cons_of_absent h] at hv
    cases hv

theorem obstructed_of_find? {v : Value} (h : find? fields segment = some v)
    (hv : v.object? = none) : Obstructed fields (segment :: rest) := by
  refine ⟨[segment], List.cons_ne_nil _ _, ?_, v, ?_, hv⟩
  · exact List.cons_prefix_cons.mpr ⟨rfl, List.nil_prefix⟩
  · rw [lookup_cons_of_find? h, Value.lookup_nil]

theorem obstructed_cons_iff (h : find? fields segment = some (.object inner)) :
    Obstructed fields (segment :: rest) ↔ Obstructed inner rest := by
  constructor
  · rintro ⟨s, hne, hs, v, hv, ho⟩
    cases s with
    | nil => exact absurd rfl hne
    | cons first s =>
      obtain ⟨rfl, hrest⟩ := List.cons_prefix_cons.mp hs
      rw [lookup_cons_of_find? h] at hv
      refine ⟨s, ?_, hrest, v, hv, ho⟩
      rintro rfl
      rw [Value.lookup_nil] at hv
      cases hv
      cases ho
  · rintro ⟨s, -, hs, v, hv, ho⟩
    refine ⟨segment :: s, List.cons_ne_nil _ _, List.cons_prefix_cons.mpr ⟨rfl, hs⟩, v, ?_, ho⟩
    rw [lookup_cons_of_find? h, hv]

/-- A write is blocked exactly if something that is no object stands on its path. -/
theorem exists_blocked?_iff : (∃ b, blocked? fields path = some b) ↔ Obstructed fields path := by
  induction path generalizing fields with
  | nil =>
    have hn : blocked? fields [] = none := by rw [blocked?]
    simp [hn, not_obstructed_nil]
  | cons segment rest ih =>
    rw [blocked?, inside]
    cases h : find? fields segment with
    | none => simp [blocked?_of_empty, not_obstructed_of_absent h]
    | some v =>
      cases v with
      | object inner => exact ih.trans (obstructed_cons_iff h).symm
      | _ => exact ⟨fun _ => obstructed_of_find? h rfl, fun _ => ⟨_, rfl⟩⟩

/-! ### The write in place -/

/-- What blocked the write, if anything did, and the fields as it left them.  An object that it made
on the way stays, whatever comes of the write beneath it. -/
def writeInPlace (fields : Entries Value) (path : List String) (property : String)
    (value : Value) : Option Blocked × Entries Value :=
  match path with
  | [] => (none, put fields property value)
  | segment :: rest =>
    match inside fields segment with
    | .error b => (some b, fields)
    | .ok inner =>
      let ending := writeInPlace inner rest property value
      (ending.1, put fields segment (.object ending.2))

theorem writeInPlace_of_inside (h : inside fields segment = .ok inner) :
    writeInPlace fields (segment :: path) property value =
      ((writeInPlace inner path property value).1,
        put fields segment (.object (writeInPlace inner path property value).2)) := by
  rw [writeInPlace, h]

/-- Beneath an object that is made on the way nothing blocks. -/
theorem put_inside_of_blocked {b : Blocked} (h : inside fields segment = .ok inner)
    (hb : blocked? inner rest = some b) : put fields segment (.object inner) = fields := by
  unfold inside at h
  split at h
  · cases h
    rw [blocked?_of_empty] at hb
    cases hb
  · next he =>
    cases h
    exact put_self he
  · cases h

theorem writeInPlace_of_blocked {b : Blocked} (h : blocked? fields path = some b) :
    writeInPlace fields path property value = (some b, fields) := by
  induction path generalizing fields with
  | nil =>
    rw [blocked?] at h
    cases h
  | cons segment rest ih =>
    cases hi : inside fields segment with
    | error b' =>
      rw [blocked?, hi] at h
      cases h
      rw [writeInPlace, hi]
    | ok inner =>
      rw [blocked?, hi] at h
      have hb : blocked? inner rest = some b := h
      rw [writeInPlace_of_inside hi, ih hb, put_inside_of_blocked hi hb]

theorem writeInPlace_of_ok (h : writeAt fields path property value = .ok fields') :
    writeInPlace fields path property value = (none, fields') := by
  induction path generalizing fields fields' with
  | nil =>
    rw [writeAt_nil] at h
    cases h
    rw [writeInPlace]
  | cons segment rest ih =>
    obtain ⟨inner, inner', hi, hw, rfl⟩ := writeAt_cons_eq_ok h
    rw [writeInPlace_of_inside hi, ih hw]

end Entries

/-! ### Variables -/

namespace Context

/-- How the write of a variable ends when it is made in place, and the context as it leaves it. -/
def setInPlace (c : Context) (property : String) (path : Option Path) (value : Value) :
    Except Fault Unit × Context :=
  let ending := Entries.writeInPlace c.vars ((path.map Path.segments).getD []) property value
  let result := match ending.1 with
    | none => .ok ()
    | some blocked =>
      .error (.setVariableFailed property ((path.map Path.text).getD "") blocked.reason)
  (result, { c with vars := ending.2 })

variable {c c' : Context} {property : String} {path : Option Path} {value : Value} {fault : Fault}

theorem setVariable_eq_ok_iff :
    c.setVariable property path value = .ok c' ↔
      ∃ vars, Entries.writeAt c.vars ((path.map Path.segments).getD []) property value = .ok vars ∧
        c' = { c with vars := vars } := by
  unfold setVariable
  cases h : Entries.writeAt c.vars ((path.map Path.segments).getD []) property value with
  | ok vars =>
    constructor
    · rintro ⟨⟩
      exact ⟨vars, rfl, rfl⟩
    · rintro ⟨_, ⟨⟩, rfl⟩
      rfl
  | error b =>
    constructor
    · rintro ⟨⟩
    · rintro ⟨_, ⟨⟩, -⟩

theorem setVariable_eq_error_iff :
    c.setVariable property path value = .error fault ↔
      ∃ b, Entries.blocked? c.vars ((path.map Path.segments).getD []) = some b ∧
        fault = .setVariableFailed property ((path.map Path.text).getD "") b.reason := by
  unfold setVariable
  cases h : Entries.writeAt c.vars ((path.map Path.segments).getD []) property value with
  | ok vars =>
    constructor
    · rintro ⟨⟩
    · rintro ⟨b, hb, -⟩
      rw [Entries.writeAt_eq_error_iff.mpr hb] at h
      cases h
  | error b =>
    rw [Entries.writeAt_eq_error_iff.mp h]
    constructor
    · rintro ⟨⟩
      exact ⟨b, rfl, rfl⟩
    · rintro ⟨_, ⟨⟩, rfl⟩
      rfl

theorem setInPlace_of_ok (h : c.setVariable property path value = .ok c') :
    c.setInPlace property path value = (.ok (), c') := by
  obtain ⟨vars, hw, rfl⟩ := setVariable_eq_ok_iff.mp h
  unfold setInPlace
  rw [Entries.writeInPlace_of_ok hw]

theorem setInPlace_of_error (h : c.setVariable property path value = .error fault) :
    c.setInPlace property path value = (.error fault, c) := by
  obtain ⟨b, hb, rfl⟩ := setVariable_eq_error_iff.mp h
  unfold setInPlace
  rw [Entries.writeInPlace_of_blocked hb]

/-- The step of a run that writes a variable writes it in place. -/
theorem write_eq_inPlace (s : Frame Record) :
    Logic.write property path value s =
      ⟨(s.context.setInPlace property path value).1.mapError .error,
        ⟨s.own, (s.context.setInPlace property path value).2⟩, []⟩ := by
  unfold Logic.write
  cases h : s.context.setVariable property path value with
  | ok context =>
    rw [setInPlace_of_ok h]
    rfl
  | error fault =>
    rw [setInPlace_of_error h]
    rfl

/-- A write fails exactly if a part of its path, from its start, leads to something that is no
object, and then it has changed nothing, not even in place. -/
theorem setVariable_atomic (c : Context) (property : String) (path : Option Path) (value : Value) :
    ((∃ fault, c.setVariable property path value = .error fault) ↔
      Entries.Obstructed c.vars ((path.map Path.segments).getD [])) ∧
    (∀ fault, c.setVariable property path value = .error fault →
      c.setInPlace property path value = (.error fault, c)) ∧
    ∀ c', c.setVariable property path value = .ok c' →
      c.setInPlace property path value = (.ok (), c') := by
  refine ⟨Iff.trans ?_ Entries.exists_blocked?_iff, fun _ => setInPlace_of_error,
    fun _ => setInPlace_of_ok⟩
  constructor
  · rintro ⟨fault, h⟩
    obtain ⟨b, hb, -⟩ := setVariable_eq_error_iff.mp h
    exact ⟨b, hb⟩
  · rintro ⟨b, hb⟩
    exact ⟨_, setVariable_eq_error_iff.mpr ⟨b, hb, rfl⟩⟩

/-- A list with an object in it blocks a write, though the path leads to that object. -/
theorem setVariable_atomic_listed :
    let c := { start "run" "now" .null with
      vars := [("shelf", .object [("boxes", .array [.object []])]), ("other", .null)] }
    let path : Option Path := some ⟨["shelf", "boxes", "0"]⟩
    (Value.object c.vars).lookup ["shelf", "boxes", "0"] = some (.object []) ∧
      ∃ fault, c.setVariable "label" path (.text "new") = .error fault ∧
        c.setInPlace "label" path (.text "new") = (.error fault, c) := by
  intro c path
  have hblocked : Entries.Obstructed c.vars ["shelf", "boxes", "0"] :=
    ⟨["shelf", "boxes"], nofun, ⟨["0"], rfl⟩, .array [.object []], rfl, rfl⟩
  obtain ⟨hfails, hkeeps, -⟩ := setVariable_atomic c "label" path (.text "new")
  obtain ⟨fault, hfault⟩ := hfails.mpr hblocked
  exact ⟨rfl, fault, hfault, hkeeps fault hfault⟩

end Context

end ActionFlow
