import ActionFlow.Context
import ActionFlow.Proofs.Equality

/-!
# Writes that lie apart

What a write does, seen from one segment of its path: it goes on inside the object that stands
there, in a new one if there is none, or is blocked.  Writes whose targets lie apart neither block
nor overwrite each other, and they commute up to the order of keys.
-/
namespace ActionFlow

/-! ### One write -/

namespace Entries

/-- The fields that a write beneath the segment goes on in. -/
def inside (fields : Entries Value) (segment : String) : Except Blocked (Entries Value) :=
  match find? fields segment with
  | none => .ok []
  | some (.object inner) => .ok inner
  | some other => .error ⟨segment, other.kind⟩

/-- What blocks writes beneath the path, if anything does. -/
def blocked? (fields : Entries Value) : List String → Option Blocked
  | [] => none
  | segment :: rest =>
    match inside fields segment with
    | .ok inner => blocked? inner rest
    | .error b => some b

variable {fields fields' inner inner' : Entries Value} {segment : String} {path : List String}
  {property : String} {value : Value}

theorem inside_congr {xs ys : Entries Value} (h : find? xs segment = find? ys segment) :
    inside xs segment = inside ys segment := by
  unfold inside
  rw [h]

theorem inside_put_self (fields inner : Entries Value) (segment : String) :
    inside (put fields segment (.object inner)) segment = .ok inner := by
  unfold inside
  rw [find?_put_self]

theorem inside_put_of_ne (fields : Entries Value) {key : String} (v : Value) (h : segment ≠ key) :
    inside (put fields key v) segment = inside fields segment :=
  inside_congr (find?_put_of_ne fields v h)

theorem writeAt_of_inside (h : inside fields segment = .ok inner) :
    writeAt fields (segment :: path) property value =
      (writeAt inner path property value).map
        fun inner' => put fields segment (.object inner') := by
  unfold inside at h
  split at h
  · next he =>
    cases h
    simp only [writeAt, he]
    cases writeAt [] path property value <;> rfl
  · next he =>
    cases h
    simp only [writeAt, he]
    cases writeAt inner path property value <;> rfl
  · cases h

theorem writeAt_of_blocked {b : Blocked} (h : inside fields segment = .error b) :
    writeAt fields (segment :: path) property value = .error b := by
  unfold inside at h
  split at h
  · cases h
  · cases h
  · next other hobject he =>
    cases h
    simp only [writeAt, he]

/-- A write that goes through goes through inside, and puts there what it left. -/
theorem writeAt_cons_eq_ok
    (h : writeAt fields (segment :: path) property value = .ok fields') :
    ∃ inner inner', inside fields segment = .ok inner ∧
      writeAt inner path property value = .ok inner' ∧
      fields' = put fields segment (.object inner') := by
  cases hi : inside fields segment with
  | error b =>
    rw [writeAt_of_blocked hi] at h
    cases h
  | ok inner =>
    rw [writeAt_of_inside hi] at h
    cases hw : writeAt inner path property value with
    | error b =>
      rw [hw] at h
      cases h
    | ok inner' =>
      rw [hw] at h
      cases h
      exact ⟨inner, inner', rfl, hw, rfl⟩

theorem writeAt_of_inside_ok (hi : inside fields segment = .ok inner)
    (hw : writeAt inner path property value = .ok inner') :
    writeAt fields (segment :: path) property value =
      .ok (put fields segment (.object inner')) := by
  rw [writeAt_of_inside hi, hw]
  rfl

/-- Whether a write is blocked depends on the fields and on the path only. -/
theorem writeAt_eq_error_iff {b : Blocked} :
    writeAt fields path property value = .error b ↔ blocked? fields path = some b := by
  induction path generalizing fields with
  | nil =>
    rw [writeAt_nil, blocked?]
    exact ⟨nofun, nofun⟩
  | cons segment rest ih =>
    rw [blocked?]
    cases hi : inside fields segment with
    | error b' =>
      rw [writeAt_of_blocked hi]
      simp
    | ok inner =>
      rw [writeAt_of_inside hi, ← ih]
      cases writeAt inner rest property value <;> simp [Except.map]

theorem exists_writeAt (property : String) (value : Value) (h : blocked? fields path = none) :
    ∃ fields', writeAt fields path property value = .ok fields' := by
  cases hw : writeAt fields path property value with
  | ok fields' => exact ⟨fields', rfl⟩
  | error b =>
    rw [writeAt_eq_error_iff.mp hw] at h
    cases h

theorem wellFormed_writeAt (hf : (Value.object fields).WellFormed) (hv : value.WellFormed)
    (h : writeAt fields path property value = .ok fields') :
    (Value.object fields').WellFormed := by
  induction path generalizing fields fields' with
  | nil =>
    rw [writeAt_nil] at h
    cases h
    exact hf.put property hv
  | cons segment rest ih =>
    obtain ⟨inner, inner', hi, hw, rfl⟩ := writeAt_cons_eq_ok h
    have hinner : (Value.object inner).WellFormed := by
      unfold inside at hi
      split at hi
      · cases hi
        exact Value.wellFormed_empty
      · next he =>
        cases hi
        exact (Value.wellFormed_object_iff.mp hf).2 _ _ he
      · cases hi
    exact hf.put segment (ih hinner hw)

/-! ### Writes into alike fields -/

theorem inside_alike {xs ys : Entries Value} (h : Value.Alike (.object xs) (.object ys))
    (segment : String) :
    (∃ b, inside xs segment = .error b ∧ inside ys segment = .error b) ∨
      ∃ inner inner', inside xs segment = .ok inner ∧ inside ys segment = .ok inner' ∧
        Value.Alike (.object inner) (.object inner') := by
  obtain ⟨hkeys, hfields⟩ := Value.alike_object_iff.mp h
  unfold inside
  cases hx : find? xs segment with
  | none =>
    rw [(find?_eq_none_of_perm hkeys segment).mp hx]
    exact Or.inr ⟨[], [], rfl, rfl, .refl _⟩
  | some x =>
    obtain ⟨y, hy⟩ := exists_find?_of_perm hkeys hx
    rw [hy]
    cases hfields segment x y hx hy with
    | refl =>
      cases x with
      | object inner => exact Or.inr ⟨inner, inner, rfl, rfl, .refl _⟩
      | _ => exact Or.inl ⟨_, rfl, rfl⟩
    | object keys inner => exact Or.inr ⟨_, _, rfl, rfl, .object keys inner⟩

theorem blocked?_alike {xs ys : Entries Value} (h : Value.Alike (.object xs) (.object ys))
    (path : List String) : blocked? xs path = blocked? ys path := by
  induction path generalizing xs ys with
  | nil => rw [blocked?, blocked?]
  | cons segment rest ih =>
    rw [blocked?, blocked?]
    rcases inside_alike h segment with ⟨b, hx, hy⟩ | ⟨inner, inner', hx, hy, hi⟩
    · rw [hx, hy]
    · rw [hx, hy]
      exact ih hi

theorem writeAt_alike {xs ys xs' ys' : Entries Value}
    (h : Value.Alike (.object xs) (.object ys)) (hx : writeAt xs path property value = .ok xs')
    (hy : writeAt ys path property value = .ok ys') :
    Value.Alike (.object xs') (.object ys') := by
  induction path generalizing xs ys xs' ys' with
  | nil =>
    rw [writeAt_nil] at hx hy
    cases hx
    cases hy
    exact h.put property (.refl value)
  | cons segment rest ih =>
    obtain ⟨ix, ix', hix, hwx, rfl⟩ := writeAt_cons_eq_ok hx
    obtain ⟨iy, iy', hiy, hwy, rfl⟩ := writeAt_cons_eq_ok hy
    rcases inside_alike h segment with ⟨b, hbx, -⟩ | ⟨inner, inner', hbx, hby, hi⟩
    · rw [hix] at hbx
      cases hbx
    · rw [hix] at hbx
      rw [hiy] at hby
      cases hbx
      cases hby
      exact h.put segment (ih hi hwx hwy)

/-! ### Two targets -/

/-- Neither list of segments leads to a place inside the other's. -/
def Apart (s t : List String) : Prop := ¬ s <+: t ∧ ¬ t <+: s

instance (s t : List String) : Decidable (Apart s t) := inferInstanceAs (Decidable (_ ∧ _))

theorem Apart.symm {s t : List String} (h : Apart s t) : Apart t s := ⟨h.2, h.1⟩

theorem apart_cons_iff {segment : String} {s t : List String} :
    Apart (segment :: s) (segment :: t) ↔ Apart s t := by
  simp [Apart, List.cons_prefix_cons]

/-- A write leaves alone what is not inside its target. -/
theorem blocked?_writeAt (h : writeAt fields path property value = .ok fields')
    {other : List String} (ho : ¬ path ++ [property] <+: other) :
    blocked? fields' other = blocked? fields other := by
  induction path generalizing fields fields' other with
  | nil =>
    rw [writeAt_nil] at h
    cases h
    cases other with
    | nil => rw [blocked?, blocked?]
    | cons s others =>
      have hne : s ≠ property := by
        rintro rfl
        exact ho (List.cons_prefix_cons.mpr ⟨rfl, List.nil_prefix⟩)
      rw [blocked?, blocked?, inside_put_of_ne fields value hne]
  | cons segment rest ih =>
    obtain ⟨inner, inner', hi, hw, rfl⟩ := writeAt_cons_eq_ok h
    cases other with
    | nil => rw [blocked?, blocked?]
    | cons s others =>
      rw [blocked?, blocked?]
      by_cases hs : s = segment
      · subst hs
        rw [inside_put_self, hi]
        exact ih hw fun hp => ho (List.cons_prefix_cons.mpr ⟨rfl, hp⟩)
      · rw [inside_put_of_ne fields _ hs]

/-- A write changes what stands under the first segment of its target, and reads nothing else. -/
theorem writeAt_first {first : String} {rest : List String}
    (ht : path ++ [property] = first :: rest)
    (h : writeAt fields path property value = .ok fields') :
    ∃ x, fields' = put fields first x ∧
      ∀ ys, find? ys first = find? fields first →
        writeAt ys path property value = .ok (put ys first x) := by
  cases path with
  | nil =>
    cases ht
    rw [writeAt_nil] at h
    cases h
    exact ⟨value, rfl, fun ys _ => writeAt_nil ys property value⟩
  | cons segment path =>
    obtain ⟨rfl, -⟩ := List.cons.inj ht
    obtain ⟨inner, inner', hi, hw, rfl⟩ := writeAt_cons_eq_ok h
    refine ⟨.object inner', rfl, fun ys hys => ?_⟩
    exact writeAt_of_inside_ok ((inside_congr hys).trans hi) hw

section Two

variable {p q : List String} {m n : String} {v w : Value} {fp fq fpq fqp : Entries Value}

theorem writeAt_comm_of_ne {a b : String} {s t : List String} (hs : p ++ [m] = a :: s)
    (ht : q ++ [n] = b :: t) (hne : a ≠ b) (hp : writeAt fields p m v = .ok fp)
    (hq : writeAt fields q n w = .ok fq) (hpq : writeAt fp q n w = .ok fpq)
    (hqp : writeAt fq p m v = .ok fqp) : Value.Alike (.object fpq) (.object fqp) := by
  obtain ⟨x, rfl, hx⟩ := writeAt_first hs hp
  obtain ⟨y, rfl, hy⟩ := writeAt_first ht hq
  rw [hy _ (find?_put_of_ne fields x hne.symm)] at hpq
  rw [hx _ (find?_put_of_ne fields y hne)] at hqp
  cases hpq
  cases hqp
  exact .put_put fields hne x y

/-- Writes whose targets lie apart commute up to the order of the keys. -/
theorem writeAt_comm (ha : Apart (p ++ [m]) (q ++ [n])) (hp : writeAt fields p m v = .ok fp)
    (hq : writeAt fields q n w = .ok fq) (hpq : writeAt fp q n w = .ok fpq)
    (hqp : writeAt fq p m v = .ok fqp) : Value.Alike (.object fpq) (.object fqp) := by
  -- Where the targets part, two keys of one object are written; above that, one key twice.
  induction p generalizing q fields fp fq fpq fqp with
  | nil =>
    cases q with
    | nil => exact writeAt_comm_of_ne rfl rfl (fun he => ha.1 (by simp [he])) hp hq hpq hqp
    | cons t q => exact writeAt_comm_of_ne rfl rfl (fun he => ha.1 (by simp [he])) hp hq hpq hqp
  | cons s p ih =>
    cases q with
    | nil => exact writeAt_comm_of_ne rfl rfl (fun he => ha.2 (by simp [he])) hp hq hpq hqp
    | cons t q =>
      by_cases hst : s = t
      · subst hst
        obtain ⟨inner, ip, hi, hip, rfl⟩ := writeAt_cons_eq_ok hp
        obtain ⟨inner', iq, hi', hiq, rfl⟩ := writeAt_cons_eq_ok hq
        obtain ⟨ip', ipq, hp', hipq, rfl⟩ := writeAt_cons_eq_ok hpq
        obtain ⟨iq', iqp, hq', hiqp, rfl⟩ := writeAt_cons_eq_ok hqp
        rw [inside_put_self] at hp' hq'
        rw [hi] at hi'
        cases hi'
        cases hp'
        cases hq'
        rw [put_put, put_put]
        have hinner := ih (apart_cons_iff.mp ha) hip hiq hipq hiqp
        exact (Value.Alike.refl (.object fields)).put s hinner
      · exact writeAt_comm_of_ne rfl rfl hst hp hq hpq hqp

end Two

/-! ### What stands at a target -/

theorem lookup_of_inside (h : inside fields segment = .ok inner) {rest : List String}
    (hr : rest ≠ []) :
    (Value.object fields).lookup (segment :: rest) = (Value.object inner).lookup rest := by
  rw [Value.lookup_object_cons]
  unfold inside at h
  split at h
  · next he =>
    cases h
    obtain ⟨s, others, rfl⟩ := List.exists_cons_of_ne_nil hr
    rw [he, Value.lookup_object_cons]
    rfl
  · next he =>
    cases h
    rw [he]
    rfl
  · cases h

theorem lookup_put_object (fields inner : Entries Value) (segment : String) (rest : List String) :
    (Value.object (put fields segment (.object inner))).lookup (segment :: rest) =
      (Value.object inner).lookup rest := by
  rw [Value.lookup_object_cons, find?_put_self]
  rfl

theorem lookup_put_of_ne (fields : Entries Value) {key : String} (v : Value) (h : segment ≠ key)
    (rest : List String) :
    (Value.object (put fields key v)).lookup (segment :: rest) =
      (Value.object fields).lookup (segment :: rest) := by
  rw [Value.lookup_object_cons, Value.lookup_object_cons, find?_put_of_ne _ _ h]

theorem lookup_writeAt (h : writeAt fields path property value = .ok fields')
    (rest : List String) :
    (Value.object fields').lookup (path ++ property :: rest) = value.lookup rest := by
  induction path generalizing fields fields' with
  | nil =>
    rw [writeAt_nil] at h
    cases h
    rw [List.nil_append, Value.lookup_object_cons, find?_put_self]
    rfl
  | cons segment path ih =>
    obtain ⟨inner, inner', -, hw, rfl⟩ := writeAt_cons_eq_ok h
    rw [List.cons_append, lookup_put_object]
    exact ih hw

theorem lookup_writeAt_of_apart (h : writeAt fields path property value = .ok fields')
    {other : List String} (ha : Apart (path ++ [property]) other) :
    (Value.object fields').lookup other = (Value.object fields).lookup other := by
  induction path generalizing fields fields' other with
  | nil =>
    rw [writeAt_nil] at h
    cases h
    cases other with
    | nil => exact absurd List.nil_prefix ha.2
    | cons s rest => exact lookup_put_of_ne fields value (fun he => ha.1 (by simp [he])) rest
  | cons segment path ih =>
    obtain ⟨inner, inner', hi, hw, rfl⟩ := writeAt_cons_eq_ok h
    cases other with
    | nil => exact absurd List.nil_prefix ha.2
    | cons s rest =>
      by_cases hs : s = segment
      · subst hs
        have hrest : Apart (path ++ [property]) rest := apart_cons_iff.mp ha
        have hne : rest ≠ [] := by
          rintro rfl
          exact hrest.2 List.nil_prefix
        rw [lookup_put_object, lookup_of_inside hi hne]
        exact ih hw hrest
      · exact lookup_put_of_ne fields _ hs rest

end Entries

end ActionFlow
