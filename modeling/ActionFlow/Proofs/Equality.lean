import ActionFlow.Value.Basic

/-!
# Equality up to the order of keys

The values of a run have each key once in every object and finite numbers only.  `Alike` relates
values that differ in nothing but the order of the keys of their objects; on the values of a run it
implies that they are the same as `Value.same` decides it.
-/
namespace ActionFlow

/-! ### Numbers -/

namespace Number

theorem compare_unpacked_self {x : Float.Model.UnpackedFloat} (h : x.isFinite = true) :
    x.compare x = some .eq := by
  cases x with
  | notANumber => cases h
  | infinity s => cases h
  | zero s => rfl
  | finite s m e hm =>
    have he : compare e e = .eq := Std.ReflCmp.compare_self
    have hm : compare m m = .eq := Std.ReflCmp.compare_self
    have hsame : (compare e e).then (compare m m) = .eq := by
      rw [he, hm]
      rfl
    cases s with
    | positive => exact congrArg some hsame
    | negative => exact congrArg (fun o : Ordering => some o.swap) hsame

theorem beq_float_self {x : Float} (h : x.isFinite = true) : (x == x) = true := by
  have hc : x.toModel.unpack.compare x.toModel.unpack = some .eq := compare_unpacked_self h
  show x.toModel.unpack.beq x.toModel.unpack = true
  unfold Float.Model.UnpackedFloat.beq
  rw [hc]
  rfl

theorem same_self {n : Number} (h : n.WellFormed) : n.same n = true := by
  cases n with
  | integer i => exact beq_self_eq_true i
  | double x => exact beq_float_self h

end Number

/-! ### Tables -/

namespace Entries

variable {α : Type}

theorem find?_put (entries : Entries α) (key other : String) (value : α) :
    find? (put entries key value) other =
      if other = key then some value else find? entries other := by
  by_cases h : other = key
  · rw [if_pos h, h, find?_put_self]
  · rw [if_neg h, find?_put_of_ne _ _ h]

theorem mem_keys_of_find? {entries : Entries α} {key : String} {value : α}
    (h : find? entries key = some value) : key ∈ keys entries := by
  refine Decidable.byContradiction fun hnot => ?_
  rw [find?_eq_none_iff.mpr hnot] at h
  cases h

theorem exists_find? {entries : Entries α} {key : String} (h : key ∈ keys entries) :
    ∃ value, find? entries key = some value := by
  cases hf : find? entries key with
  | none => exact absurd h (find?_eq_none_iff.mp hf)
  | some value => exact ⟨value, rfl⟩

-- what two tables with the same keys in any order have in common
section Perm

variable {xs ys : Entries α} (h : (keys xs).Perm (keys ys))

include h

theorem exists_find?_of_perm {key : String} {x : α} (hx : find? xs key = some x) :
    ∃ y, find? ys key = some y :=
  exists_find? (h.mem_iff.mp (mem_keys_of_find? hx))

theorem find?_eq_none_of_perm (key : String) : find? xs key = none ↔ find? ys key = none := by
  rw [find?_eq_none_iff, find?_eq_none_iff, h.mem_iff]

theorem length_eq_of_perm : xs.length = ys.length := by
  have hlength := h.length_eq
  rwa [keys, keys, List.length_map, List.length_map] at hlength

end Perm

theorem perm_keys_put {xs ys : Entries α} (h : (keys xs).Perm (keys ys)) (key : String)
    (v w : α) : (keys (put xs key v)).Perm (keys (put ys key w)) := by
  rw [keys_put, keys_put]
  by_cases hk : key ∈ keys xs
  · rw [if_pos hk, if_pos (h.mem_iff.mp hk)]
    exact h
  · rw [if_neg hk, if_neg (fun hy => hk (h.mem_iff.mpr hy))]
    exact h.append_right [key]

theorem perm_keys_put_put (entries : Entries α) {a b : String} (h : a ≠ b) (v w : α) :
    (keys (put (put entries a v) b w)).Perm (keys (put (put entries b w) a v)) := by
  by_cases ha : a ∈ keys entries <;> by_cases hb : b ∈ keys entries <;>
    simp only [keys_put, ha, hb, h, h.symm, if_true, if_false, List.mem_append, List.mem_singleton,
      or_self, true_or, List.Perm.refl]
  rw [List.append_assoc, List.append_assoc]
  exact (List.Perm.swap b a []).append_left _

end Entries

/-! ### Values of a run -/

namespace Value

mutual
/-- Each key stands once in every object, and all numbers are integers of 64 bits or finite. -/
def WellFormed : Value → Prop
  | null => True
  | bool _ => True
  | number n => n.WellFormed
  | text _ => True
  | array items => ItemsWellFormed items
  | object fields => (Entries.keys fields).Nodup ∧ FieldsWellFormed fields
  | binary _ => True
  | file _ _ => True

def ItemsWellFormed : List Value → Prop
  | [] => True
  | v :: rest => v.WellFormed ∧ ItemsWellFormed rest

def FieldsWellFormed : List (String × Value) → Prop
  | [] => True
  | (_, v) :: rest => v.WellFormed ∧ FieldsWellFormed rest
end

theorem fieldsWellFormed_iff {fields : Entries Value} :
    FieldsWellFormed fields ↔ ∀ p ∈ fields, p.2.WellFormed := by
  induction fields with
  | nil => simp [FieldsWellFormed]
  | cons p rest ih =>
    obtain ⟨k, v⟩ := p
    rw [FieldsWellFormed, ih, List.forall_mem_cons]

theorem wellFormed_object_iff {fields : Entries Value} :
    (object fields).WellFormed ↔
      (Entries.keys fields).Nodup ∧ ∀ k v, Entries.find? fields k = some v → v.WellFormed := by
  rw [WellFormed, fieldsWellFormed_iff]
  refine and_congr_right fun hn => ⟨?_, ?_⟩
  · exact fun h k v hv => h (k, v) (Entries.mem_of_find? hv)
  · exact fun h p hp => h p.1 p.2 (Entries.find?_of_mem hn hp)

theorem WellFormed.put {fields : Entries Value} (h : (object fields).WellFormed) (key : String)
    {v : Value} (hv : v.WellFormed) : (object (Entries.put fields key v)).WellFormed := by
  rw [wellFormed_object_iff] at h ⊢
  refine ⟨Entries.nodup_keys_put h.1 key v, ?_⟩
  intro k w hw
  rw [Entries.find?_put] at hw
  split at hw
  · cases hw
    exact hv
  · exact h.2 k w hw

theorem wellFormed_empty : (object []).WellFormed := by
  rw [wellFormed_object_iff]
  exact ⟨List.nodup_nil, nofun⟩

theorem sameFields_iff {xs ys : Entries Value} :
    sameFields xs ys = true ↔
      ∀ p ∈ xs, ∃ y, Entries.find? ys p.1 = some y ∧ p.2.same y = true := by
  induction xs with
  | nil => simp [sameFields]
  | cons p rest ih =>
    obtain ⟨k, x⟩ := p
    rw [sameFields, Bool.and_eq_true, ih, List.forall_mem_cons]
    cases Entries.find? ys k <;> simp

mutual
theorem same_self (v : Value) (h : v.WellFormed) : v.same v = true := by
  match v with
  | null => rw [same]
  | bool b => rw [same, beq_self_eq_true]
  | number n =>
    rw [WellFormed] at h
    rw [same, Number.same_self h]
  | text s => rw [same, beq_self_eq_true]
  | array items =>
    rw [WellFormed] at h
    rw [same, sameItems_self items h]
  | object fields =>
    rw [WellFormed] at h
    rw [same, beq_self_eq_true, Bool.true_and, sameFields_iff]
    intro p hp
    exact ⟨p.2, Entries.find?_of_mem h.1 hp, same_self_of_mem fields h.2 p hp⟩
  | binary content => rw [same, beq_self_eq_true]
  | file name content => rw [same, beq_self_eq_true, beq_self_eq_true, Bool.and_true]

theorem sameItems_self (items : List Value) (h : ItemsWellFormed items) :
    sameItems items items = true := by
  match items with
  | [] => rw [sameItems]
  | v :: rest =>
    rw [ItemsWellFormed] at h
    rw [sameItems, same_self v h.1, sameItems_self rest h.2, Bool.and_true]

theorem same_self_of_mem (fields : List (String × Value)) (h : FieldsWellFormed fields) :
    ∀ p ∈ fields, p.2.same p.2 = true := by
  match fields with
  | [] => exact List.forall_mem_nil _
  | (key, v) :: rest =>
    rw [FieldsWellFormed] at h
    exact List.forall_mem_cons.mpr ⟨same_self v h.1, same_self_of_mem rest h.2⟩
end

/-! ### Alike values -/

/-- Equality up to the order in which objects have their keys. -/
inductive Alike : Value → Value → Prop
  | refl (v : Value) : Alike v v
  | object {xs ys : Entries Value} (keys : (Entries.keys xs).Perm (Entries.keys ys))
      (fields : ∀ k x y, Entries.find? xs k = some x → Entries.find? ys k = some y → Alike x y) :
      Alike (object xs) (object ys)

theorem alike_object_iff {xs ys : Entries Value} :
    Alike (object xs) (object ys) ↔
      (Entries.keys xs).Perm (Entries.keys ys) ∧
        ∀ k x y, Entries.find? xs k = some x → Entries.find? ys k = some y → Alike x y := by
  constructor
  · intro h
    cases h with
    | refl =>
      refine ⟨.refl _, fun k x y hx hy => ?_⟩
      rw [Option.some.inj (hx.symm.trans hy)]
      exact .refl y
    | object keys fields => exact ⟨keys, fields⟩
  · exact fun h => .object h.1 h.2

namespace Alike

theorem symm {v w : Value} (h : Alike v w) : Alike w v := by
  induction h with
  | refl v => exact .refl v
  | object keys _ ih => exact .object keys.symm fun k x y hx hy => ih k y x hy hx

theorem trans {u v w : Value} (h : Alike u v) (h' : Alike v w) : Alike u w := by
  induction h generalizing w with
  | refl v => exact h'
  | object keys fields ih =>
    cases h' with
    | refl => exact .object keys fields
    | object keys' fields' =>
      refine .object (keys.trans keys') fun k x z hx hz => ?_
      obtain ⟨y, hy⟩ := Entries.exists_find?_of_perm keys hx
      exact ih k x y hx hy (fields' k y z hy hz)

theorem put {xs ys : Entries Value} (h : Alike (.object xs) (.object ys)) (key : String)
    {v w : Value} (hv : Alike v w) :
    Alike (.object (Entries.put xs key v)) (.object (Entries.put ys key w)) := by
  rw [alike_object_iff] at h ⊢
  refine ⟨Entries.perm_keys_put h.1 key v w, fun k x y hx hy => ?_⟩
  rw [Entries.find?_put] at hx hy
  by_cases hk : k = key
  · rw [if_pos hk] at hx hy
    cases hx
    cases hy
    exact hv
  · rw [if_neg hk] at hx hy
    exact h.2 k x y hx hy

/-- Writes under different keys commute up to the order of the keys. -/
theorem put_put (fields : Entries Value) {a b : String} (h : a ≠ b) (v w : Value) :
    Alike (.object (Entries.put (Entries.put fields a v) b w))
      (.object (Entries.put (Entries.put fields b w) a v)) := by
  refine .object (Entries.perm_keys_put_put fields h v w) fun k x y hx hy => ?_
  have hfind : Entries.find? (Entries.put (Entries.put fields a v) b w) k =
      Entries.find? (Entries.put (Entries.put fields b w) a v) k := by
    simp only [Entries.find?_put]
    by_cases ha : k = a
    · rw [if_pos ha, if_neg (fun hb => h (ha.symm.trans hb)), if_pos ha]
    · rw [if_neg ha, if_neg ha]
  rw [hfind, hy] at hx
  cases hx
  exact .refl x

theorem same {v w : Value} (h : Alike v w) (hv : v.WellFormed) : v.same w = true := by
  induction h with
  | refl v => exact same_self v hv
  | @object xs ys keys fields ih =>
    rw [wellFormed_object_iff] at hv
    rw [Value.same, Bool.and_eq_true, sameFields_iff]
    refine ⟨beq_iff_eq.mpr (Entries.length_eq_of_perm keys), fun p hp => ?_⟩
    have hx := Entries.find?_of_mem hv.1 hp
    obtain ⟨y, hy⟩ := Entries.exists_find?_of_perm keys hx
    exact ⟨y, hy, ih p.1 p.2 y hx hy (hv.2 p.1 p.2 hx)⟩

end Alike

end Value

end ActionFlow
