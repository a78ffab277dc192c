import ActionFlow.Document.Size

/-!
# Values with distinct keys

Whatever a document says, what is read of it has each key once in every object.  Such a value, taken
for a document in its turn, reads as itself.
-/
namespace ActionFlow

namespace Json

/-- Each key stands once in every object, at every depth. -/
inductive KeysDistinct : Json → Prop
  | null : KeysDistinct .null
  | bool {value : Bool} : KeysDistinct (.bool value)
  | number {value : Number} : KeysDistinct (.number value)
  | text {value : String} : KeysDistinct (.text value)
  | array {items : List Json} (inside : ∀ j ∈ items, KeysDistinct j) : KeysDistinct (.array items)
  | object {fields : List (String × Json)} (keys : (Entries.keys fields).Nodup)
      (inside : ∀ field ∈ fields, KeysDistinct field.2) : KeysDistinct (.object fields)

/-- Fields that an object with distinct keys may have. -/
structure FieldsDistinct (fields : Entries Json) : Prop where
  keys : (Entries.keys fields).Nodup
  inside : ∀ field ∈ fields, field.2.KeysDistinct

theorem fieldsDistinct_nil : FieldsDistinct [] := ⟨List.nodup_nil, nofun⟩

theorem FieldsDistinct.put {fields : Entries Json} (h : FieldsDistinct fields) (key : String)
    {j : Json} (hj : j.KeysDistinct) : FieldsDistinct (Entries.put fields key j) where
  keys := Entries.nodup_keys_put h.keys key j
  inside := by
    intro field hf
    rcases Entries.mem_put hf with rfl | hf
    · exact hj
    · exact h.inside field hf

end Json

namespace Draft

open Json

/-! ### What is read -/

theorem keysDistinct_readScalar {s : String} {j : Json} (h : readScalar s = .ok j) :
    j.KeysDistinct := by
  unfold readScalar at h
  split at h <;> cases h <;> constructor

mutual
theorem keysDistinct_readAny {origin : Origin} {d : Draft} {j : Json}
    (h : d.readAny origin = .ok j) : j.KeysDistinct := by
  match d with
  | null | bool _ | number (some _) | text (.ok _) =>
    simp only [readAny, Except.ok.injEq] at h
    subst h
    constructor
  | plain s =>
    simp only [readAny] at h
    exact keysDistinct_readScalar h
  | number none | text (.error _) | broken _ =>
    simp only [readAny] at h
    cases h
  | array items stop =>
    simp only [readAny, bind_eq_ok_iff, Except.ok.injEq] at h
    obtain ⟨inner, _, values, hv, _, _, rfl⟩ := h
    exact .array (keysDistinct_readAnyItems hv)
  | object fields stop =>
    simp only [readAny, bind_eq_ok_iff, Except.ok.injEq] at h
    obtain ⟨inner, _, values, hv, _, _, rfl⟩ := h
    have hd := fieldsDistinct_readAnyFields fieldsDistinct_nil hv
    exact .object hd.keys hd.inside

theorem keysDistinct_readAnyItems {origin : Origin} {items : List Draft} {values : List Json}
    (h : readAnyItems origin items = .ok values) : ∀ j ∈ values, j.KeysDistinct := by
  match items with
  | [] =>
    simp only [readAnyItems, Except.ok.injEq] at h
    subst h
    exact nofun
  | d :: rest =>
    simp only [readAnyItems, bind_eq_ok_iff, Except.ok.injEq] at h
    obtain ⟨value, hd, values, hr, rfl⟩ := h
    exact List.forall_mem_cons.mpr ⟨keysDistinct_readAny hd, keysDistinct_readAnyItems hr⟩

theorem fieldsDistinct_readAnyFields {origin : Origin} {done : Entries Json}
    {fields : List (Draft × Draft)} {values : Entries Json} (hdone : FieldsDistinct done)
    (h : readAnyFields origin done fields = .ok values) : FieldsDistinct values := by
  match fields with
  | [] =>
    simp only [readAnyFields, Except.ok.injEq] at h
    exact h ▸ hdone
  | (key, d) :: rest =>
    simp only [readAnyFields, bind_eq_ok_iff] at h
    obtain ⟨name, _, value, hd, hr⟩ := h
    exact fieldsDistinct_readAnyFields (hdone.put name (keysDistinct_readAny hd)) hr
end

theorem keysDistinct_readSetting {origin : Origin} {d : Draft} {j : Json}
    (h : d.readSetting origin = .ok j) : j.KeysDistinct := by
  simp only [readSetting, bind_eq_ok_iff] at h
  obtain ⟨value, hd, h⟩ := h
  split at h
  · cases h
    exact keysDistinct_readAny hd
  · cases h

/-! ### Reading a value again -/

theorem readAnyItems_ofItems {items : List Json}
    (h : ∀ j ∈ items, (ofJson j).readAny .value = .ok j) :
    readAnyItems .value (ofItems items) = .ok items := by
  induction items with
  | nil => rfl
  | cons j rest ih =>
    obtain ⟨hj, hrest⟩ := List.forall_mem_cons.mp h
    simp only [ofItems, readAnyItems, bind_eq_ok_iff]
    exact ⟨j, hj, rest, ih hrest, rfl⟩

/-- Fields whose keys are all new go behind those that are read already. -/
theorem readAnyFields_ofFields {done fields : List (String × Json)}
    (hkeys : (Entries.keys (done ++ fields)).Nodup)
    (h : ∀ field ∈ fields, (ofJson field.2).readAny .value = .ok field.2) :
    readAnyFields .value done (ofFields fields) = .ok (done ++ fields) := by
  induction fields generalizing done with
  | nil => rw [ofFields, readAnyFields, List.append_nil]
  | cons field rest ih =>
    obtain ⟨key, j⟩ := field
    obtain ⟨hj, hrest⟩ := List.forall_mem_cons.mp h
    have hnew : key ∉ Entries.keys done := Entries.not_mem_keys_of_nodup_append hkeys
    have hput : Entries.put done key j = done ++ [(key, j)] := Entries.put_of_not_mem hnew j
    have happend : done ++ (key, j) :: rest = (done ++ [(key, j)]) ++ rest := by simp
    rw [happend] at hkeys ⊢
    simp only [ofFields, readAnyFields, bind_eq_ok_iff]
    refine ⟨key, rfl, j, hj, ?_⟩
    rw [hput]
    exact ih hkeys hrest

theorem readAny_ofJson {j : Json} (h : j.KeysDistinct) : (ofJson j).readAny .value = .ok j := by
  induction h with
  | null | bool | number | text => rfl
  | array inside ih =>
    simp only [ofJson, readAny, bind_eq_ok_iff]
    exact ⟨.value, rfl, _, readAnyItems_ofItems ih, (), rfl, rfl⟩
  | object keys inside ih =>
    simp only [ofJson, readAny, bind_eq_ok_iff]
    exact ⟨.value, rfl, _, readAnyFields_ofFields keys ih, (), rfl, rfl⟩

mutual
theorem keysAreTexts_ofJson : ∀ j : Json, keysAreTexts (ofJson j) = true
  | .null | .bool _ | .number _ | .text _ => rfl
  | .array items => by rw [ofJson, keysAreTexts, itemKeysAreTexts_ofItems items]
  | .object fields => by rw [ofJson, keysAreTexts, fieldKeysAreTexts_ofFields fields]

theorem itemKeysAreTexts_ofItems : ∀ items : List Json, itemKeysAreTexts (ofItems items) = true
  | [] => rfl
  | j :: rest => by
    rw [ofItems, itemKeysAreTexts, keysAreTexts_ofJson j, itemKeysAreTexts_ofItems rest,
      Bool.and_true]

theorem fieldKeysAreTexts_ofFields :
    ∀ fields : List (String × Json), fieldKeysAreTexts (ofFields fields) = true
  | [] => rfl
  | (key, j) :: rest => by
    simp only [ofFields, fieldKeysAreTexts, keysAreTexts_ofJson j, fieldKeysAreTexts_ofFields rest,
      Bool.and_true]
end

theorem readSetting_ofJson {j : Json} (h : j.KeysDistinct) :
    (ofJson j).readSetting .value = .ok j := by
  simp only [readSetting, bind_eq_ok_iff]
  refine ⟨j, readAny_ofJson h, ?_⟩
  rw [if_pos (keysAreTexts_ofJson j)]

/-- A list whose items read back is read back, whatever they are read as. -/
theorem readItems_map {α : Type} {read : Draft → Except ReadError α} {write : α → Json}
    {xs : List α} (h : ∀ x ∈ xs, read (ofJson (write x)) = .ok x) :
    readItems read (ofItems (xs.map write)) = .ok xs := by
  induction xs with
  | nil => rfl
  | cons x rest ih =>
    obtain ⟨hx, hrest⟩ := List.forall_mem_cons.mp h
    simp only [List.map_cons, ofItems, readItems, bind_eq_ok_iff]
    exact ⟨x, hx, rest, ih hrest, rfl⟩

end Draft

end ActionFlow
