import ActionFlow.Document.Shape

/-!
# Sizes of drafts

A value that is read from a draft is not larger than the draft.  This bounds how deep a document
can be taken apart, and so makes what is built from one finite.
-/
namespace ActionFlow

theorem bind_eq_ok_iff {ε α β : Type} {x : Except ε α} {f : α → Except ε β} {b : β} :
    (x >>= f) = .ok b ↔ ∃ a, x = .ok a ∧ f a = .ok b := by
  cases x with
  | error e =>
    constructor
    · intro h
      cases h
    · rintro ⟨a, h, _⟩
      cases h
  | ok a =>
    constructor
    · intro h
      exact ⟨a, rfl, h⟩
    · rintro ⟨a', h, h'⟩
      cases h
      exact h'

theorem map_eq_ok_iff {ε α β : Type} {x : Except ε α} {f : α → β} {b : β} :
    x.map f = .ok b ↔ ∃ a, x = .ok a ∧ f a = b := by
  cases x <;> simp [Except.map]

theorem mapError_eq_ok_iff {ε ε' α : Type} {x : Except ε α} {f : ε → ε'} {a : α} :
    x.mapError f = .ok a ↔ x = .ok a := by
  cases x with
  | error e =>
    have he : (Except.error e : Except ε α).mapError f = .error (f e) := rfl
    simp only [he, reduceCtorEq]
  | ok b =>
    have hb : (Except.ok b : Except ε α).mapError f = .ok b := rfl
    simp only [hb, Except.ok.injEq]

theorem Json.sizeFields_put_le (fields : Entries Json) (key : String) (j : Json) :
    sizeFields (Entries.put fields key j) ≤ sizeFields fields + j.size := by
  induction fields with
  | nil => simp [Entries.put, sizeFields]
  | cons pair rest ih =>
    obtain ⟨k, v⟩ := pair
    by_cases h : k = key
    · simp only [Entries.put, h, if_true, sizeFields]
      omega
    · simp only [Entries.put, h, if_false, sizeFields]
      omega

namespace Draft

mutual
/-- A measure of a draft that counts its values, like the size of a JSON value. -/
def size : Draft → Nat
  | array items _ => 1 + sizeItems items
  | object fields _ => 1 + sizeFields fields
  | _ => 1

def sizeItems : List Draft → Nat
  | [] => 0
  | d :: rest => size d + sizeItems rest

def sizeFields : List (Draft × Draft) → Nat
  | [] => 0
  | (_, d) :: rest => size d + sizeFields rest
end

mutual
theorem size_ofJson : ∀ j : Json, (ofJson j).size = j.size
  | .null | .bool _ | .number _ | .text _ => rfl
  | .array items => by simp only [ofJson, size, Json.size, sizeItems_ofItems items]
  | .object fields => by simp only [ofJson, size, Json.size, sizeFields_ofFields fields]

theorem sizeItems_ofItems : ∀ items : List Json, sizeItems (ofItems items) = Json.sizeItems items
  | [] => rfl
  | j :: rest => by
    simp only [ofItems, sizeItems, Json.sizeItems, size_ofJson j, sizeItems_ofItems rest]

theorem sizeFields_ofFields :
    ∀ fields : List (String × Json), sizeFields (ofFields fields) = Json.sizeFields fields
  | [] => rfl
  | (key, j) :: rest => by
    simp only [ofFields, sizeFields, Json.sizeFields, size_ofJson j, sizeFields_ofFields rest]
end

theorem size_pos (d : Draft) : 0 < d.size := by
  cases d <;> simp only [size] <;> omega

theorem size_readScalar {s : String} {j : Json} (h : readScalar s = .ok j) : j.size = 1 := by
  simp only [readScalar] at h
  split at h <;> first
    | cases h; rfl
    | cases h

mutual
theorem size_readAny_le {origin : Origin} {d : Draft} {j : Json} (h : d.readAny origin = .ok j) :
    j.size ≤ d.size := by
  match d with
  | null | bool _ | number (some _) | text (.ok _) =>
    simp only [readAny, Except.ok.injEq] at h
    subst h
    simp [Json.size, size]
  | plain s =>
    simp only [readAny] at h
    simp [size_readScalar h, size]
  | number none | text (.error _) | broken _ =>
    simp only [readAny] at h
    cases h
  | array items stop =>
    simp only [readAny, bind_eq_ok_iff, Except.ok.injEq] at h
    obtain ⟨inner, _, values, hv, _, _, rfl⟩ := h
    have := sizeItems_readAnyItems_le hv
    simp only [Json.size, size]
    omega
  | object fields stop =>
    simp only [readAny, bind_eq_ok_iff, Except.ok.injEq] at h
    obtain ⟨inner, _, values, hv, _, _, rfl⟩ := h
    have := sizeFields_readAnyFields_le hv
    simp only [Json.sizeFields] at this
    simp only [Json.size, size]
    omega

theorem sizeItems_readAnyItems_le {origin : Origin} {items : List Draft} {values : List Json}
    (h : readAnyItems origin items = .ok values) : Json.sizeItems values ≤ sizeItems items := by
  match items with
  | [] =>
    simp only [readAnyItems, Except.ok.injEq] at h
    subst h
    simp [Json.sizeItems]
  | d :: rest =>
    simp only [readAnyItems, bind_eq_ok_iff, Except.ok.injEq] at h
    obtain ⟨value, hd, values, hr, rfl⟩ := h
    have := size_readAny_le hd
    have := sizeItems_readAnyItems_le hr
    simp only [Json.sizeItems, sizeItems]
    omega

theorem sizeFields_readAnyFields_le {origin : Origin} {done : Entries Json}
    {fields : List (Draft × Draft)} {values : Entries Json}
    (h : readAnyFields origin done fields = .ok values) :
    Json.sizeFields values ≤ Json.sizeFields done + sizeFields fields := by
  match fields with
  | [] =>
    simp only [readAnyFields, Except.ok.injEq] at h
    subst h
    simp [sizeFields]
  | (key, d) :: rest =>
    simp only [readAnyFields, bind_eq_ok_iff] at h
    obtain ⟨name, _, value, hd, hr⟩ := h
    have := size_readAny_le hd
    have := sizeFields_readAnyFields_le hr
    have := Json.sizeFields_put_le done name value
    simp only [sizeFields]
    omega
end

theorem size_readSetting_le {origin : Origin} {d : Draft} {j : Json}
    (h : d.readSetting origin = .ok j) : j.size ≤ d.size := by
  simp only [readSetting, bind_eq_ok_iff] at h
  obtain ⟨value, hd, h⟩ := h
  split at h
  · cases h
    exact size_readAny_le hd
  · cases h

end Draft

end ActionFlow
