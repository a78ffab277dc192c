/-!
# Entries in insertion order

Tables that remember the order in which their keys were first written.  Writing a key that is
already there replaces its value in place; a new key goes to the end.  The lemmas say what a write
does to the keys and to look-ups.
-/
namespace ActionFlow

/-- A table in insertion order. -/
abbrev Entries (α : Type) := List (String × α)

namespace Entries

variable {α : Type}

def keys (entries : Entries α) : List String := entries.map Prod.fst

def find? (entries : Entries α) (key : String) : Option α :=
  match entries with
  | [] => none
  | (k, v) :: rest => if k = key then some v else find? rest key

/-- Writes a value under a key: in place if the key is there, else at the end. -/
def put (entries : Entries α) (key : String) (value : α) : Entries α :=
  match entries with
  | [] => [(key, value)]
  | (k, v) :: rest => if k = key then (k, value) :: rest else (k, v) :: put rest key value

def has (entries : Entries α) (key : String) : Bool := (find? entries key).isSome

def ofPairs (pairs : List (String × α)) : Entries α :=
  pairs.foldl (fun entries pair => put entries pair.1 pair.2) []

def mapValues {β : Type} (f : α → β) (entries : Entries α) : Entries β :=
  entries.map fun (k, v) => (k, f v)

/-! ### Keys after a write -/

@[simp] theorem keys_nil : keys ([] : Entries α) = [] := rfl

@[simp] theorem keys_cons (k : String) (v : α) (rest : Entries α) :
    keys ((k, v) :: rest) = k :: keys rest := rfl

theorem keys_append (xs ys : Entries α) : keys (xs ++ ys) = keys xs ++ keys ys := by
  simp [keys]

theorem keys_put (entries : Entries α) (key : String) (value : α) :
    keys (put entries key value) =
      if key ∈ keys entries then keys entries else keys entries ++ [key] := by
  induction entries with
  | nil => simp [put]
  | cons pair rest ih =>
    obtain ⟨k, v⟩ := pair
    by_cases h : k = key
    · simp [put, h]
    · have h' : ¬ key = k := fun e => h e.symm
      by_cases hm : key ∈ keys rest <;> simp [put, h, h', ih, hm]

theorem mem_keys_put {entries : Entries α} {key other : String} {value : α} :
    other ∈ keys (put entries key value) ↔ other = key ∨ other ∈ keys entries := by
  rw [keys_put]
  by_cases h : key ∈ keys entries
  · simp only [h, if_true]
    constructor
    · exact Or.inr
    · rintro (rfl | h')
      · exact h
      · exact h'
  · simp only [h, if_false, List.mem_append, List.mem_singleton]
    exact or_comm

theorem nodup_keys_put {entries : Entries α} (h : (keys entries).Nodup) (key : String) (value : α) :
    (keys (put entries key value)).Nodup := by
  rw [keys_put]
  by_cases hm : key ∈ keys entries
  · simpa [hm] using h
  · simp only [hm, if_false]
    rw [List.nodup_append]
    refine ⟨h, by simp, ?_⟩
    intro a ha b hb e
    simp only [List.mem_singleton] at hb
    exact hm (hb ▸ e ▸ ha)

theorem not_mem_keys_of_nodup_append {xs ys : Entries α} {key : String} {value : α}
    (h : (keys (xs ++ (key, value) :: ys)).Nodup) : key ∉ keys xs := by
  rw [keys_append, keys_cons, List.nodup_append] at h
  exact fun hmem => h.2.2 key hmem key List.mem_cons_self rfl

theorem put_of_not_mem {entries : Entries α} {key : String} (h : key ∉ keys entries) (value : α) :
    put entries key value = entries ++ [(key, value)] := by
  induction entries with
  | nil => rfl
  | cons entry rest ih =>
    obtain ⟨k, v⟩ := entry
    simp only [keys_cons, List.mem_cons, not_or] at h
    have hk : ¬ k = key := fun e => h.1 e.symm
    simp only [put, hk, if_false, List.cons_append, ih h.2]

theorem not_mem_keys_concat {entries : Entries α} {key other : String} {value : α}
    (h : key ∉ keys entries) (hne : key ≠ other) : key ∉ keys (entries ++ [(other, value)]) := by
  rw [keys_append, List.mem_append]
  rintro (hmem | hmem)
  · exact h hmem
  · exact hne (by simpa using hmem)

/-- The keys that are there stay first and in their order. -/
theorem keys_prefix_put (entries : Entries α) (key : String) (value : α) :
    keys entries <+: keys (put entries key value) := by
  rw [keys_put]
  by_cases h : key ∈ keys entries
  · simp only [if_pos h, List.prefix_rfl]
  · simp only [if_neg h, List.prefix_append]

theorem mem_put {entries : Entries α} {key : String} {value : α} {p : String × α}
    (h : p ∈ put entries key value) : p = (key, value) ∨ p ∈ entries := by
  induction entries with
  | nil => exact .inl (List.mem_singleton.mp h)
  | cons entry rest ih =>
    obtain ⟨k, v⟩ := entry
    by_cases hk : k = key
    · rw [put, if_pos hk, hk, List.mem_cons] at h
      exact h.imp_right (List.mem_cons_of_mem _)
    · rw [put, if_neg hk, List.mem_cons] at h
      rcases h with rfl | h
      · exact .inr List.mem_cons_self
      · exact (ih h).imp_right (List.mem_cons_of_mem _)

/-! ### Look-ups after a write -/

@[simp] theorem find?_nil (key : String) : find? ([] : Entries α) key = none := rfl

theorem find?_eq_none_iff {entries : Entries α} {key : String} :
    find? entries key = none ↔ key ∉ keys entries := by
  induction entries with
  | nil => simp
  | cons pair rest ih =>
    obtain ⟨k, v⟩ := pair
    by_cases h : k = key
    · simp [find?, h]
    · have h' : ¬ key = k := fun e => h e.symm
      simp [find?, h, h', ih]

theorem find?_of_mem {entries : Entries α} (hn : (keys entries).Nodup) {p : String × α}
    (h : p ∈ entries) : find? entries p.1 = some p.2 := by
  induction entries with
  | nil => cases h
  | cons entry rest ih =>
    obtain ⟨k, v⟩ := entry
    rw [keys_cons, List.nodup_cons] at hn
    rcases List.mem_cons.mp h with rfl | h
    · simp [find?]
    · have hne : k ≠ p.1 := fun he => hn.1 (he ▸ List.mem_map_of_mem h)
      rw [find?, if_neg hne, ih hn.2 h]

theorem mem_of_find? {entries : Entries α} {key : String} {value : α}
    (h : find? entries key = some value) : (key, value) ∈ entries := by
  induction entries with
  | nil => cases h
  | cons entry rest ih =>
    obtain ⟨k, v⟩ := entry
    by_cases hk : k = key
    · rw [find?, if_pos hk] at h
      cases h
      rw [hk]
      exact List.mem_cons_self
    · rw [find?, if_neg hk] at h
      exact List.mem_cons_of_mem _ (ih h)

theorem find?_put_self (entries : Entries α) (key : String) (value : α) :
    find? (put entries key value) key = some value := by
  induction entries with
  | nil => simp [put, find?]
  | cons pair rest ih =>
    obtain ⟨k, v⟩ := pair
    by_cases h : k = key
    · simp [put, find?, h]
    · simp [put, find?, h, ih]

theorem find?_put_of_ne (entries : Entries α) {key other : String} (value : α) (h : other ≠ key) :
    find? (put entries key value) other = find? entries other := by
  induction entries with
  | nil =>
    have h' : ¬ key = other := fun e => h e.symm
    simp [put, find?, h']
  | cons pair rest ih =>
    obtain ⟨k, v⟩ := pair
    by_cases hk : k = key
    · have h' : ¬ k = other := fun e => h (e ▸ hk)
      have h'' : ¬ key = other := fun e => h e.symm
      simp [put, find?, hk, h'']
    · by_cases ho : k = other <;> simp [put, find?, hk, ho, ih, h]

theorem put_put (entries : Entries α) (key : String) (first second : α) :
    put (put entries key first) key second = put entries key second := by
  induction entries with
  | nil => simp [put]
  | cons pair rest ih =>
    obtain ⟨k, v⟩ := pair
    by_cases h : k = key
    · simp [put, h]
    · simp [put, h, ih]

theorem put_self {entries : Entries α} {key : String} {value : α}
    (h : find? entries key = some value) : put entries key value = entries := by
  induction entries with
  | nil => cases h
  | cons entry rest ih =>
    obtain ⟨k, v⟩ := entry
    by_cases hk : k = key
    · rw [find?, if_pos hk] at h
      cases h
      rw [put, if_pos hk]
    · rw [find?, if_neg hk] at h
      rw [put, if_neg hk, ih h]

theorem keys_mapValues {β : Type} (f : α → β) (entries : Entries α) :
    keys (mapValues f entries) = keys entries := by
  simp [keys, mapValues]

theorem find?_mapValues {β : Type} (f : α → β) (entries : Entries α) (key : String) :
    find? (mapValues f entries) key = (find? entries key).map f := by
  induction entries with
  | nil => rfl
  | cons pair rest ih =>
    obtain ⟨k, v⟩ := pair
    by_cases h : k = key
    · simp [mapValues, find?, h]
    · simpa [mapValues, find?, h] using ih

end Entries

end ActionFlow
