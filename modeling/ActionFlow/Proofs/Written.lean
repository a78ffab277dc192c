import ActionFlow.Record.Snapshot

/-!
# Values in snapshots

A snapshot shows a value as it reads back from its JSON form.  That is the value itself unless there
are bytes or files in it, which become text.
-/
namespace ActionFlow.Value

mutual
def isPlain : Value → Bool
  | null => true
  | bool _ => true
  | number _ => true
  | text _ => true
  | array items => allPlain items
  | object fields => fieldsPlain fields
  | binary _ => false
  | file _ _ => false

def allPlain : List Value → Bool
  | [] => true
  | v :: rest => isPlain v && allPlain rest

def fieldsPlain : List (String × Value) → Bool
  | [] => true
  | (_, v) :: rest => isPlain v && fieldsPlain rest
end

mutual
theorem isPlain_ofJson (j : Json) : (ofJson j).isPlain = true := by
  match j with
  | .null => rw [ofJson, isPlain]
  | .bool b => rw [ofJson, isPlain]
  | .number n => rw [ofJson, isPlain]
  | .text s => rw [ofJson, isPlain]
  | .array items =>
    rw [ofJson, isPlain]
    exact allPlain_ofJsonItems items
  | .object fields =>
    rw [ofJson, isPlain]
    exact fieldsPlain_ofJsonFields fields

theorem allPlain_ofJsonItems (items : List Json) : allPlain (ofJsonItems items) = true := by
  match items with
  | [] => rw [ofJsonItems, allPlain]
  | j :: rest =>
    rw [ofJsonItems, allPlain, isPlain_ofJson j, allPlain_ofJsonItems rest]
    rfl

theorem fieldsPlain_ofJsonFields (fields : List (String × Json)) :
    fieldsPlain (ofJsonFields fields) = true := by
  match fields with
  | [] => rw [ofJsonFields, fieldsPlain]
  | (key, j) :: rest =>
    rw [ofJsonFields, fieldsPlain, isPlain_ofJson j, fieldsPlain_ofJsonFields rest]
    rfl
end

mutual
theorem ofJson_toJson (v : Value) (h : v.isPlain = true) : ofJson v.toJson = v := by
  match v with
  | null => rw [toJson, ofJson]
  | bool b => rw [toJson, ofJson]
  | number n => rw [toJson, ofJson]
  | text s => rw [toJson, ofJson]
  | array items =>
    rw [isPlain] at h
    rw [toJson, ofJson, ofJsonItems_toJsonItems items h]
  | object fields =>
    rw [isPlain] at h
    rw [toJson, ofJson, ofJsonFields_toJsonFields fields h]
  | binary content =>
    rw [isPlain] at h
    cases h
  | file name content =>
    rw [isPlain] at h
    cases h

theorem ofJsonItems_toJsonItems (items : List Value) (h : allPlain items = true) :
    ofJsonItems (toJsonItems items) = items := by
  match items with
  | [] => rw [toJsonItems, ofJsonItems]
  | v :: rest =>
    rw [allPlain, Bool.and_eq_true] at h
    rw [toJsonItems, ofJsonItems, ofJson_toJson v h.1, ofJsonItems_toJsonItems rest h.2]

theorem ofJsonFields_toJsonFields (fields : List (String × Value)) (h : fieldsPlain fields = true) :
    ofJsonFields (toJsonFields fields) = fields := by
  match fields with
  | [] => rw [toJsonFields, ofJsonFields]
  | (key, v) :: rest =>
    rw [fieldsPlain, Bool.and_eq_true] at h
    rw [toJsonFields, ofJsonFields, ofJson_toJson v h.1, ofJsonFields_toJsonFields rest h.2]
end

/-- A snapshot shows a value as it is exactly if there are neither bytes nor files in it. -/
theorem written_eq_self_iff (v : Value) : v.written = v ↔ v.isPlain = true := by
  constructor
  · intro h
    rw [← h]
    exact isPlain_ofJson _
  · exact ofJson_toJson v

end ActionFlow.Value
