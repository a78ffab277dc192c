import ActionFlow.Record.Snapshot
import ActionFlow.Value.Lookup

/-!
# Values and their JSON form

Looking into a value and taking its JSON form can be done in either order: the fields that a file
shows are the fields of its JSON form, and bytes have no parts, as the text that stands for them.
What a value writes in a format is what its JSON form writes there.
-/
namespace ActionFlow

namespace Json

mutual
theorem encode_json (j : Json) : j.encode .json = j := by
  match j with
  | .null | .bool _ | .number _ | .text _ => rfl
  | .array items =>
    rw [encode, encodeItems_json items]
    rfl
  | .object fields =>
    rw [encode, encodeFields_json fields]
    rfl

theorem encodeItems_json (items : List Json) : encodeItems .json items = items := by
  match items with
  | [] => rfl
  | j :: rest => rw [encodeItems, encode_json j, encodeItems_json rest]

theorem encodeFields_json (fields : List (String × Json)) :
    encodeFields .json fields = fields := by
  match fields with
  | [] => rfl
  | (key, j) :: rest => rw [encodeFields, encode_json j, encodeFields_json rest]
end

mutual
theorem encode_compact (j : Json) : j.encode .compact = j.compact := by
  match j with
  | .null | .bool _ | .number _ | .text _ => rfl
  | .array items =>
    rw [compact, ← encodeItems_compact items]
    rfl
  | .object fields =>
    rw [compact, ← encodeFields_compact fields]
    rfl

theorem encodeItems_compact (items : List Json) :
    Encoder.commaSeparated (encodeItems .compact items) = compactItems items := by
  match items with
  | [] => rfl
  | [j] =>
    rw [compactItems, ← encode_compact j]
    rfl
  | j :: k :: rest =>
    rw [compactItems, ← encode_compact j, ← encodeItems_compact (k :: rest)]
    · rfl
    · nofun

theorem encodeFields_compact (fields : List (String × Json)) :
    Encoder.commaSeparated ((encodeFields .compact fields).map Encoder.compactField) =
      compactFields fields := by
  match fields with
  | [] => rfl
  | [(key, j)] =>
    rw [compactFields, ← encode_compact j]
    rfl
  | (key, j) :: field :: rest =>
    rw [compactFields, ← encode_compact j, ← encodeFields_compact (field :: rest)]
    · rfl
    · nofun
end

end Json

namespace Value

/-! ### Formats -/

variable {α : Type} (e : Encoder α)

mutual
theorem encode_toJson (v : Value) : v.toJson.encode e = v.encode e := by
  match v with
  | null | bool _ | number _ | text _ | binary _ | file _ _ => rfl
  | array items => rw [toJson, Json.encode, encodeItems_toJsonItems items, encode]
  | object fields => rw [toJson, Json.encode, encodeFields_toJsonFields fields, encode]

theorem encodeItems_toJsonItems (items : List Value) :
    Json.encodeItems e (toJsonItems items) = encodeItems e items := by
  match items with
  | [] => rfl
  | v :: rest =>
    rw [toJsonItems, Json.encodeItems, encode_toJson v, encodeItems_toJsonItems rest, encodeItems]

theorem encodeFields_toJsonFields (fields : List (String × Value)) :
    Json.encodeFields e (toJsonFields fields) = encodeFields e fields := by
  match fields with
  | [] => rfl
  | (key, v) :: rest =>
    rw [toJsonFields, Json.encodeFields, encode_toJson v, encodeFields_toJsonFields rest,
      encodeFields]
end

/-! ### Look-ups -/

theorem toJson_written (v : Value) : v.written.toJson = v.toJson := toJson_ofJson v.toJson

theorem getElem?_written (items : List Value) (i : Nat) :
    (ofJsonItems (toJsonItems items))[i]? = items[i]?.map written := by
  induction items generalizing i with
  | nil => rfl
  | cons v rest ih =>
    rw [toJsonItems, ofJsonItems]
    cases i with
    | zero => rfl
    | succ i => rw [List.getElem?_cons_succ, List.getElem?_cons_succ, ih]

theorem find?_written (fields : List (String × Value)) (key : String) :
    Entries.find? (ofJsonFields (toJsonFields fields)) key =
      (Entries.find? fields key).map written := by
  induction fields with
  | nil => rfl
  | cons field rest ih =>
    obtain ⟨k, v⟩ := field
    rw [toJsonFields, ofJsonFields, Entries.find?, Entries.find?]
    split
    · rfl
    · exact ih

theorem child?_written (v : Value) (segment : String) :
    v.written.child? segment = (v.child? segment).map written := by
  cases v with
  | null | bool _ | number _ | text _ | binary _ => rfl
  | array items =>
    show (Decimal.readIndex? segment).bind (fun i => (ofJsonItems (toJsonItems items))[i]?) =
      ((Decimal.readIndex? segment).bind fun i => items[i]?).map written
    cases Decimal.readIndex? segment with
    | none => rfl
    | some i => exact getElem?_written items i
  | object fields => exact find?_written fields segment
  | file name content =>
    show Entries.find? [("fileName", text name), ("content", text (Text.Base64.encode content))]
      segment = (fileField? name content segment).map written
    simp only [Entries.find?, fileField?, eq_comm (b := segment)]
    split
    · rfl
    · split <;> rfl

theorem lookup_written (v : Value) (segments : List String) :
    v.written.lookup segments = (v.lookup segments).map written := by
  induction segments generalizing v with
  | nil => rw [lookup_nil, lookup_nil, Option.map_some]
  | cons segment rest ih =>
    rw [lookup_cons, lookup_cons, child?_written]
    cases v.child? segment with
    | none => rfl
    | some part => exact ih part

/-- Segments lead somewhere in a value exactly if they do in its JSON form, and what they lead to
has one JSON form.  In every format, and so as JSON and as text, a value writes what its JSON form
writes; and a JSON value is the JSON form of what it is read as. -/
theorem lookup_toJson :
    (∀ (v : Value) (segments : List String),
      ((v.lookup segments).isSome ↔ ((ofJson v.toJson).lookup segments).isSome) ∧
        (v.lookup segments).map toJson = ((ofJson v.toJson).lookup segments).map toJson) ∧
    (∀ v : Value, (∀ {α : Type} (e : Encoder α), v.encode e = v.toJson.encode e) ∧
      v.encode .json = v.toJson ∧ v.compact = v.toJson.compact) ∧
    ∀ j : Json, (ofJson j).toJson = j := by
  refine ⟨fun v segments => ?_, fun v => ⟨fun e => (encode_toJson e v).symm, ?_, ?_⟩, toJson_ofJson⟩
  · have hlookup : (ofJson v.toJson).lookup segments = (v.lookup segments).map written :=
      lookup_written v segments
    have hforms : toJson ∘ written = toJson := funext toJson_written
    rw [hlookup, Option.isSome_map, Option.map_map, hforms]
    exact ⟨Iff.rfl, rfl⟩
  · rw [← encode_toJson, Json.encode_json]
  · rw [compact, ← encode_toJson, Json.encode_compact]

/-- A file in a list: its content is bytes in the value and a text in the JSON form. -/
example : (array [file "a.txt" [104, 105]]).lookup ["0", "content"] = some (binary [104, 105]) ∧
    (ofJson (array [file "a.txt" [104, 105]]).toJson).lookup ["0", "content"] =
      some (text "aGk=") := by
  cbv

end Value

end ActionFlow
