import ActionFlow.Record.Json
import ActionFlow.Record.Snapshot

/-!
# Snapshots and written records

The written form of a record and its snapshot are put together apart from each other.  Read back,
the written form is the snapshot with the records of other actions put in: taking those fields out
gives the snapshot, whatever the kind of the action and whatever the record holds.
-/
namespace ActionFlow

/-! ### Tables without some keys -/

namespace Entries

variable {α : Type}

/-- What is left of a table without the entries under the keys. -/
def without (removed : List String) (entries : Entries α) : Entries α :=
  entries.filter fun entry => entry.1 ∉ removed

theorem without_append (removed : List String) (xs ys : Entries α) :
    without removed (xs ++ ys) = without removed xs ++ without removed ys :=
  List.filter_append xs ys

theorem without_eq_self {removed : List String} {entries : Entries α}
    (h : ∀ key ∈ keys entries, key ∉ removed) : without removed entries = entries := by
  refine List.filter_eq_self.mpr fun entry hentry => ?_
  exact decide_eq_true (h entry.1 (List.mem_map_of_mem hentry))

theorem without_eq_nil {removed : List String} {entries : Entries α}
    (h : ∀ key ∈ keys entries, key ∈ removed) : without removed entries = [] := by
  refine List.filter_eq_nil_iff.mpr fun entry hentry => ?_
  rw [decide_eq_true_eq, Decidable.not_not]
  exact h entry.1 (List.mem_map_of_mem hentry)

end Entries

/-! ### Reading back -/

namespace Value

theorem ofJson_orNull (o : Option Json) : ofJson (.orNull o) = orNull (o.map ofJson) := by
  cases o with
  | none => rfl
  | some j => rfl

theorem ofJsonFields_append (xs ys : List (String × Json)) :
    ofJsonFields (xs ++ ys) = ofJsonFields xs ++ ofJsonFields ys := by
  induction xs with
  | nil => rfl
  | cons field rest ih =>
    obtain ⟨key, j⟩ := field
    rw [List.cons_append, ofJsonFields, ofJsonFields, ih, List.cons_append]

theorem keys_ofJsonFields (fields : List (String × Json)) :
    Entries.keys (ofJsonFields fields) = Entries.keys fields := by
  induction fields with
  | nil => rfl
  | cons field rest ih =>
    obtain ⟨key, j⟩ := field
    rw [ofJsonFields, Entries.keys_cons, Entries.keys_cons, ih]

end Value

/-! ### Written records, part by part -/

/-- The written fields of a detail that tell of the action itself. -/
def Detail.ownFields : Detail Record → List (String × Json)
  | .group parallel _ => [("kind", .text "group"), ("parallel", .bool parallel)]
  | .iterate progress _ => ("kind", .text "iterate") :: progress.fields
  | .raiseError => [("kind", .text "raiseError")]
  | .setVariable write => ("kind", .text "setVariable") :: write.fields
  | .external output => ("kind", .text "external") :: outputField output

/-- The written field of a detail with the records of the actions inside. -/
def Detail.insideFields : Detail Record → List (String × Json)
  | .group _ children => [("children", .object (Record.toJsonFields children))]
  | .iterate _ iterations => [("iterations", .array (Record.iterationItems iterations))]
  | .raiseError | .setVariable _ | .external _ => []

/-- The detail of the same kind with other records inside. -/
def Detail.holding (children : List (String × Record)) (iterations : List (Iteration Record)) :
    Detail Record → Detail Record
  | .group parallel _ => .group parallel children
  | .iterate progress _ => .iterate progress iterations
  | .raiseError => .raiseError
  | .setVariable write => .setVariable write
  | .external output => .external output

namespace Record

/-- The keys under which a written record has records of other actions. -/
def nestedKeys : List String := ["errorActions", "children", "iterations"]

/-- The written fields that the records of all kinds have. -/
def sharedFields (r : Record) : List (String × Json) :=
  [("name", .text r.name), ("alias", .text r.key), ("type", .text r.type),
    ("state", .text r.stage.name),
    ("startedTimestamp", .orNull (r.startedAt.map .text)),
    ("completedTimestamp", .orNull (r.completedAt.map .text)),
    ("error", .orNull (r.fault.map Fault.toJson)), ("succeeded", .bool r.succeeded)]

theorem detailFields_eq (d : Detail Record) : detailFields d = d.ownFields ++ d.insideFields := by
  cases d with
  | group | iterate | raiseError =>
    rw [detailFields]
    rfl
  | setVariable | external =>
    rw [detailFields, Detail.insideFields, List.append_nil]
    rfl

/-- The fields of the written form, in their order. -/
def writtenFields (r : Record) : List (String × Json) :=
  r.sharedFields ++ errorActionsField (toJsonFields r.errorActions) ++
    (r.detail.ownFields ++ r.detail.insideFields)

theorem toJson_eq (r : Record) : r.toJson = .object r.writtenFields := by
  rw [writtenFields, ← detailFields_eq]
  cases r
  rw [toJson]
  rfl

theorem ofJsonFields_sharedFields (r : Record) :
    Value.ofJsonFields r.sharedFields =
      [("name", .text r.name), ("alias", .text r.key), ("type", .text r.type),
        ("state", .text r.stage.name),
        ("startedTimestamp", .orNull (r.startedAt.map .text)),
        ("completedTimestamp", .orNull (r.completedAt.map .text)),
        ("error", .orNull (r.fault.map Fault.toValue)), ("succeeded", .bool r.succeeded)] := by
  simp only [sharedFields, Value.ofJsonFields, Value.ofJson_orNull, Option.map_map]
  rfl

theorem ofJsonFields_ownFields (d : Detail Record) :
    Value.ofJsonFields d.ownFields = d.snapshotFields := by
  cases d with
  | group parallel children => rfl
  | iterate progress iterations =>
    have hitem : Value.ofJson ∘ IterationItem.toJson = IterationItem.snapshot := rfl
    simp only [Detail.ownFields, Progress.fields, Value.ofJsonFields, Value.ofJson_orNull,
      Option.map_map, hitem]
    rfl
  | raiseError => rfl
  | setVariable write =>
    simp only [Detail.ownFields, Write.fields, Value.ofJsonFields, Value.ofJson_orNull,
      Option.map_map]
    rfl
  | external output =>
    cases output with
    | none => rfl
    | some v => rfl

theorem snapshot_eq (r : Record) :
    r.snapshot =
      .object (Value.ofJsonFields r.sharedFields ++ Value.ofJsonFields r.detail.ownFields) := by
  rw [ofJsonFields_sharedFields, ofJsonFields_ownFields, snapshot]

/-! ### Keys of written records -/

theorem not_nested_of_mem_sharedFields (r : Record) :
    ∀ key ∈ Entries.keys r.sharedFields, key ∉ nestedKeys := by
  simp [sharedFields, nestedKeys, Entries.keys]

theorem not_nested_of_mem_ownFields (d : Detail Record) :
    ∀ key ∈ Entries.keys d.ownFields, key ∉ nestedKeys := by
  cases d with
  | group parallel children => simp [Detail.ownFields, nestedKeys, Entries.keys]
  | iterate progress iterations =>
    simp [Detail.ownFields, Progress.fields, nestedKeys, Entries.keys]
  | raiseError => simp [Detail.ownFields, nestedKeys, Entries.keys]
  | setVariable write => simp [Detail.ownFields, Write.fields, nestedKeys, Entries.keys]
  | external output =>
    cases output <;> simp [Detail.ownFields, outputField, nestedKeys, Entries.keys]

theorem mem_keys_errorActionsField {key : String} {records : List (String × Record)} :
    key ∈ Entries.keys (errorActionsField (toJsonFields records)) ↔
      key = "errorActions" ∧ records ≠ [] := by
  cases records with
  | nil => simp [toJsonFields, errorActionsField]
  | cons record rest => simp [toJsonFields, errorActionsField]

theorem mem_keys_insideFields {key : String} {d : Detail Record} :
    key ∈ Entries.keys d.insideFields ↔
      (key = "children" ∧ ∃ parallel children, d = .group parallel children) ∨
        (key = "iterations" ∧ ∃ progress iterations, d = .iterate progress iterations) := by
  cases d <;> simp [Detail.insideFields]

theorem mem_keys_writtenFields {key : String} {r : Record} (hkey : key ∈ nestedKeys) :
    key ∈ Entries.keys r.writtenFields ↔
      (key = "errorActions" ∧ r.errorActions ≠ []) ∨ key ∈ Entries.keys r.detail.insideFields := by
  have hshared : key ∉ Entries.keys r.sharedFields := fun hmem =>
    not_nested_of_mem_sharedFields r key hmem hkey
  have hown : key ∉ Entries.keys r.detail.ownFields := fun hmem =>
    not_nested_of_mem_ownFields r.detail key hmem hkey
  simp only [writtenFields, Entries.keys_append, List.mem_append, hshared, hown, false_or,
    mem_keys_errorActionsField]

theorem nodup_keys_writtenFields (r : Record) : (Entries.keys r.writtenFields).Nodup := by
  unfold writtenFields
  cases r.errorActions <;> cases r.detail with
  | external output =>
    cases output <;> simp [sharedFields, toJsonFields, errorActionsField, Detail.ownFields,
      outputField, Detail.insideFields, Entries.keys]
  | _ => simp [sharedFields, toJsonFields, errorActionsField, Detail.ownFields, Progress.fields,
      Write.fields, Detail.insideFields, Entries.keys]

/-! ### Taking the nested records out -/

theorem without_errorActionsField (records : List (String × Record)) :
    Entries.without nestedKeys (Value.ofJsonFields (errorActionsField (toJsonFields records))) =
      [] := by
  refine Entries.without_eq_nil fun key hkey => ?_
  rw [Value.keys_ofJsonFields, mem_keys_errorActionsField] at hkey
  rw [hkey.1]
  decide

theorem without_insideFields (d : Detail Record) :
    Entries.without nestedKeys (Value.ofJsonFields d.insideFields) = [] := by
  refine Entries.without_eq_nil fun key hkey => ?_
  rw [Value.keys_ofJsonFields, mem_keys_insideFields] at hkey
  rcases hkey with ⟨rfl, -⟩ | ⟨rfl, -⟩ <;> decide

theorem without_writtenFields (r : Record) :
    Entries.without nestedKeys (Value.ofJsonFields r.writtenFields) =
      Value.ofJsonFields r.sharedFields ++ Value.ofJsonFields r.detail.ownFields := by
  have hshared : Entries.without nestedKeys (Value.ofJsonFields r.sharedFields) =
      Value.ofJsonFields r.sharedFields := by
    refine Entries.without_eq_self ?_
    rw [Value.keys_ofJsonFields]
    exact not_nested_of_mem_sharedFields r
  have hown : Entries.without nestedKeys (Value.ofJsonFields r.detail.ownFields) =
      Value.ofJsonFields r.detail.ownFields := by
    refine Entries.without_eq_self ?_
    rw [Value.keys_ofJsonFields]
    exact not_nested_of_mem_ownFields r.detail
  simp only [writtenFields, Value.ofJsonFields_append, Entries.without_append, hshared, hown,
    without_errorActionsField, without_insideFields, List.append_nil]

theorem snapshot_holding (r : Record) (errorActions children : List (String × Record))
    (iterations : List (Iteration Record)) :
    ({ r with errorActions := errorActions, detail := r.detail.holding children iterations } :
      Record).snapshot = r.snapshot := by
  have hown : (r.detail.holding children iterations).ownFields = r.detail.ownFields := by
    cases r.detail <;> rfl
  rw [snapshot_eq, snapshot_eq, hown]
  rfl

/-- The snapshot of a record is its written form, read back, without the records of other actions:
the error actions, which are written if there are any, the children of a group and the iterations of
an iteration.  So it is the same whatever is recorded there. -/
theorem snapshot_eq_written (r : Record) :
    ∃ fields : Entries Value, Value.ofJson r.toJson = .object fields ∧
      (Entries.keys fields).Nodup ∧
      r.snapshot = .object (Entries.without nestedKeys fields) ∧
      ("errorActions" ∈ Entries.keys fields ↔ r.errorActions ≠ []) ∧
      ("children" ∈ Entries.keys fields ↔
        ∃ parallel children, r.detail = .group parallel children) ∧
      ("iterations" ∈ Entries.keys fields ↔
        ∃ progress iterations, r.detail = .iterate progress iterations) ∧
      ∀ errorActions children iterations,
        ({ r with errorActions := errorActions, detail := r.detail.holding children iterations } :
          Record).snapshot = r.snapshot := by
  have hread : Value.ofJson r.toJson = .object (Value.ofJsonFields r.writtenFields) := by
    rw [toJson_eq, Value.ofJson]
  have hsnapshot : r.snapshot =
      .object (Entries.without nestedKeys (Value.ofJsonFields r.writtenFields)) := by
    rw [without_writtenFields, snapshot_eq]
  have hpresent : ∀ key ∈ nestedKeys,
      (key ∈ Entries.keys (Value.ofJsonFields r.writtenFields) ↔
        (key = "errorActions" ∧ r.errorActions ≠ []) ∨
          key ∈ Entries.keys r.detail.insideFields) := by
    intro key hkey
    rw [Value.keys_ofJsonFields, mem_keys_writtenFields hkey]
  refine ⟨_, hread, ?_, hsnapshot, ?_, ?_, ?_, snapshot_holding r⟩
  · rw [Value.keys_ofJsonFields]
    exact nodup_keys_writtenFields r
  · rw [hpresent _ (by decide), mem_keys_insideFields]
    simp
  · rw [hpresent _ (by decide), mem_keys_insideFields]
    simp
  · rw [hpresent _ (by decide), mem_keys_insideFields]
    simp

end Record

end ActionFlow
