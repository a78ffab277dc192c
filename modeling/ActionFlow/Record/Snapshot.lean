import ActionFlow.Record.Basic

/-!
# Snapshots of records

What a run makes known of a record to providers: a value with the fields of the record and of its
kind, without the records of nested actions.  Its size does not grow with what is nested.  Bytes and
files in it have become text, as everywhere in written records.
-/
namespace ActionFlow

/-- A value as it reads back from its JSON form. -/
def Value.written (v : Value) : Value := Value.ofJson v.toJson

def Value.orNull : Option Value → Value
  | some v => v
  | none => .null

def IterationItem.snapshot (i : IterationItem) : Value :=
  .object [("index", .integer i.index), ("item", i.item.written)]

def Detail.snapshotFields : Detail Record → Entries Value
  | .group parallel _ => [("kind", .text "group"), ("parallel", .bool parallel)]
  | .iterate progress _ =>
    [("kind", .text "iterate"),
      ("startIndex", .orNull (progress.startIndex.map .integer)),
      ("endIndex", .orNull (progress.endIndex.map .integer)),
      ("reverse", .bool progress.reverse),
      ("iterationsCompleted", .integer progress.completed),
      ("lastIteration", .orNull (progress.last.map IterationItem.snapshot)),
      ("currentIteration", .orNull (progress.current.map IterationItem.snapshot))]
  | .raiseError => [("kind", .text "raiseError")]
  | .setVariable write =>
    [("kind", .text "setVariable"),
      ("propertyName", .orNull (write.property.map .text)),
      ("path", .orNull (write.path.map .text)),
      ("value", .orNull (write.value.map Value.written))]
  | .external none => [("kind", .text "external")]
  | .external (some output) => [("kind", .text "external"), ("output", output.written)]

/-- What a run makes known of a record. -/
def Record.snapshot (r : Record) : Value :=
  .object <|
    [("name", .text r.name), ("alias", .text r.key), ("type", .text r.type),
      ("state", .text r.stage.name),
      ("startedTimestamp", .orNull (r.startedAt.map .text)),
      ("completedTimestamp", .orNull (r.completedAt.map .text)),
      ("error", .orNull (r.fault.map Fault.toValue)),
      ("succeeded", .bool r.succeeded)] ++
    r.detail.snapshotFields

theorem Record.snapshot_errorActions (r : Record) (records : List (String × Record)) :
    ({ r with errorActions := records } : Record).snapshot = r.snapshot := rfl

end ActionFlow
