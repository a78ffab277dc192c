import ActionFlow.Record.Basic

/-!
# Records as JSON

The written form of a record: the fields that all records share, then the fields of its kind.  Error
actions are written only if there are any.
-/
namespace ActionFlow

def IterationItem.toJson (i : IterationItem) : Json :=
  .object [("index", .integer i.index), ("item", i.item.toJson)]

def Progress.fields (p : Progress) : List (String × Json) :=
  [("startIndex", .orNull (p.startIndex.map .integer)),
    ("endIndex", .orNull (p.endIndex.map .integer)),
    ("reverse", .bool p.reverse),
    ("iterationsCompleted", .integer p.completed),
    ("lastIteration", .orNull (p.last.map IterationItem.toJson)),
    ("currentIteration", .orNull (p.current.map IterationItem.toJson))]

def Write.fields (w : Write) : List (String × Json) :=
  [("propertyName", .orNull (w.property.map .text)),
    ("path", .orNull (w.path.map .text)),
    ("value", .orNull (w.value.map Value.toJson))]

def outputField (output : Option Value) : List (String × Json) :=
  match output with
  | some v => [("output", v.toJson)]
  | none => []

namespace Record

def errorActionsField (records : List (String × Json)) : List (String × Json) :=
  match records with
  | [] => []
  | _ :: _ => [("errorActions", .object records)]

mutual
def toJson (r : Record) : Json :=
  match r with
  | ⟨name, key, type, stage, startedAt, completedAt, fault, succeeded, errorActions, detail⟩ =>
    .object <|
      [("name", .text name), ("alias", .text key), ("type", .text type),
        ("state", .text stage.name),
        ("startedTimestamp", .orNull (startedAt.map .text)),
        ("completedTimestamp", .orNull (completedAt.map .text)),
        ("error", .orNull (fault.map Fault.toJson)), ("succeeded", .bool succeeded)] ++
      errorActionsField (toJsonFields errorActions) ++ detailFields detail

def detailFields (detail : Detail Record) : List (String × Json) :=
  match detail with
  | .group parallel children =>
    [("kind", .text "group"), ("parallel", .bool parallel),
      ("children", .object (toJsonFields children))]
  | .iterate progress iterations =>
    ("kind", .text "iterate") :: progress.fields ++
      [("iterations", .array (iterationItems iterations))]
  | .raiseError => [("kind", .text "raiseError")]
  | .setVariable write => ("kind", .text "setVariable") :: write.fields
  | .external output => ("kind", .text "external") :: outputField output

def toJsonFields (records : List (String × Record)) : List (String × Json) :=
  match records with
  | [] => []
  | (key, r) :: rest => (key, toJson r) :: toJsonFields rest

def iterationItems (iterations : List (Iteration Record)) : List Json :=
  match iterations with
  | [] => []
  | ⟨index, actions⟩ :: rest =>
    .object [("index", .integer index), ("actions", .object (toJsonFields actions))] ::
      iterationItems rest
end

theorem toJsonFields_eq_map (records : List (String × Record)) :
    toJsonFields records = records.map fun (key, r) => (key, toJson r) := by
  induction records with
  | nil => rfl
  | cons pair rest ih => simp only [toJsonFields, ih, List.map_cons]

end Record

end ActionFlow
