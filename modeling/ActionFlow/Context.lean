import ActionFlow.Value.Lookup
import ActionFlow.Value.Writing
import ActionFlow.Fault.Engine

/-!
# Contexts of a run

What all actions of a run share: the trigger that started it, the variables that they write, and the
snapshots that they publish under their keys.  Providers read from it by paths; `lookup` answers as
if the whole context were one object with the fields `trigger`, `variables` and `actions`.
-/
namespace ActionFlow

/-- The state that the actions of a run share. -/
structure Context where
  runId : String
  clock : String
  trigger : Value
  vars : Entries Value
  published : Entries Value
  /-- What the surroundings of the run offer to its actions, by name. -/
  services : Entries Value
  cancelled : Bool
  deriving Inhabited

namespace Context

def start (runId clock : String) (trigger : Value) : Context where
  runId := runId
  clock := clock
  trigger := trigger
  vars := []
  published := []
  services := []
  cancelled := false

/-! ### Reading -/

def toValue (c : Context) : Value :=
  .object
    [("trigger", c.trigger), ("variables", .object c.vars), ("actions", .object c.published)]

/-- The part of a table that segments lead to; no segments lead to the table itself. -/
def lookupIn (table : Entries Value) : List String → Option Value
  | [] => some (.object table)
  | segment :: rest => (Entries.find? table segment).bind fun v => v.lookup rest

def lookup (c : Context) (path : Path) : Option Value :=
  match path.splitFirst? with
  | none => some c.toValue
  | some (first, rest) =>
    if first = "trigger" then c.trigger.lookup rest
    else if first = "variables" then lookupIn c.vars rest
    else if first = "actions" then lookupIn c.published rest
    else none

def action? (c : Context) (key : String) : Option Value := Entries.find? c.published key

def service? (c : Context) (name : String) : Option Value := Entries.find? c.services name

def ensureNotCancelled (c : Context) (key : String) : Except Fault Unit :=
  if c.cancelled then .error (.actionCancelled key) else .ok ()

/-! ### Writing -/

def publish (c : Context) (key : String) (snapshot : Value) : Context :=
  { c with published := Entries.put c.published key snapshot }

def cancel (c : Context) : Context := { c with cancelled := true }

def setVariable (c : Context) (property : String) (path : Option Path) (value : Value) :
    Except Fault Context :=
  match Entries.writeAt c.vars ((path.map Path.segments).getD []) property value with
  | .ok vars => .ok { c with vars := vars }
  | .error blocked =>
    .error (.setVariableFailed property ((path.map Path.text).getD "") blocked.reason)

@[simp] theorem vars_publish (c : Context) (key : String) (snapshot : Value) :
    (c.publish key snapshot).vars = c.vars := rfl

theorem published_setVariable {c c' : Context} {property : String} {path : Option Path}
    {value : Value} (h : c.setVariable property path value = .ok c') :
    c'.published = c.published := by
  unfold setVariable at h
  split at h
  · cases h
    rfl
  · cases h

theorem action?_publish_self (c : Context) (key : String) (snapshot : Value) :
    (c.publish key snapshot).action? key = some snapshot :=
  Entries.find?_put_self ..

theorem action?_publish_of_ne (c : Context) {key other : String} (snapshot : Value)
    (h : other ≠ key) : (c.publish key snapshot).action? other = c.action? other :=
  Entries.find?_put_of_ne _ _ h

end Context

end ActionFlow
