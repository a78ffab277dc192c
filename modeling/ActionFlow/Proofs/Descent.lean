import ActionFlow.Context

/-!
# Looking into a context

A context is looked into as if it were one object.  Its three parts are read without putting that
object together, and what is found is what the object would give, at every path.  Looking further
from what was found is the same as looking up the longer path at once.
-/
namespace ActionFlow

theorem Value.lookup_append (v : Value) (segments rest : List String) :
    v.lookup (segments ++ rest) = (v.lookup segments).bind fun part => part.lookup rest := by
  -- the value is general, since the fields of a file are made on the way
  induction segments generalizing v with
  | nil => rw [List.nil_append, lookup_nil, Option.bind_some]
  | cons segment others ih =>
    rw [List.cons_append, lookup_cons, lookup_cons, Option.bind_assoc]
    exact congrArg _ (funext ih)

namespace Context

/-- The parts of a context, by the names under which they are looked up. -/
def part? (c : Context) (name : String) : Option Value :=
  if name = "trigger" then some c.trigger
  else if name = "variables" then some (.object c.vars)
  else if name = "actions" then some (.object c.published)
  else none

variable (c : Context) (name : String) (rest : List String)

theorem lookupIn_eq (table : Entries Value) (segments : List String) :
    lookupIn table segments = (Value.object table).lookup segments := by
  cases segments with
  | nil => rw [lookupIn, Value.lookup_nil]
  | cons segment rest => rw [lookupIn, Value.lookup_object_cons]

theorem lookup_part : c.lookup ⟨name :: rest⟩ = (c.part? name).bind fun v => v.lookup rest := by
  simp only [lookup, Path.splitFirst?, lookupIn_eq, part?]
  by_cases htrigger : name = "trigger"
  · simp only [htrigger, if_true, Option.bind_some]
  by_cases hvariables : name = "variables"
  · simp only [hvariables, if_true, String.reduceEq, if_false, Option.bind_some]
  by_cases hactions : name = "actions"
  · simp only [hactions, if_true, String.reduceEq, if_false, Option.bind_some]
  · simp only [htrigger, hvariables, hactions, if_false, Option.bind_none]

theorem find?_toValue :
    Entries.find? [("trigger", c.trigger), ("variables", .object c.vars),
      ("actions", .object c.published)] name = c.part? name := by
  simp only [Entries.find?, part?, eq_comm (b := name)]

theorem toValue_lookup_part :
    c.toValue.lookup (name :: rest) = (c.part? name).bind fun v => v.lookup rest := by
  rw [toValue, Value.lookup_object_cons, find?_toValue]

/-- The parts of a context give what the object of all of them gives, at every path. -/
theorem lookup_eq_toValue (c : Context) (path : Path) :
    c.lookup path = c.toValue.lookup path.segments := by
  obtain ⟨segments⟩ := path
  cases segments with
  | nil => rw [Value.lookup_nil, lookup, Path.splitFirst?]
  | cons name rest => rw [lookup_part, toValue_lookup_part]

/-- Into a file, whose fields are no part of the object. -/
example : (start "run" "now" (.array [.file "a.txt" [104, 105]])).lookup
    ⟨["trigger", "0", "content"]⟩ = some (.binary [104, 105]) := by
  cbv

/-! ### Looking further -/

theorem lookup_append (c : Context) (path : Path) (rest : List String) :
    c.lookup ⟨path.segments ++ rest⟩ = (c.lookup path).bind fun part => part.lookup rest := by
  obtain ⟨segments⟩ := path
  cases segments with
  | nil =>
    have hroot : c.lookup ⟨[]⟩ = some c.toValue := rfl
    rw [hroot, Option.bind_some, List.nil_append]
    cases rest with
    | nil => rw [hroot, Value.lookup_nil]
    | cons name rest => rw [lookup_part, toValue_lookup_part]
  | cons name others =>
    simp only [List.cons_append, lookup_part, Value.lookup_append, Option.bind_assoc]

end Context

/-- A longer path leads where its first part leads and the rest leads from there, and nowhere if one
of them does: in any value, files included, and in a context, whose parts are special. -/
theorem lookups_compose :
    (∀ (v : Value) (segments rest : List String),
      v.lookup (segments ++ rest) = (v.lookup segments).bind fun part => part.lookup rest) ∧
    (∀ (c : Context) (path : Path) (segment : String),
      c.lookup (path.join segment) = (c.lookup path).bind fun part => part.lookup [segment]) ∧
    ∀ (c : Context) (path : Path) (rest : List String),
      c.lookup ⟨path.segments ++ rest⟩ = (c.lookup path).bind fun part => part.lookup rest :=
  ⟨Value.lookup_append, fun c path segment => c.lookup_append path [segment],
    Context.lookup_append⟩

end ActionFlow
