import ActionFlow.Value.Basic

/-!
# Writing into values

Writing a property beneath a path into the fields of an object.  Missing objects on the way are
made; anything on the way that is no object blocks the write, and then nothing is written at all.
-/
namespace ActionFlow

/-- What blocks a write: the segment of the path at which a value of another kind stands. -/
structure Blocked where
  segment : String
  kind : String
  deriving DecidableEq, Repr

def Blocked.reason (b : Blocked) : String :=
  "\"" ++ b.segment ++ "\" holds a " ++ b.kind ++ " value and cannot contain properties"

namespace Entries

def writeAt (fields : Entries Value) (path : List String) (property : String) (value : Value) :
    Except Blocked (Entries Value) :=
  match path with
  | [] => .ok (put fields property value)
  | segment :: rest =>
    match find? fields segment with
    | none => do
      let inner ← writeAt [] rest property value
      .ok (put fields segment (.object inner))
    | some (.object inner) => do
      let inner ← writeAt inner rest property value
      .ok (put fields segment (.object inner))
    | some other => .error ⟨segment, other.kind⟩

@[simp] theorem writeAt_nil (fields : Entries Value) (property : String) (value : Value) :
    writeAt fields [] property value = .ok (put fields property value) := by
  simp [writeAt]

/-- A write into a new object is never blocked. -/
theorem exists_writeAt_empty (path : List String) (property : String) (value : Value) :
    ∃ fields, writeAt [] path property value = .ok fields := by
  induction path with
  | nil => exact ⟨_, writeAt_nil _ _ _⟩
  | cons segment rest ih =>
    obtain ⟨inner, h⟩ := ih
    exact ⟨put [] segment (.object inner), by simp [writeAt, h]; rfl⟩

end Entries

end ActionFlow
