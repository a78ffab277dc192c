import ActionFlow.Action.Frame
import ActionFlow.Range

/-!
# Iterations

An iteration resolves its list and its bounds, and runs the actions inside once for each item in
range.  Before each time it publishes its progress, so that the actions inside can look up the item
at hand, and after each time again.
-/
namespace ActionFlow

namespace Record

/-- Changes what a record tells of an iteration.  A record of another kind becomes one of an
iteration. -/
def updateIteration
    (f : Progress → List (Iteration Record) → Progress × List (Iteration Record)) (r : Record) :
    Record :=
  let (progress, iterations) := match r.detail with
    | .iterate progress iterations => (progress, iterations)
    | _ => ({}, [])
  let (progress, iterations) := f progress iterations
  { r with detail := .iterate progress iterations }

def updateProgress (f : Progress → Progress) : Record → Record :=
  updateIteration fun progress iterations => (f progress, iterations)

def addIteration (i : Iteration Record) : Record → Record :=
  updateIteration fun progress iterations => (progress, iterations ++ [i])

end Record

namespace Loop

open ActionFlow.Frame

def idle (first last : Option Int) (reverse : Bool) (p : Progress) : Progress :=
  let reverse := match first, last with
    | some first, some last => decide (last < first)
    | _, _ => reverse
  { p with startIndex := first, endIndex := last, reverse := reverse }

def bounded (range : Range) (p : Progress) : Progress :=
  { p with startIndex := some range.first, endIndex := some range.last, reverse := range.reverse }

def visited (items : List Value) (range : Range) : List IterationItem :=
  range.places.filterMap fun i => items[i]?.map (⟨i, ·⟩)

def continues (key : String) (loop : Loop) : Step (Frame Record) Bool :=
  match loop.doWhile with
  | none => pure true
  | some c => resolve key fun ctx => c.resolve ctx

def once (key : String) (items : List Value) (body : Step (Frame (Entries Record)) Unit)
    (i : IterationItem) : Step (Frame Record) Unit := do
  ensureNotCancelled key
  modify (Record.updateProgress fun p => { p with current := some i })
  publish key
  let (records, result) ← within (.iteration key items i.index) (nested [] body)
  modify (Record.addIteration ⟨i.index, records⟩)
  .ofExcept result
  modify (Record.updateProgress fun p =>
    { p with completed := p.completed + 1, last := some i })
  publish key

/-- The iterations at places of a list of items, until the loop ends. -/
def visit (key : String) (loop : Loop) (items : List Value)
    (body : Step (Frame (Entries Record)) Unit) : List IterationItem → Step (Frame Record) Unit
  | [] => pure ()
  | i :: rest => do
    once key items body i
    if ← continues key loop then visit key loop items body rest
    else pure ()

def visitRange (key : String) (loop : Loop) (body : Step (Frame (Entries Record)) Unit)
    (items : List Value) (range : Range) : Step (Frame Record) Unit := do
  modify (Record.updateProgress (bounded range))
  visit key loop items body (visited items range)
  modify (Record.updateProgress fun p => { p with current := none })

def run (key : String) (loop : Loop) (body : Step (Frame (Entries Record)) Unit) :
    Step (Frame Record) Unit := do
  let items ← resolve key (loop.list.resolveAs Conversion.list)
  let first ← resolveOptional key loop.startIndex fun p ctx => p.resolve ctx
  let last ← resolveOptional key loop.endIndex fun p ctx => p.resolve ctx
  let reverse ← resolveOptional key loop.reverse fun c ctx => c.resolve ctx
  let reverse := reverse.getD false
  if items.isEmpty then modify (Record.updateProgress (idle first last reverse))
  else
    match Range.resolve items.length first last reverse with
    | .ok range => visitRange key loop body items range
    | .error index => .fail (.indexOutOfRange key index items.length)

end Loop

end ActionFlow
