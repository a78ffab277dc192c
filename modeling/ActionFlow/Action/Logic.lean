import ActionFlow.Action.Frame

/-!
# The logic of simple actions

Raising a fault, writing a variable, and calling a handler.  What is written goes into the record
before the write itself, so that a blocked write is recorded too.
-/
namespace ActionFlow

def Record.setWrite (write : Write) (r : Record) : Record :=
  match r.detail with
  | .setVariable _ => { r with detail := .setVariable write }
  | _ => r

def Record.setOutput (output : Option Value) (r : Record) : Record :=
  match r.detail with
  | .external _ => { r with detail := .external output }
  | _ => r

namespace Logic

open ActionFlow.Frame

def raise (key : String) (p : FaultProvider) : Step (Frame Record) Unit := do
  let fault ← resolve key p.resolve
  modify (Record.recordFault fault)
  .fail fault

def write (property : String) (path : Option Path) (value : Value) : Step (Frame Record) Unit :=
  fun s =>
    match s.context.setVariable property path value with
    | .ok context => ⟨.ok (), ⟨s.own, context⟩, []⟩
    | .error fault => ⟨.error (.error fault), s, []⟩

def assign (key : String) (property : Provider) (path : Option Provider) (value : Provider) :
    Step (Frame Record) Unit := do
  let name ← resolve key (property.resolveAs Conversion.text)
  if isPropertyName name then
    let path ← resolveOptional key path (Provider.resolveAs Conversion.text)
    let value ← resolve key fun ctx => value.resolve ctx
    modify (Record.setWrite ⟨some name, path, some value⟩)
    write name (path.map Path.parse) value
  else .fail (ProviderError.invalidPropertyName name).toFault

def call (key : String) (handler : Handler) : Step (Frame Record) Unit := fun s =>
  let reply := handler.handle s.context
  let notes := reply.notes.map fun text => (⟨[.action key], .noted text, reply.context⟩ : Moment)
  ⟨(reply.result.mapError (HandlerError.toFault key)).mapError .error,
    ⟨s.own.setOutput reply.output, reply.context⟩,
    ⟨[.action key], .handling, s.context⟩ :: notes⟩

def run (key : String) : Logic → Step (Frame Record) Unit
  | raiseError p => raise key p
  | .setVariable property path value => assign key property path value
  | external handler => call key handler

end Logic

end ActionFlow
