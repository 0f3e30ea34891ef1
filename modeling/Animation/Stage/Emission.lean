/-
# Emission of events

An emitter hands an event to its handlers in the order of their registration. One that
accepts the payload is called and names a routine; one that does not is left out with a
warning, and an idle task takes the place of its routine. Either way a task is spawned,
and a failure to spawn it is noted.

The emitter is held from the first handler to the last. Whatever needs it meanwhile
waits for good.
-/

import Animation.Stage.Agenda
import Animation.Stage.Script

namespace Animation

/-- The handle that comes with a payload. -/
def Payload.handles (p : Payload) : List Handle := (p.timeline?.map Handle.timeline).toList

namespace Script

variable {υ : Type} (host : Host υ)

/-- Wait until an emitter is free, which is at once or never. -/
def await (m : Ref .emitter) : Script υ Emitter := do
  let row := (← stage).emitters.get m
  if row.isHeld then throw .stuck else return row

/-- Hold an emitter, or let go of it. -/
def hold (isHeld : Bool) (m : Ref .emitter) (s : Stage) : Stage :=
  s.modifyEmitter m fun row => { row with isHeld }

/-- The job that comes of an event for a handler. -/
def respond (m : Ref .emitter) (event : String) (payload : Payload) (h : Handler) :
    Script υ Job := do
  if h.matches payload then
    return .routine (← host.called h.callback payload) payload.timeline?
  else
    note (.mismatched m event)
    return .idle

/-- Offer an event to a handler. -/
def offer (m : Ref .emitter) (event : String) (payload : Payload) (h : Handler) :
    Script υ Unit := do
  let job ← respond host m event payload h
  match ← produce (·.spawn job) with
  | some _ => pure ()
  | none => note (.unrun m event .outsideRuntime)

/-- Emit an event. -/
def emit (m : Ref .emitter) (event : String) (payload : Payload) : Script υ Unit := do
  let row ← await m
  note (.emitted m event payload)
  match row.handling event with
  | [] => pure ()
  | handlers =>
      holding payload.handles do
        change (hold true m)
        (forEach (offer host m event payload) handlers).thenTidy (hold false m)

/-- Register a handler and return its number. -/
def registerHandler (m : Ref .emitter) (event : String) (accepts : PayloadKind)
    (callback : Callback) : Script υ Nat := do
  let row ← await m
  change (·.modifyEmitter m (·.register event accepts callback))
  return row.nextId

/-- Take the handler of the given number away. -/
def unregisterHandler (m : Ref .emitter) (id : Nat) : Script υ Unit := do
  let _ ← await m
  change (·.modifyEmitter m (·.unregister id))

/-- Whether an event has handlers. -/
def hasHandlers (m : Ref .emitter) (event : String) : Script υ Bool :=
  return (← await m).hasHandlers event

end Script

end Animation
