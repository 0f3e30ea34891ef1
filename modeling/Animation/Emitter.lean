/-
# Event emitters

An emitter keeps the handlers of named events. A handler accepts payloads of one kind
only. Handlers are numbered from zero over all events of the emitter, and no number is
given out twice.
-/

import Animation.Notifier
import Animation.Stage.Table

namespace Animation

/-- What an event carries. -/
inductive Payload where
  | unit
  | word32 (n : Nat)
  | word64 (n : Nat)
  | text (s : String)
  | bytes (first second : Nat)
  | timeline (t : Ref .timeline)
  | frame (t : Ref .timeline) (number : Nat)
  | other
  deriving DecidableEq

/-- The kinds of payloads that handlers accept. -/
inductive PayloadKind where
  | unit
  | word32
  | word64
  | text
  | bytes
  | timeline
  | frame
  deriving DecidableEq

namespace Payload

/-- The kind of a payload, if it is one that handlers accept. -/
def kind? : Payload → Option PayloadKind
  | unit => some .unit
  | word32 _ => some .word32
  | word64 _ => some .word64
  | text _ => some .text
  | bytes .. => some .bytes
  | timeline _ => some .timeline
  | frame .. => some .frame
  | other => none

/-- The timeline that a payload keeps a handle on. -/
def timeline? : Payload → Option (Ref .timeline)
  | timeline t => some t
  | frame t _ => some t
  | _ => none

end Payload

/-- One handler of an event. -/
structure Handler where
  id : Nat
  event : String
  accepts : PayloadKind
  callback : Callback
  deriving DecidableEq

/-- Whether a handler accepts a payload. -/
def Handler.matches (h : Handler) (p : Payload) : Bool := p.kind? == some h.accepts

/-- The handlers of all events, in the order of their registration. While the handlers of
an event are called the emitter is held, and nobody else gets at it. -/
structure Emitter where
  handlers : List Handler
  nextId : Nat
  isHeld : Bool
  deriving Inhabited

namespace Emitter

def empty : Emitter := ⟨[], 0, false⟩

/-- Add a handler; its number is the next one. -/
def register (m : Emitter) (event : String) (accepts : PayloadKind) (callback : Callback) :
    Emitter :=
  { m with
    handlers := m.handlers ++ [⟨m.nextId, event, accepts, callback⟩]
    nextId := m.nextId + 1 }

/-- Take the handler of the given number away, whatever its event. -/
def unregister (m : Emitter) (id : Nat) : Emitter :=
  { m with handlers := m.handlers.filter (·.id != id) }

/-- The handlers of an event, in order. -/
def handling (m : Emitter) (event : String) : List Handler :=
  m.handlers.filter (·.event == event)

def hasHandlers (m : Emitter) (event : String) : Bool := !(m.handling event).isEmpty

/-- The text of an emitter inside the text of a structure. -/
def describe (m : Emitter) : String :=
  Text.record "EventManager" [("callbacks", m.handlers.length.repr)]

theorem handling_register (m : Emitter) (event other : String) (accepts : PayloadKind)
    (callback : Callback) :
    (m.register event accepts callback).handling other =
      m.handling other ++
        if event = other then [⟨m.nextId, event, accepts, callback⟩] else [] := by
  by_cases h : event = other <;> simp [register, handling, h]

theorem mem_handling_unregister {m : Emitter} {id : Nat} {event : String} {h : Handler} :
    h ∈ (m.unregister id).handling event ↔ h ∈ m.handling event ∧ h.id ≠ id := by
  simp only [unregister, handling, List.mem_filter, bne_iff_ne, beq_iff_eq]
  constructor
  · rintro ⟨⟨m, i⟩, e⟩; exact ⟨⟨m, e⟩, i⟩
  · rintro ⟨⟨m, e⟩, i⟩; exact ⟨⟨m, i⟩, e⟩

end Emitter

end Animation
