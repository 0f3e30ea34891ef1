/-
# The journal of a stage

A stage keeps account of what happens on it. Some occurrences are worth a line of the
log, at one of four levels; the others are noted without a line.
-/

import Animation.Emitter

namespace Animation

/-- How much a line of the log matters. -/
inductive Level where
  | trace
  | debug
  | warn
  | error
  deriving DecidableEq, Repr

/-- The word for a level. -/
def Level.name : Level → String
  | trace => "trace"
  | debug => "debug"
  | warn => "warn"
  | error => "error"

/-- Something that happens on a stage. -/
inductive Occurrence where
  /-- A timeline has moved to a frame, one of so many. -/
  | moved (t : Ref .timeline) (frame frames : Nat)
  /-- A timeline has forgotten behaviours that are no longer there. -/
  | pruned (t : Ref .timeline) (count : Nat)
  /-- A timeline sets out to play so many frames, one every period. -/
  | started (t : Ref .timeline) (frames period : Nat)
  /-- A timeline that was playing has been paused on a frame. -/
  | paused (t : Ref .timeline) (frame : Nat)
  /-- A behaviour is about to be driven to an alpha. -/
  | ticked (b : Ref .behaviour) (alpha : Nat)
  /-- An actor has joined a set, which now has so many. -/
  | applied (c : Ref .core) (count : Nat)
  /-- Actors have left a set, which now has so many. -/
  | removed (c : Ref .core) (count : Nat)
  /-- A behaviour has been bound to an alpha, or has lost its binding. -/
  | bound (c : Ref .core) (isBound : Bool)
  /-- A change is about to be delivered to listeners. -/
  | notified (n : Ref .notifier) (change : Change)
  /-- An event is about to be handled. -/
  | emitted (m : Ref .emitter) (event : String) (payload : Payload)
  /-- A handler does not accept the payload of an event. -/
  | mismatched (m : Ref .emitter) (event : String)
  /-- The task of a handler could not be run. -/
  | unrun (m : Ref .emitter) (event : String) (cause : Error)
  deriving DecidableEq

namespace Occurrence

/-- The text of a number of milliseconds, of which a thousand are a second. -/
def periodText (period : Nat) : String :=
  if period = 1000 then "1s" else period.repr ++ "ms"

/-- The line of the log for an occurrence. -/
def line? : Occurrence → Option (Level × String)
  | moved _ frame frames =>
      some (.trace, "Timeline new frame " ++ frame.repr ++ "/" ++ frames.repr)
  | pruned _ count => some (.debug, "Timeline prunes " ++ count.repr ++ " dropped behaviour(s)")
  | started _ frames period =>
      some (.debug,
        "Timeline starts: " ++ frames.repr ++ " frames every " ++ periodText period)
  | paused _ frame => some (.debug, "Timeline paused at frame " ++ frame.repr)
  | ticked _ alpha => some (.trace, "Behaviour tick: alpha=" ++ alpha.repr)
  | applied _ count =>
      some (.debug, "Behaviour applied to a new actor (" ++ count.repr ++ " actors)")
  | removed _ count =>
      some (.debug, "Behaviour removed from an actor (" ++ count.repr ++ " actors)")
  | bound _ isBound => some (.debug, "Behaviour alpha " ++ if isBound then "set" else "unset")
  | notified _ change =>
      some (.trace, "Notify '" ++ change.name ++ "' = " ++ change.value.toText)
  | emitted .. => none
  | mismatched _ event =>
      some (.warn, "The callback for event '" ++ event ++
        "' could not be called because parameter does not match")
  | unrun _ event cause =>
      some (.error, "Event '" ++ event ++ "' callback could not be run: " ++ cause.message)

end Occurrence

/-- An occurrence and the time at which it happened. -/
structure Entry where
  time : Nat
  what : Occurrence
  deriving DecidableEq

end Animation
