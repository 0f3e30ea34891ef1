/-
# Callbacks of a session

Every callback that a session registers leaves its record first, and then takes its
steps, each of which leaves a record of its answer. How a step is taken is a parameter
here.
-/

import Animation.Session.State

namespace Animation.Session

variable (take : Step → Play Answer)

/-- Take steps in order and record their answers. A violation is an answer. -/
def takeAll (tag : String) (steps : List Step) : Play Unit :=
  Script.forEach (fun step => do
    match ← (take step).attempt with
    | .ok answer => record (.act tag answer)
    | .error cause => record (.act tag (.broken cause))) steps

/-- Take the steps of a reaction, if it may still take them. -/
def react (callback : Callback) : Play Unit := do
  match (← current).reactions[callback]? with
  | none => pure ()
  | some reaction =>
      if reaction.budget = 0 then pure ()
      else
        let spent := { reaction with budget := reaction.budget - 1 }
        update fun s => { s with reactions := s.reactions.set callback spent }
        takeAll take reaction.tag reaction.acts

/-- The tag of a callback. -/
def tagOf (callback : Callback) : Play String :=
  return ((← current).reactions[callback]?.map Reaction.tag).getD ""

/-- What a behaviour of the given name does at the moment. -/
def readDrive (name : String) : Play (Option Drive) := do
  match (← current).performers.find? name with
  | some (.whole b) => return some ((← Script.stage).behaviours.get b).drive
  | _ => return none

/-- The frame on which the timeline of a payload stands. -/
def frameOf (payload : Payload) : Play Nat := do
  match payload.timeline? with
  | some t => return ((← Script.stage).timelines.get t).clock.frame
  | none => return 0

/-- A listener records the change, and what it reads. -/
def hear (callback : Callback) (change : Change) : Play Unit := do
  match (← current).reactions[callback]? with
  | none => pure ()
  | some reaction =>
      match reaction.reads with
      | none => record (.notified reaction.tag change none)
      | some name => record (.notified reaction.tag change (some (← readDrive name)))
      react take callback

/-- A handler records the payload and begins a routine. -/
def handle (callback : Callback) (payload : Payload) : Play Nat := do
  record (.called (← tagOf callback) payload (← frameOf payload))
  addRoutine callback (some payload)

/-- A custom behaviour records the alpha. -/
def driveCustom (callback : Callback) (alpha : Nat) : Play Unit := do
  record (.driven (← tagOf callback) alpha)
  react take callback

/-- What a routine does once it has waited. -/
def carryOut (routine : Routine) (reaction : Reaction) : Play Progress := do
  match routine.payload with
  | some payload =>
      record (.ran reaction.tag payload (← frameOf payload) (← time?))
  | none => record (.task reaction.tag (← time?))
  react take routine.reaction
  return .ends (reaction.failure.map .unknown)

/-- A routine waits for its delay, if it has one, and then records that it runs. -/
def resume (code : Nat) : Play Progress := do
  let s ← current
  match s.routines[code]? with
  | none => return .ends none
  | some routine =>
      match s.reactions[routine.reaction]? with
      | none => return .ends none
      | some reaction =>
          if !routine.hasWaited && reaction.delay != 0 then
            let begun := { routine with hasWaited := true }
            update fun s => { s with routines := s.routines.set code begun }
            return .sleeps reaction.delay
          else carryOut take routine reaction

/-- The callbacks of a session. Its actors do not react. -/
def host : Host Session where
  curves := Easing.drawn
  notified := hear take
  called := handle
  driven := driveCustom take
  reacts _ _ := pure ()
  resume := resume take

end Animation.Session
