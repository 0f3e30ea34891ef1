/-
# Steps

A session goes in steps. A step does something with a thing that it calls by name, or
lets time pass. A step that registers a callback may say what the callback is to do:
further steps, each of the first so many times the callback is called.
-/

import Animation.Emitter
import Animation.Range
import Animation.Timeline.Clock

namespace Animation

/-- What can be done with a timeline. -/
inductive TimelineAction where
  | make (duration : Nat)
  | makeDefault
  | drop
  | state
  | setDuration (duration : Nat)
  | setFps (fps : Nat)
  | setRepeats (repeats : Bool)
  | setDirection (direction : Direction)
  | nextFrame
  | play (most : Nat)
  | advance (frame : Nat)
  | skip (count : Nat)
  | rewind
  | start
  | pause
  | stop
  | clone (name : String)
  | same (other : String)
  | debug
  | on (event : String) (accepts : PayloadKind) (delay : Nat) (failure : Option String)
  | off

/-- What can be done with an alpha. -/
inductive AlphaAction where
  | make (timeline : String) (easing : Easing)
  | drop
  | value
  | setEasing (easing : Easing)
  | easing
  | clone (name : String)
  | same (other : String)
  | timeline (name : String)
  | debug

/-- How the state of an actor is shown: by its whole account, by its text alone, or without
an account. -/
inductive ActorStyle where
  | recording
  | textOnly
  | plain
  deriving DecidableEq

/-- What can be done with an actor. -/
inductive ActorAction where
  | make (style : ActorStyle) (width height : Double)
  | drop
  | state
  | setScale (x y : Double)
  | setAnchor (x y : Double)
  | setGravity (gravity : Gravity)
  | setOpacity (value : UInt8)
  | debug

/-- What can be done with a behaviour or a core. New bounds may be offered without knowing
what the behaviour does, as corners to one that scales and as a range to one that fades. -/
inductive BehaviourAction where
  | makeScale (corners : Corners Double) (gravity : Gravity) (alpha : Option String)
  | makeFixedScale (corners : Corners Fixed) (gravity : Gravity) (alpha : Option String)
  | makeOpacity (bounds : Range UInt8) (alpha : Option String)
  | makeCustom (alpha : Option String)
  | makeCore
  | drop
  | apply (actor : String)
  | remove (actor : String)
  | removeAll
  | isApplied (actor : String)
  | actors
  | nthActor (n : Nat)
  | forEach
  | alpha
  | setAlpha (alpha : Option String)
  | drive (alpha : Nat)
  | tick
  | clone (name : String)
  | core (name : String)
  | observed (name : String)
  | notifier (name : String)
  | observe (property : Option String) (reads : Option String)
  | unobserve
  | bounds
  | setBounds (corners : Option (Corners Double)) (range : Option (Range UInt8))
  | setFixedBounds (corners : Corners Fixed)
  | setGravity (gravity : Gravity)
  | compute (alpha : Nat)
  | debug

/-- What can be done with a notifier. -/
inductive NotifierAction where
  | make
  | clone (name : String)
  | on (property : Option String) (reads : Option String)
  | off
  | notify (change : Change)
  | batch (changes : List Change)
  | state

/-- What can be done with an emitter. -/
inductive EmitterAction where
  | make
  | clone (name : String)
  | on (event : String) (accepts : PayloadKind) (delay : Nat) (failure : Option String)
  | off
  | emit (event : String) (payload : Payload)
  | has (event : String)
  | debug

/-- What can be done with a task. -/
inductive TaskAction where
  | run (delay : Nat) (failure : Option String)
  | abort
  | hasEnded

/-- What a step does. -/
inductive Action where
  | timeline (action : TimelineAction)
  | alpha (action : AlphaAction)
  | actor (action : ActorAction)
  | behaviour (action : BehaviourAction)
  | observedState
  | notifier (action : NotifierAction)
  | emitter (action : EmitterAction)
  | task (action : TaskAction)
  | wait (duration : Nat)
  | waitForTasks

/-- A step: the name of the thing it is about, the tag of the callback it registers, what it
does, how many times the callback does its steps, and these steps. -/
inductive Step where
  | mk (subject tag : String) (action : Action) (times : Nat) (acts : List Step)

namespace Step

def subject : Step → String
  | mk subject .. => subject

def tag : Step → String
  | mk _ tag .. => tag

def action : Step → Action
  | mk _ _ action .. => action

def times : Step → Nat
  | mk _ _ _ times _ => times

def acts : Step → List Step
  | mk _ _ _ _ acts => acts

mutual

/-- A bound on how many steps a step gives rise to, itself included. -/
def weight : Step → Nat
  | mk _ _ _ times acts => 1 + times * weightAll acts

/-- A bound on how many steps some steps give rise to. -/
def weightAll : List Step → Nat
  | [] => 0
  | step :: rest => weight step + weightAll rest

end

end Step

end Animation
