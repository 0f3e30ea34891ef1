/-
# Answers and records

A step has an answer. Callbacks that are called meanwhile leave records, in order, each
under the tag of the step that registered the callback.
-/

import Animation.Session.Step
import Animation.Stage.Basic

namespace Animation

/-- The answer of a step. -/
inductive Answer where
  | nothing
  | truth (b : Bool)
  | count (n : Nat)
  | text (s : String)
  | name (name : Option String)
  | failed (cause : Error)
  | broken (cause : Violation)
  | stuck
  | unnamed
  | timeline (result : Answer) (clock : Clock) (isPlaying : Bool) (attached : Nat)
  | actor (style : ActorStyle) (row : Actor)
  | actors (names : List (Option String))
  | drive (drive : Drive)
  | scales (x y : Fixed)
  | observed (isAlive : Bool) (text : String)
  | batch (wasEmpty : Bool) (sizes : List Nat) (isEmpty : Bool)
  | notifier (size : Nat) (text : String)
  | awaited (inTime : Bool) (now : Nat)

/-- A record that a callback leaves. Payloads come with the frame on which their timeline
stands at the moment. -/
inductive Record where
  | act (tag : String) (answer : Answer)
  | notified (tag : String) (change : Change) (read : Option (Option Drive))
  | driven (tag : String) (alpha : Nat)
  | visited (tag : String) (actor : Option String)
  | called (tag : String) (payload : Payload) (frame : Nat)
  | ran (tag : String) (payload : Payload) (frame : Nat) (now : Option Nat)
  | task (tag : String) (now : Option Nat)

end Animation
