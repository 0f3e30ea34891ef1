/-
# Steps on timelines and alphas

A step on a timeline answers with its result and with the state of the timeline right
after it.
-/

import Animation.Session.Host
import Animation.Stage.Describe
import Animation.Stage.Playback
import Animation.Stage.Setting

namespace Animation.Session

variable (take : Step → Play Answer)

/-- Answer that there is no such thing. -/
def unnamed : Play Answer := return .unnamed

/-- An answer with the state of a timeline. -/
def shown (t : Ref .timeline) (result : Answer) : Play Answer := do
  let s ← Script.stage
  return .timeline result (s.clock t) (s.isPlaying t) (s.attachedCount t)

/-- Do what a timeline may refuse. -/
def request (x : Play (Except Error Unit)) : Play Answer := do
  match ← x with
  | .ok () => return .nothing
  | .error cause => return .failed cause

/-- Do what has no result. -/
def command (x : Play Unit) : Play Answer := do
  x
  return .nothing

/-- Do something with a timeline that is there. -/
def onTimeline (step : Step) (t : Ref .timeline) : TimelineAction → Play Answer
  | .setDuration duration => command (Script.setDuration t duration)
  | .setFps fps => request (Script.setFps t fps)
  | .setRepeats repeats => command (Script.setRepeats t repeats)
  | .setDirection direction => command (Script.setDirection t direction)
  | .nextFrame => return .truth (← Script.nextFrame (host take) t)
  | .play most => return .count (← Script.playFrames (host take) t most 0)
  | .advance frame => request (Script.advance t frame)
  | .skip count => command (Script.skip t count)
  | .rewind => command (Script.rewind t)
  | .start => request (Script.start (host take) t)
  | .pause => command (Script.pause (host take) t)
  | .stop => command (Script.stop (host take) t)
  | .clone name => do
      Script.change (·.retain (.timeline t))
      nameTimeline name t
      return .nothing
  | .same other => return .truth ((← current).timelines.find? other == some t)
  | .debug => return .text ((← Script.stage).describeTimeline t)
  | .on event accepts delay failure => do
      let callback ← addReaction { reactionTo step with delay, failure }
      let emitter := ((← Script.stage).timelines.get t).emitter
      let number ← Script.registerHandler emitter event accepts callback
      nameNumber step.tag number
      return .count number
  | .off => do
      match (← current).numbers.find? step.tag with
      | some number =>
          Script.unregisterHandler ((← Script.stage).timelines.get t).emitter number
      | none => pure ()
      return .nothing
  | .state | .make .. | .makeDefault | .drop => return .nothing

/-- Take a step on a timeline. -/
def takeTimeline (step : Step) : TimelineAction → Play Answer
  | .make duration => do
      let t ← Script.produce (·.addTimeline duration)
      nameTimeline step.subject t
      shown t .nothing
  | .makeDefault => do
      let t ← Script.produce (·.addTimeline Clock.defaultDuration)
      nameTimeline step.subject t
      return .nothing
  | .drop => do
      dropTimeline step.subject
      return .nothing
  | action => do
      match (← current).timelines.find? step.subject with
      | none => unnamed
      | some t => Script.holding [.timeline t] do shown t (← onTimeline take step t action)

/-- Do something with an alpha that is there. -/
def onAlpha (a : Ref .alpha) : AlphaAction → Play Answer
  | .value => return .count ((← Script.stage).alphaValue Easing.drawn a)
  | .setEasing easing => do
      Script.change (·.modifyAlpha a fun row => { row with easing })
      return .nothing
  | .easing => return .text ((← Script.stage).alphas.get a).easing.describe
  | .clone name => do
      Script.change (·.retain (.alpha a))
      nameAlpha name a
      return .nothing
  | .same other => return .truth ((← current).alphas.find? other == some a)
  | .timeline name => do
      let t := ((← Script.stage).alphas.get a).timeline
      Script.change (·.retain (.timeline t))
      nameTimeline name t
      return .nothing
  | .debug => return .text ((← Script.stage).describeAlpha a)
  | .make .. | .drop => return .nothing

/-- Take a step on an alpha. -/
def takeAlpha (step : Step) : AlphaAction → Play Answer
  | .make timeline easing => do
      match (← current).timelines.find? timeline with
      | none => unnamed
      | some t =>
          let a ← Script.produce (·.addAlpha t easing)
          nameAlpha step.subject a
          return .nothing
  | .drop => do
      dropAlpha step.subject
      return .nothing
  | action => do
      match (← current).alphas.find? step.subject with
      | none => unnamed
      | some a => Script.holding [.alpha a] (onAlpha a action)

end Animation.Session
