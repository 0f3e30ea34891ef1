/-
# Steps on actors and behaviours

A step on an actor answers with its state. A step on a behaviour may be about a core
alone, as far as cores can do what it asks.
-/

import Animation.Session.Clocks
import Animation.Stage.Bounds

namespace Animation.Session

variable (take : Step → Play Answer)

/-- Do something with an actor that is there. -/
def onActor (a : Ref .actor) (style : ActorStyle) (action : ActorAction) : Play Answer := do
  match action with
  | .setScale x y => Script.ask (host take) a (.setScale x y)
  | .setAnchor x y => Script.ask (host take) a (.setAnchor x y)
  | .setGravity gravity => Script.ask (host take) a (.anchorBy gravity)
  | .setOpacity value => Script.ask (host take) a (.setOpacity value)
  | _ => pure ()
  let row := (← Script.stage).actors.get a
  match action with
  | .debug => return .text row.describe
  | _ => return .actor style row

/-- Take a step on an actor. -/
def takeActor (step : Step) : ActorAction → Play Answer
  | .make style width height => do
      let a ← Script.produce (·.addActor (.ofSize (style != .plain) (width, height)))
      nameActor step.subject a style
      return .nothing
  | .drop => do
      dropActor step.subject
      return .nothing
  | action => do
      match (← current).actors.find? step.subject with
      | none => unnamed
      | some (a, style) => Script.holding [.actor a] (onActor take a style action)

/-- The first name of an actor. -/
def actorName? (a : Ref .actor) : Play (Option String) :=
  return (← current).actors.nameOf? fun entry => entry.1 == a

/-- Name a behaviour that has been made. -/
def nameWhole (step : Step) (b : Ref .behaviour) : Play Answer := do
  namePerformer step.subject (.whole b)
  return .nothing

/-- Make something with an alpha that may be given by name. -/
def withAlpha (alpha : Option String) (make : Option (Ref .alpha) → Play Answer) :
    Play Answer := do
  match alpha with
  | none => make none
  | some name =>
      match (← current).alphas.find? name with
      | none => unnamed
      | some a => Script.holding [.alpha a] (make (some a))

/-- Do something with an actor given by name. -/
def withActor (name : String) (f : Ref .actor → Play Answer) : Play Answer := do
  match (← current).actors.find? name with
  | none => unnamed
  | some (a, _) => f a

/-- Do something with a core that is there. -/
def onCore (step : Step) (c : Ref .core) : BehaviourAction → Play Answer
  | .apply actor => withActor actor fun a => do
      Script.change (·.applyActor c a)
      return .nothing
  | .remove actor => withActor actor fun a => do
      Script.change (·.removeActor c a)
      return .nothing
  | .removeAll => do
      Script.change (·.clearActors c)
      return .nothing
  | .isApplied actor => withActor actor fun a =>
      return .truth ((← Script.stage).isApplied c a)
  | .actors => do
      let actors ← Script.produce (·.gatherActors c)
      return .actors (← actors.mapM actorName?)
  | .nthActor n => do
      match (← Script.produce (·.gatherActors c))[n]? with
      | some a => return .name (← actorName? a)
      | none => return .nothing
  | .forEach => do
      let callback ← addReaction (reactionTo step)
      Script.forEachActor c fun a => do
        record (.visited step.tag (← actorName? a))
        react take callback
      return .nothing
  | .alpha => do
      match (← Script.stage).boundAlpha? c with
      | none => return .nothing
      | some a => return .text (((← current).alphas.nameOf? (· == a)).getD "?")
  | .core name => do
      Script.change (·.retain (.core c))
      namePerformer name (.core c)
      return .nothing
  | .notifier name => do
      let notifier := ((← Script.stage).cores.get c).notifier
      update fun s => { s with notifiers := s.notifiers.insert name notifier }
      return .nothing
  | .observe property reads => do
      let callback ← addReaction { reactionTo step with reads }
      let notifier := ((← Script.stage).cores.get c).notifier
      let number := ((← Script.stage).notifiers.get notifier).nextId
      Script.change (·.modifyNotifier notifier (·.register property callback))
      nameNumber step.tag number
      return .count number
  | .unobserve => do
      let notifier := ((← Script.stage).cores.get c).notifier
      match (← current).numbers.find? step.tag with
      | some number => Script.change (·.modifyNotifier notifier (·.unregister number))
      | none => pure ()
      return .nothing
  | .debug => return .text (← Script.produce (·.showCore c))
  | _ => unnamed

/-- What a behaviour does, as an answer. -/
def bounds (b : Ref .behaviour) : Play Answer :=
  return .drive ((← Script.stage).behaviours.get b).drive

/-- What a behaviour would ask of its actors at an alpha. -/
def compute (b : Ref .behaviour) (alpha : Nat) : Play Answer := do
  match ((← Script.stage).behaviours.get b).drive with
  | .scale bounds _ =>
      let (x, y) ← Script.check (bounds.sample alpha)
      return .scales x y
  | .opacity bounds => return .count (← Script.check (bounds.sampleOpacity alpha)).toNat
  | .custom _ => unnamed

/-- Give a behaviour the bounds that suit what it does, of those that are offered. The others
are not looked at. -/
def setBounds (b : Ref .behaviour) (corners : Option (Corners Double))
    (range : Option (Range UInt8)) : Play Answer := do
  match ((← Script.stage).behaviours.get b).drive, corners, range with
  | .scale .., some corners, _ => do
      Script.setScaleBounds (host take) b (← Script.check corners.toFixed)
      bounds b
  | .opacity _, _, some range => do
      Script.setOpacityBounds (host take) b range
      bounds b
  | _, _, _ => unnamed

/-- Do something with a behaviour if it scales. -/
def ifScaling (b : Ref .behaviour) (f : Play Answer) : Play Answer := do
  match ((← Script.stage).behaviours.get b).drive with
  | .scale .. => f
  | _ => unnamed

/-- Do something with a behaviour that is there. -/
def onWhole (step : Step) (b : Ref .behaviour) : BehaviourAction → Play Answer
  | .setAlpha alpha => withAlpha alpha fun alpha => do
      Script.bindTo (host take) b alpha
      return .nothing
  | .drive alpha => do
      Script.drive (host take) b alpha
      return .nothing
  | .tick => do
      Script.tick (host take) b
      return .nothing
  | .clone name => do
      Script.change (·.retain (.behaviour b))
      namePerformer name (.whole b)
      return .nothing
  | .observed name => do
      update fun s => { s with observed := s.observed.insert name b }
      return .nothing
  | .bounds => bounds b
  | .setBounds corners range => setBounds take b corners range
  | .setFixedBounds corners => ifScaling b do
      Script.setScaleBounds (host take) b corners
      bounds b
  | .setGravity gravity => ifScaling b do
      Script.setGravity (host take) b gravity
      return .nothing
  | .compute alpha => compute b alpha
  | .debug => return .text (← Script.produce (·.showBehaviour b))
  | action => do onCore take step ((← Script.stage).behaviours.get b).core action

/-- Do something with a behaviour or a core that is there. -/
def onPerformer (step : Step) : Performer → BehaviourAction → Play Answer
  | .whole b, action => onWhole take step b action
  | .core c, .clone name => do
      Script.change (·.retain (.core c))
      namePerformer name (.core c)
      return .nothing
  | .core c, action => onCore take step c action

/-- Take a step on a behaviour. -/
def takeBehaviour (step : Step) : BehaviourAction → Play Answer
  | .makeScale corners gravity alpha => withAlpha alpha fun alpha => do
      let corners ← Script.check corners.toFixed
      nameWhole step (← Script.makeScale (host take) corners gravity alpha)
  | .makeFixedScale corners gravity alpha => withAlpha alpha fun alpha => do
      nameWhole step (← Script.makeScale (host take) corners gravity alpha)
  | .makeOpacity bounds alpha => withAlpha alpha fun alpha => do
      nameWhole step (← Script.makeOpacity (host take) bounds alpha)
  | .makeCustom alpha => withAlpha alpha fun alpha => do
      let callback ← addReaction (reactionTo step)
      nameWhole step (← Script.makeCustom (host take) callback alpha)
  | .makeCore => do
      let c ← Script.produce (·.addCore)
      namePerformer step.subject (.core c)
      return .nothing
  | .drop => do
      dropPerformer step.subject
      return .nothing
  | action => do
      match (← current).performers.find? step.subject with
      | none => unnamed
      | some p => Script.holding [p.handle] (onPerformer take step p action)

/-- Whether a behaviour known by a name that does not keep it is still there. -/
def takeObserved (step : Step) : Play Answer := do
  match (← current).observed.find? step.subject with
  | none => unnamed
  | some b =>
      let s ← Script.stage
      return .observed (s.isAlive (.behaviour b)) (s.describeObserved b)

end Animation.Session
