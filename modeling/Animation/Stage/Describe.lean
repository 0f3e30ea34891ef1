/-
# Texts of things on a stage

The text of a thing inside the text of a structure shows the state that it has at the
moment, and that of the things it has handles on. Whoever is shown the text of a core
has its actors counted, and the count goes through them: the entries of actors that are
no longer there are dropped.
-/

import Animation.Stage.Holding
import Animation.Stage.Binding

namespace Animation.Stage

variable (s : Stage)

def describeTimeline (t : Ref .timeline) : String :=
  let clock := (s.timelines.get t).clock
  Text.record "Timeline"
    [("duration", clock.duration.repr), ("fps", clock.fps.repr),
      ("loop", Text.bool clock.repeats), ("direction", clock.direction.describe),
      ("frame", clock.frame.repr), ("n_frames", clock.frames.repr),
      ("behaviours", (s.attachedCount t).repr)]

/-- A value that can be replaced. -/
private def describeCell (value : String) : String := Text.record "RwLock" [("data", value)]

def describeAlpha (a : Ref .alpha) : String :=
  let row := s.alphas.get a
  Text.record "Alpha"
    [("timeline", s.describeTimeline row.timeline),
      ("func", describeCell row.easing.describe)]

def describeNotifier (n : Ref .notifier) : String := (s.notifiers.get n).describe

def describeEmitter (m : Ref .emitter) : String := (s.emitters.get m).describe

def describeCore (c : Ref .core) : String :=
  Text.record "BehaviourCore"
    [("actors", (s.actorsOf c).length.repr), ("alpha", Text.bool (s.boundAlpha? c).isSome),
      ("notifier", s.describeNotifier (s.cores.get c).notifier)]

def describeBehaviour (b : Ref .behaviour) : String :=
  let row := s.behaviours.get b
  let core := s.describeCore row.core
  match row.drive with
  | .scale bounds gravity =>
      Text.record "ScaleBehaviour"
        [("inner", Text.record "ScaleState"
          [("core", core), ("bounds", describeCell bounds.describe),
            ("gravity", describeCell gravity.describe)])]
  | .opacity bounds =>
      Text.record "OpacityBehaviour"
        [("inner", Text.record "OpacityState"
          [("core", core),
            ("bounds", describeCell (bounds.describe fun n => n.toNat.repr))])]
  | .custom _ => "Probe(" ++ core ++ ")"

/-- Show a core. -/
def showCore (c : Ref .core) : Stage × String := (s.pruneActors c, s.describeCore c)

/-- Show a behaviour. -/
def showBehaviour (b : Ref .behaviour) : Stage × String :=
  (s.pruneActors (s.behaviours.get b).core, s.describeBehaviour b)

/-- The text of a handle that does not keep a behaviour there. -/
def describeObserved (b : Ref .behaviour) : String :=
  Text.record "WeakBehaviour" [("alive", Text.bool (s.isAlive (.behaviour b)))]

end Animation.Stage
