/-
# The events of a timeline

What a timeline lets handlers know: that it starts to play, that it stands on a new
frame, that it has reached the end of its run, and that its playing is paused.
-/

namespace Animation

/-- An event of a timeline. -/
inductive TimelineEvent where
  | started
  | newFrame
  | completed
  | paused
  deriving DecidableEq, Repr

namespace TimelineEvent

def all : List TimelineEvent := [started, newFrame, completed, paused]

/-- The name under which handlers are registered. -/
def name : TimelineEvent → String
  | started => "started"
  | newFrame => "new-frame"
  | completed => "completed"
  | paused => "paused"

end TimelineEvent

end Animation
