/-
# Observable properties

The properties of behaviours that listeners can hear about, and what has to be told
when bounds change: one change for each property that has a new value, in a fixed
order.
-/

import Animation.Notifier
import Animation.Range

namespace Animation

/-- A property of a behaviour that scales. -/
inductive ScaleProperty where
  | xStart
  | yStart
  | xEnd
  | yEnd
  | gravity
  deriving DecidableEq, Repr

namespace ScaleProperty

def all : List ScaleProperty := [xStart, yStart, xEnd, yEnd, gravity]

/-- The name under which listeners hear of a property. -/
def name : ScaleProperty → String
  | xStart => "x-scale-start"
  | yStart => "y-scale-start"
  | xEnd => "x-scale-end"
  | yEnd => "y-scale-end"
  | gravity => "scale-gravity"

/-- The text of a property inside the text of a structure. -/
def describe : ScaleProperty → String
  | xStart => "XScaleStart"
  | yStart => "YScaleStart"
  | xEnd => "XScaleEnd"
  | yEnd => "YScaleEnd"
  | gravity => "ScaleGravity"

end ScaleProperty

/-- A property of a behaviour that fades. -/
inductive OpacityProperty where
  | start
  | finish
  deriving DecidableEq, Repr

/-- The name under which listeners hear of a property. -/
def OpacityProperty.name : OpacityProperty → String
  | start => "opacity-start"
  | finish => "opacity-end"

/-- What to tell when scale bounds are replaced. -/
def ScaleBounds.changes (old new : ScaleBounds) : Batch :=
  Batch.empty
    |>.pushIf (old.x.start != new.x.start) ScaleProperty.xStart.name new.x.start
    |>.pushIf (old.y.start != new.y.start) ScaleProperty.yStart.name new.y.start
    |>.pushIf (old.x.finish != new.x.finish) ScaleProperty.xEnd.name new.x.finish
    |>.pushIf (old.y.finish != new.y.finish) ScaleProperty.yEnd.name new.y.finish

/-- What to tell when opacity bounds are replaced. -/
def Range.opacityChanges (old new : Range UInt8) : Batch :=
  Batch.empty
    |>.pushIf (old.start != new.start) OpacityProperty.start.name new.start
    |>.pushIf (old.finish != new.finish) OpacityProperty.finish.name new.finish

end Animation
