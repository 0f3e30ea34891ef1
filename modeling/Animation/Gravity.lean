/-
# Gravity

A gravity names one of nine points of a rectangle, toward which a scaled actor
moves, or none.
-/

import Animation.Binary.Arithmetic

namespace Animation

/-- A point of reference on an actor. -/
inductive Gravity where
  | none
  | north
  | northEast
  | east
  | southEast
  | south
  | southWest
  | west
  | northWest
  | center
  deriving DecidableEq, Repr

namespace Gravity

instance : Inhabited Gravity := ⟨center⟩

/-- All gravities, clockwise from the north between `none` and `center`. -/
def all : List Gravity :=
  [none, north, northEast, east, southEast, south, southWest, west, northWest, center]

theorem mem_all (g : Gravity) : g ∈ all := by cases g <;> decide

/-- The word for a gravity. -/
def name : Gravity → String
  | none => "none"
  | north => "north"
  | northEast => "north-east"
  | east => "east"
  | southEast => "south-east"
  | south => "south"
  | southWest => "south-west"
  | west => "west"
  | northWest => "north-west"
  | center => "center"

theorem name_injective {g h : Gravity} (same : g.name = h.name) : g = h := by
  cases g <;> cases h <;> first | rfl | exact absurd same (by decide)

/-- The gravity a word stands for. -/
def ofName? (word : String) : Option Gravity := all.find? (·.name == word)

theorem ofName?_name (g : Gravity) : ofName? g.name = some g := by cases g <;> decide

/-- The text of a gravity inside the text of a structure. -/
def describe : Gravity → String
  | none => "None"
  | north => "North"
  | northEast => "NorthEast"
  | east => "East"
  | southEast => "SouthEast"
  | south => "South"
  | southWest => "SouthWest"
  | west => "West"
  | northWest => "NorthWest"
  | center => "Center"

/-- Where the point lies in a rectangle of the given size, with the origin in the north
west. -/
def anchorPoint (g : Gravity) (width height : Double) : Option (Double × Double) :=
  match g with
  | none => .none
  | north => some (width / 2, 0)
  | northEast => some (width, 0)
  | east => some (width, height / 2)
  | southEast => some (width, height)
  | south => some (width / 2, height)
  | southWest => some (0, height)
  | west => some (0, height / 2)
  | northWest => some (0, 0)
  | center => some (width / 2, height / 2)

end Gravity

end Animation
