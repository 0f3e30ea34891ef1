/-
# Texts of structures

The text of a structure is its name, and in braces its fields with their values.
-/

namespace Animation.Text

/-- The name of a structure and its fields in order, each with the text of its value. -/
def record (name : String) (fields : List (String × String)) : String :=
  name ++ " \x7b " ++ String.intercalate ", " (fields.map fun (field, value) =>
    field ++ ": " ++ value) ++ " \x7d"

/-- The values of a list in brackets. -/
def list (values : List String) : String := "[" ++ String.intercalate ", " values ++ "]"

/-- Two values in parentheses. -/
def pair (first second : String) : String := "(" ++ first ++ ", " ++ second ++ ")"

/-- The text of a truth value. -/
def bool (b : Bool) : String := if b then "true" else "false"

end Animation.Text
