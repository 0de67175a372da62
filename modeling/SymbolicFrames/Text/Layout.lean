-- How compound things are laid out in messages and logs: lists in square brackets,
-- parts of an unnamed group in round ones, named fields in curly ones.

namespace SymbolicFrames.Text

/-- Items as in `a, b, c`. -/
def commaSeparated (items : List String) : String :=
  ", ".intercalate items

/-- Items as in `[a, b, c]`. -/
def list (items : List String) : String :=
  "[" ++ commaSeparated items ++ "]"

/-- Parts as in `Head(a, b)`. With an empty head it is a tuple. -/
def group (head : String) (items : List String) : String :=
  head ++ "(" ++ commaSeparated items ++ ")"

/-- A field of a record: its label and the text of its content. -/
abbrev Field := String × String

/-- The head, then every field as `label: content` between curly brackets. -/
def record (head : String) (fields : List Field) : String :=
  head ++ " \x7b " ++ commaSeparated (fields.map fun f => f.1 ++ ": " ++ f.2) ++ " \x7d"

/-- Either `None` or `Some(a)`. -/
def option : Option String → String
  | none => "None"
  | some item => group "Some" [item]

end SymbolicFrames.Text
