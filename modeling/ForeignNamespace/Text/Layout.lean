/-!
The layout of display texts: records, lists, optional values and variants with an argument.
-/

namespace ForeignNamespace.Layout

/-- A list shows its items between brackets, with a comma and a blank between two of them. -/
def list (items : List String) : String :=
  "[" ++ ", ".intercalate items ++ "]"

/-- A variant with one argument shows the argument in parentheses behind its name. -/
def variant (name argument : String) : String :=
  name ++ "(" ++ argument ++ ")"

/-- An optional value shows `None`, or `Some` with the value in parentheses. -/
def option : Option String → String
  | none => "None"
  | some text => variant "Some" text

/-- A record shows its name and, between braces, each field as name, colon and value. -/
def record (name : String) (fields : List (String × String)) : String :=
  let shown := fields.map fun field => field.1 ++ ": " ++ field.2
  name ++ " \x7b " ++ ", ".intercalate shown ++ " \x7d"

/-- A truth value inside a record. -/
def flag (b : Bool) : String :=
  if b then "true" else "false"

end ForeignNamespace.Layout
