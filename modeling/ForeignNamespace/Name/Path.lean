/-!
Names as paths through packages: the name of a child, the enclosing package and the last segment
of a name.  The names need not be well-formed.
-/

namespace ForeignNamespace

/-- The name of a child: behind its parent's name and a dot, or alone under the empty root. -/
def childName (parent child : String) : String :=
  if parent = "" then child else parent ++ "." ++ child

def cutLastDot : List Char → Option (List Char × List Char)
  | [] => none
  | c :: cs =>
    match cutLastDot cs with
    | some (before, behind) => some (c :: before, behind)
    | none => if c = '.' then some ([], cs) else none

/-- The enclosing package; a name without a dot has none. -/
def parentPackage? (name : String) : Option String :=
  (cutLastDot name.toList).map fun cut => String.ofList cut.1

def leafName (name : String) : String :=
  match cutLastDot name.toList with
  | some (_, leaf) => String.ofList leaf
  | none => name

/-- The text behind the last dot, found from the end. -/
def simpleName (name : String) : String :=
  String.ofList (name.toList.reverse.takeWhile (· ≠ '.')).reverse

end ForeignNamespace
