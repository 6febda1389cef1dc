/-!
The name of a script, taken from its path.
-/

namespace ForeignNamespace

/-- Both slashes separate the parts of a path. -/
def isPathSeparator (c : Char) : Bool := c = '/' || c = '\\'

/-- The part of a path behind its last separator. -/
def fileName (path : List Char) : List Char :=
  (path.reverse.takeWhile fun c => !isPathSeparator c).reverse

/-- The text without one `.py` at its end. -/
def withoutExtension (file : List Char) : List Char :=
  let extension := ".py".toList
  if extension.isSuffixOf file then file.take (file.length - extension.length) else file

/-- The name of the script at a path: its file name without one `.py` at the end. -/
def scriptName (path : String) : String :=
  String.ofList (withoutExtension (fileName path.toList))

end ForeignNamespace
