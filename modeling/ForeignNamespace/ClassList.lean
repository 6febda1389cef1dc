import ForeignNamespace.Error
import ForeignNamespace.Name.Dotted
import ForeignNamespace.Name.Path
import ForeignNamespace.Value
import Std.Data.ExtTreeMap
import Std.Data.ExtTreeSet

/-!
A foreign namespace given by a list of class names.

Every proper prefix of a class name is a package.  Names that are malformed or have one segment
only are passed over.  Foreign modules can be attached, and a list with at least one of them can
load modules.
-/

namespace ForeignNamespace

/-- What a package holds directly: the last segments of its sub-packages and the full names of its
classes, both in order. -/
structure Package where
  subPackages : Std.ExtTreeSet String := ∅
  classes : Std.ExtTreeSet String := ∅
deriving Inhabited

/-- An index of class names by package.  The empty name stands for the root, which holds the
top-level packages. -/
structure ClassList where
  packages : Std.ExtTreeMap String Package := ∅
  classes : Std.ExtTreeSet String := ∅
  modules : Std.ExtTreeMap String ObjectId := ∅

namespace ClassList

/-- Changes a package, which is made first if it is new. -/
def updatePackage (l : ClassList) (name : String) (change : Package → Package) : ClassList :=
  { l with packages := l.packages.insert name (change (l.packages.getD name {})) }

/-- Makes the package of the first `depth + 1` segments known, and known to its parent. -/
def linkPackage (name : DottedName) (l : ClassList) (depth : Nat) : ClassList :=
  (l.updatePackage (name.firstSegments depth) fun p =>
      { p with subPackages := p.subPackages.insert ((name.segment? depth).getD "") }).updatePackage
    (name.firstSegments (depth + 1)) id

def addClass (l : ClassList) (text : String) : ClassList :=
  match DottedName.parse text with
  | none => l
  | some name =>
    if name.isSimple || l.classes.contains text then l
    else
      let parent := name.firstSegments (name.depth - 1)
      let filed := { l with classes := l.classes.insert text }.updatePackage parent fun p =>
        { p with classes := p.classes.insert text }
      (List.range (name.depth - 1)).foldl (linkPackage name) filed

def ofNames (names : List String) : ClassList :=
  names.foldl addClass {}

def withModule (l : ClassList) (name : String) (handle : ObjectId) : ClassList :=
  { l with modules := l.modules.insert name handle }

def size (l : ClassList) : Nat := l.classes.size

def isEmpty (l : ClassList) : Bool := l.classes.isEmpty

/-- Whether a name is a package; the root is none. -/
def isPackage (l : ClassList) (name : String) : Bool :=
  name != "" && l.packages.contains name

/-- The last segments of the direct sub-packages of a package or the root. -/
def subPackages? (l : ClassList) (name : String) : Option (List String) :=
  (l.packages[name]?).map fun p => p.subPackages.toList

/-- The full names of the classes directly in a package or the root. -/
def classNames? (l : ClassList) (name : String) : Option (List String) :=
  (l.packages[name]?).map fun p => p.classes.toList

def loadsModules (l : ClassList) : Bool := !l.modules.isEmpty

def isModule (l : ClassList) (name : String) : Bool := l.modules.contains name

def loadModule (l : ClassList) (name : String) : Except ForeignError ObjectId :=
  match l.modules[name]? with
  | some handle => .ok handle
  | none => .error
    { kind := "ImportError"
      message := "no foreign module '" ++ name ++ "' in package '" ++
        (parentPackage? name).getD "" ++ "'" }

def resolveClass (l : ClassList) (name : String) : Option ClassHandle :=
  if l.classes.contains name then some { name } else none

end ForeignNamespace.ClassList
