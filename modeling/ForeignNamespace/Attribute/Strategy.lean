import ForeignNamespace.Value

/-!
The strategies by which an attribute is found, and the order in which they are tried.
-/

namespace ForeignNamespace

inductive Strategy where
  /-- What was found before. -/
  | cache
  /-- What the foreign handle has. -/
  | foreignDelegate
  /-- The metadata of a node without a foreign handle. -/
  | native
  /-- A foreign module below the node. -/
  | foreignModule
  /-- A sub-package of the node. -/
  | subPackage
  /-- The list of the exported names. -/
  | exportMarker
  /-- The foreign handle itself, or a class. -/
  | terminal
deriving DecidableEq, Repr

namespace Strategy

/-- The order in which the strategies are tried. -/
def chain : List Strategy :=
  [.cache, .foreignDelegate, .native, .foreignModule, .subPackage, .exportMarker, .terminal]

def name : Strategy → String
  | .cache => "cache"
  | .foreignDelegate => "foreign-delegate"
  | .native => "native"
  | .foreignModule => "foreign-module"
  | .subPackage => "sub-package"
  | .exportMarker => "export-marker"
  | .terminal => "terminal"

def ofName? (name : String) : Option Strategy :=
  chain.find? fun s => s.name == name

def text : Strategy → String
  | .cache => "Cache"
  | .foreignDelegate => "ForeignDelegate"
  | .native => "Native"
  | .foreignModule => "ForeignModule"
  | .subPackage => "SubPackage"
  | .exportMarker => "ExportMarker"
  | .terminal => "Terminal"

end Strategy

inductive Resolution where
  | found (value : Value)
  | notFound
deriving Repr

/-- The answer of a strategy that has found something or not. -/
def Resolution.ofOption : Option Value → Resolution
  | some value => .found value
  | none => .notFound

end ForeignNamespace
