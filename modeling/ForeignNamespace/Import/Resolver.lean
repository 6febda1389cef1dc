import ForeignNamespace.Attribute.Resolution
import ForeignNamespace.Import.Hook

/-!
Imports.

A registered name is answered from the registry.  For any other name the enclosing packages are
imported first, then the finders of the meta path are asked in order, and the node is bound on its
parent.
-/

namespace ForeignNamespace

namespace Finder

def claims (name : String) : Finder → Bridge Bool
  | .hook i => i.claims name
  | .host f _ => Host.finderClaims f name

def load (name : String) : Finder → Bridge (Except ImportError NodeId)
  | .hook i => i.load name
  | .host f _ => Host.finderLoads f name

end Finder

def Resolver.hook? (resolver : Resolver) : Option ImporterId :=
  resolver.metaPath.findSome? Finder.importer?

/-- The display text of a resolver with a number of registered nodes. -/
def Resolver.text (resolver : Resolver) (registered : Nat) : String :=
  Layout.record "ImportResolver"
    [("modules", toString registered), ("meta_path", toString resolver.metaPath.length)]

namespace ResolverId

/-- Makes a resolver over a registry, with an empty meta path. -/
def create (r : RegistryId) : Bridge ResolverId := do
  let w ← Bridge.world
  Bridge.modify (·.addResolver { registry := r, metaPath := [] })
  return ⟨w.resolvers.next⟩

/-- Puts an importer in front of the meta path, unless an importer is there already; the answer is
whether it was put there. -/
def install (s : ResolverId) (i : ImporterId) : Bridge Bool := do
  let resolver := (← Bridge.world).resolver s
  if resolver.hook?.isSome then return false
  else
    Bridge.modify (·.updateResolver s fun resolver =>
      { resolver with metaPath := .hook i :: resolver.metaPath })
    Bridge.report (.hookInstalled (resolver.metaPath.length + 1))
    return true

/-- Builds an importer over the resolver's registry and installs it, unless one is there. -/
def setup (s : ResolverId) (enquirer : Option EnquirerId) : Bridge (Except ImportError Bool) := do
  let resolver := (← Bridge.world).resolver s
  if resolver.hook?.isSome then
    Bridge.report .hookAlreadyInstalled
    return .ok false
  else
    match ← ImporterId.build resolver.registry { enquirer } with
    | .error error => return .error error
    | .ok i => return .ok (← s.install i)

/-- Appends a finder of the host to the meta path. -/
def pushFinder (s : ResolverId) (f : FinderId) (keeps : List RegistryId) : Bridge Unit :=
  Bridge.modify (·.updateResolver s fun resolver =>
    { resolver with metaPath := resolver.metaPath ++ [.host f keeps] })

def lookup (s : ResolverId) (name : String) : Bridge (Option NodeId) := do
  let w ← Bridge.world
  return w.lookup (w.resolver s).registry name

/-- Binds an imported node on the node registered under its parent's name. -/
def bindOnParent (s : ResolverId) (name : String) (n : NodeId) : Bridge Unit := do
  match parentPackage? name with
  | none => return ()
  | some parent =>
    match ← s.lookup parent with
    | none => return ()
    | some p => p.bindSubmodule (leafName name) ((← Bridge.world).node n).name

/-- Asks finders in order for the node of a name. -/
def importBy (s : ResolverId) (name : String) : List Finder → Bridge (Except ImportError NodeId)
  | [] => do
    Bridge.report (.unclaimed name)
    return .error (.moduleNotFound name)
  | finder :: others => do
    if ← finder.claims name then
      match ← finder.load name with
      | .error error => return .error error
      | .ok n =>
        s.bindOnParent name n
        return .ok n
    else s.importBy name others

/-- Imports one name, whose enclosing packages are imported. -/
def importOne (s : ResolverId) (name : String) : Bridge (Except ImportError NodeId) := do
  match ← s.lookup name with
  | some n => return .ok n
  | none => s.importBy name ((← Bridge.world).resolver s).metaPath

/-- Imports names in order and then one more, whose node is the answer. -/
def importAll (s : ResolverId) (last : String) : List String → Bridge (Except ImportError NodeId)
  | [] => s.importOne last
  | name :: names => do
    match ← s.importOne name with
    | .error error => return .error error
    | .ok _ => s.importAll last names

def importName (s : ResolverId) (name : String) : Bridge (Except ImportError NodeId) := do
  match ← s.lookup name with
  | some n => return .ok n
  | none =>
    match DottedName.parse name with
    | none => return .error (.invalidName name)
    | some dotted => s.importAll dotted.fullName dotted.ancestors

/-- Imports a name from a node: its attribute, else the child of that name. -/
def importFrom (s : ResolverId) (n : NodeId) (name : String) :
    Bridge (Except ImportError Value) := do
  match ← n.getAttr name with
  | .ok value => return .ok value
  | .error error =>
    if error.isNotFound then
      match ← s.importName (childName ((← Bridge.world).node n).name name) with
      | .ok child => return .ok (.node child)
      | .error childError => return .error (if childError.isNotFound then error else childError)
    else return .error error

/-- Imports several names from a node, each with its value; the first error ends it. -/
def importEach (s : ResolverId) (n : NodeId) :
    List String → Bridge (Except ImportError (List (String × Value)))
  | [] => return .ok []
  | name :: names => do
    match ← s.importFrom n name with
    | .error error => return .error error
    | .ok value =>
      match ← s.importEach n names with
      | .error error => return .error error
      | .ok bindings => return .ok ((name, value) :: bindings)

/-- Imports every exported name of a node. -/
def importStar (s : ResolverId) (n : NodeId) :
    Bridge (Except ImportError (List (String × Value))) := do
  match ← n.getAttr ((← Bridge.world).config n).allMarker with
  | .error error => return .error error
  | .ok exported =>
    match exported.asList? with
    | none => return .ok []
    | some items => s.importEach n (items.filterMap Value.asStr?)

end ForeignNamespace.ResolverId
