import ForeignNamespace.World

/-!
What is alive.

A resolver lives while it is held from outside.  It keeps its registry and the finders of its meta
path alive, and an importer keeps its registry alive.  Nodes keep nothing alive, so the loader and
the registry of a node may be gone.
-/

namespace ForeignNamespace

def Finder.keeps : Finder → List Handle
  | .hook i => [.importer i]
  | .host _ registries => registries.map .registry

namespace World

/-- What a thing keeps alive directly. -/
def keeps (w : World) : Handle → List Handle
  | .registry _ => []
  | .importer i => [.registry (w.importer i).registry]
  | .resolver s =>
    .registry (w.resolver s).registry :: (w.resolver s).metaPath.flatMap Finder.keeps

/-- Whether a thing is held from outside, or kept alive by something held in two steps at most.
More steps lead nowhere: resolvers are kept by nothing, and registries keep nothing. -/
def isAlive (w : World) (h : Handle) : Bool :=
  w.holds.any fun a => a == h || (w.keeps a).any fun b => b == h || (w.keeps b).contains h

def liveLoader? (w : World) (n : NodeId) : Option ImporterId :=
  (w.node n).loader.filter fun i => w.isAlive (.importer i)

def registryOf? (w : World) (n : NodeId) : Option RegistryId :=
  if w.isAlive (.registry (w.node n).registry) then some (w.node n).registry else none

/-- The configuration of a node: that of its loader, or the default one. -/
def config (w : World) (n : NodeId) : Config :=
  match w.liveLoader? n with
  | some i => (w.importer i).config
  | none => {}

/-- The class resolver of an importer: its own, or the default one. -/
def classResolver? (w : World) (i : ImporterId) : Option ClassResolverId :=
  (w.importer i).classes.or w.defaultClasses

/-- Whom a node asks about classes: its loader's class resolver, or the default one. -/
def nodeClassResolver? (w : World) (n : NodeId) : Option ClassResolverId :=
  match w.liveLoader? n with
  | some i => w.classResolver? i
  | none => w.defaultClasses

end ForeignNamespace.World
