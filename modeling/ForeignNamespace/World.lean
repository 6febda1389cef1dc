import ForeignNamespace.Arena
import ForeignNamespace.Node

/-!
Everything that can change while the bridge is at work: nodes, registries, importers, resolvers,
the defaults of the process, and what is held from outside.
-/

namespace ForeignNamespace

/-- A registry of nodes by name.  The name need not be the node's own. -/
structure Registry where
  entries : Std.ExtTreeMap String NodeId := ∅
deriving Inhabited

/-- An import hook: it makes the nodes of one registry and asks one enquirer about them. -/
structure Importer where
  registry : RegistryId
  enquirer : EnquirerId
  /-- The class resolver of its own, in front of the default one. -/
  classes : Option ClassResolverId
  config : Config
deriving Inhabited, DecidableEq, Repr

inductive Finder where
  | hook (i : ImporterId)
  /-- A finder of the host, with the registries that it keeps alive. -/
  | host (f : FinderId) (keeps : List RegistryId)
deriving DecidableEq, Repr

def Finder.importer? : Finder → Option ImporterId
  | .hook i => some i
  | .host .. => none

/-- A resolver of imports: a registry and the finders that are asked about unknown names. -/
structure Resolver where
  registry : RegistryId
  metaPath : List Finder
deriving Inhabited, DecidableEq, Repr

inductive Handle where
  | registry (r : RegistryId)
  | importer (i : ImporterId)
  | resolver (s : ResolverId)
deriving DecidableEq, Repr

/-- All of the mutable state. -/
structure World where
  nodes : Arena Node := {}
  registries : Arena Registry := {}
  importers : Arena Importer := {}
  resolvers : Arena Resolver := {}
  defaultEnquirer : Option EnquirerId := none
  defaultClasses : Option ClassResolverId := none
  /-- What is held from outside; a thing held twice is listed twice. -/
  holds : List Handle := []

namespace World

/-- The world at the start of a process: its registry and its resolver are there and stay. -/
def fresh : World where
  registries := Arena.push {} {}
  resolvers := Arena.push {} { registry := .processWide, metaPath := [] }
  holds := [.resolver .processWide]

def node (w : World) (n : NodeId) : Node := w.nodes.get n.index

def registry (w : World) (r : RegistryId) : Registry := w.registries.get r.index

def importer (w : World) (i : ImporterId) : Importer := w.importers.get i.index

def resolver (w : World) (s : ResolverId) : Resolver := w.resolvers.get s.index

def lookup (w : World) (r : RegistryId) (name : String) : Option NodeId :=
  (w.registry r).entries[name]?

/-- The node that the next creation yields. -/
def nextNode (w : World) : NodeId := ⟨w.nodes.next⟩

def addNode (w : World) (node : Node) : World := { w with nodes := w.nodes.push node }

def addImporter (w : World) (importer : Importer) : World :=
  { w with importers := w.importers.push importer }

def addRegistry (w : World) : World := { w with registries := w.registries.push {} }

def addResolver (w : World) (resolver : Resolver) : World :=
  { w with resolvers := w.resolvers.push resolver }

def updateNode (w : World) (n : NodeId) (change : Node → Node) : World :=
  { w with nodes := w.nodes.set n.index (change (w.node n)) }

def updateRegistry (w : World) (r : RegistryId) (change : Registry → Registry) : World :=
  { w with registries := w.registries.set r.index (change (w.registry r)) }

def updateResolver (w : World) (s : ResolverId) (change : Resolver → Resolver) : World :=
  { w with resolvers := w.resolvers.set s.index (change (w.resolver s)) }

def register (w : World) (r : RegistryId) (name : String) (n : NodeId) : World :=
  w.updateRegistry r fun reg => { entries := reg.entries.insert name n }

def unregister (w : World) (r : RegistryId) (name : String) : World :=
  w.updateRegistry r fun reg => { entries := reg.entries.erase name }

/-- Keeps something alive from outside. -/
def hold (w : World) (h : Handle) : World := { w with holds := h :: w.holds }

def release (w : World) (h : Handle) : World := { w with holds := w.holds.erase h }

end ForeignNamespace.World
