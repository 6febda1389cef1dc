import ForeignNamespace.Config
import ForeignNamespace.Value
import Std.Data.ExtTreeMap

/-!
Namespace nodes.

A node stands for a module or a package.  It keeps what was found on it by short name; another node
is kept by its full name only and fetched from the registry again on every access.
-/

namespace ForeignNamespace

/-- What a node keeps under a short name. -/
inductive Binding where
  | value (v : Value)
  /-- The node registered under a full name. -/
  | submodule (name : String)
deriving Inhabited, Repr

/-- The binding of a value: a node is bound by name, anything else as it is. -/
def Binding.ofValue (nodeName : NodeId → String) : Value → Binding
  | .node n => .submodule (nodeName n)
  | v => .value v

/-- A namespace node.  The registry and the loader are not kept alive by it. -/
structure Node where
  name : String
  /-- The foreign module behind the node; a bridge-only node has none. -/
  handle : Option ObjectId
  /-- The registry that the node was made on. -/
  registry : RegistryId
  /-- Who is asked about unknown attributes. -/
  enquirer : Option EnquirerId
  /-- The importer that made or patched the node. -/
  loader : Option ImporterId
  cache : Std.ExtTreeMap String Binding
deriving Inhabited

namespace Node

/-- The metadata that every node answers for itself. -/
def metadata? (name : String) (config : Config) : String → Option Value
  | "__name__" => some (.str name)
  | "__file__" => some (.str config.fileMarker)
  | "__path__" => some (.list [])
  | "__package__" | "__loader__" => some .none
  | _ => none

def metadataNames : List String :=
  ["__name__", "__file__", "__path__", "__package__", "__loader__"]

/-- A node without a foreign handle. -/
def bridge (name : String) (registry : RegistryId) (loader : Option ImporterId)
    (enquirer : Option EnquirerId) : Node :=
  { name, registry, loader, enquirer, handle := none, cache := ∅ }

/-- A node around a foreign handle, with neither loader nor enquirer.  Its metadata is bound from
the start, so it hides what the handle has under the same names. -/
def foreignBacked (name : String) (registry : RegistryId) (handle : ObjectId) : Node :=
  { name, registry, handle := some handle, loader := none, enquirer := none
    cache := metadataNames.foldl (fun cache attr =>
      match metadata? name {} attr with
      | some v => cache.insert attr (.value v)
      | none => cache) ∅ }

def isForeignBacked (node : Node) : Bool := node.handle.isSome

/-- The names that the node keeps something under, in order. -/
def cachedNames (node : Node) : List String := node.cache.keys

def bind (node : Node) (attr : String) (binding : Binding) : Node :=
  { node with cache := node.cache.insert attr binding }

def unbind (node : Node) (attr : String) : Node :=
  { node with cache := node.cache.erase attr }

def text (typeOf : ObjectId → String) (node : Node) : String :=
  Layout.record "NamespaceNode"
    [("name", Quoted.quote node.name),
     ("foreign", Layout.option (node.handle.map fun o => "<foreign " ++ typeOf o ++ ">")),
     ("cached", toString node.cache.size)]

end ForeignNamespace.Node
