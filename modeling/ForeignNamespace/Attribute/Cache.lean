import ForeignNamespace.Bridge
import ForeignNamespace.Liveness

/-!
What a node keeps: binding, unbinding and looking up short names, and listing the exported names.
-/

namespace ForeignNamespace.NodeId

/-- Binds an attribute.  A node is bound by its name. -/
def setAttr (n : NodeId) (attr : String) (value : Value) : Bridge Unit :=
  Bridge.modify fun w =>
    w.updateNode n (·.bind attr (Binding.ofValue (fun m => (w.node m).name) value))

def bindSubmodule (n : NodeId) (attr name : String) : Bridge Unit :=
  Bridge.modify (·.updateNode n (·.bind attr (.submodule name)))

def isCached (n : NodeId) (attr : String) : Bridge Bool := do
  return ((← Bridge.world).node n).cache.contains attr

/-- Unbinds an attribute; the answer is whether it was bound. -/
def delAttr (n : NodeId) (attr : String) : Bridge Bool := do
  let bound ← n.isCached attr
  Bridge.modify (·.updateNode n (·.unbind attr))
  return bound

/-- What is kept under a short name.  A node kept by name is fetched from the registry; if it is
there no more, the name is unbound. -/
def cached? (n : NodeId) (attr : String) : Bridge (Option Value) := do
  let w ← Bridge.world
  match (w.node n).cache[attr]? with
  | none => return none
  | some (.value v) => return some v
  | some (.submodule name) =>
    match (w.registryOf? n).bind (w.lookup · name) with
    | some m => return some (.node m)
    | none =>
      Bridge.modify (·.updateNode n (·.unbind attr))
      Bridge.report (.staleSubmodule (w.node n).name attr)
      return none

/-- The exported names: the sub-packages, then the last segments of the classes.  A name that is
both stands there twice. -/
def listNames (n : NodeId) : Bridge (List String) := do
  let node := (← Bridge.world).node n
  match node.enquirer with
  | none => return []
  | some e =>
    let subPackages ← Host.subPackages e node.name
    let classes ← Host.classNames e node.name
    return subPackages.getD [] ++ (classes.getD []).map leafName

end ForeignNamespace.NodeId
