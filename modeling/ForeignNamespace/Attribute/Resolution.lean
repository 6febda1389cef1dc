import ForeignNamespace.Attribute.Cache
import ForeignNamespace.Lifecycle

/-!
Finding an attribute of a node.

The strategies are tried in the order of `Strategy.chain`.  The first that finds something decides;
one that finds nothing passes on to the next, and an error other than not-found ends the search.
-/

namespace ForeignNamespace

namespace NodeId

/-- Asks the foreign handle.  A falsy answer counts as none. -/
def delegate (n : NodeId) (attr : String) : Bridge (Except ImportError Resolution) := do
  let node := (← Bridge.world).node n
  match node.handle with
  | none => return .ok .notFound
  | some handle =>
    match ← Host.getAttr handle attr with
    | .error error => return .error (.foreign error)
    | .ok none => return .ok .notFound
    | .ok (some value) =>
      if ← value.isTruthy then
        n.setAttr attr value
        return .ok (.found value)
      else
        Bridge.report (.falsyAttribute node.name attr)
        return .ok .notFound

/-- The metadata of a node without a foreign handle. -/
def native (n : NodeId) (attr : String) : Bridge Resolution := do
  let w ← Bridge.world
  let node := w.node n
  if node.isForeignBacked then return .notFound
  else return .ofOption (Node.metadata? node.name (w.config n) attr)

/-- Loads a foreign module unless a node is registered under its name.  The load may register the
module by itself; then nothing is made. -/
def ensureLoaded (r : RegistryId) (e : EnquirerId) (name : String) :
    Bridge (Except ForeignError Unit) := do
  if ← r.contains name then return .ok ()
  else
    match ← Host.loadModule e name with
    | .error error => return .error error
    | .ok handle =>
      if !(← r.contains name) then
        let _ ← r.makeForeign name handle
      return .ok ()

/-- Takes the node registered under a child's name over: it gets the node's loader and the
enquirer, and is bound on the node. -/
def adopt (n : NodeId) (r : RegistryId) (e : EnquirerId) (attr name : String) :
    Bridge Resolution := do
  match ← r.get name with
  | none => return .notFound
  | some child =>
    let loader := ((← Bridge.world).node n).loader
    r.patch child loader (some e)
    n.bindSubmodule attr name
    return .found (.node child)

/-- Promotes a child's name that is a foreign module to a foreign-backed node. -/
def foreignModule (n : NodeId) (attr : String) : Bridge (Except ImportError Resolution) := do
  let node := (← Bridge.world).node n
  match node.enquirer with
  | none => return .ok .notFound
  | some e =>
    let name := childName node.name attr
    if ← Host.knowsModule e name then
      match (← Bridge.world).registryOf? n with
      | none => return .ok .notFound
      | some r =>
        Bridge.holding (.registry r) do
          match ← ensureLoaded r e name with
          | .error error => return .error (.foreign error)
          | .ok () => return .ok (← n.adopt r e attr name)
    else return .ok .notFound

/-- Makes a node for a sub-package, unless one is registered already. -/
def subPackage (n : NodeId) (attr : String) : Bridge Resolution := do
  let node := (← Bridge.world).node n
  match node.enquirer with
  | none => return .notFound
  | some e =>
    if ((← Host.subPackages e node.name).getD []).contains attr then
      let w ← Bridge.world
      match w.registryOf? n with
      | none => return .notFound
      | some r =>
        let name := childName node.name attr
        let child ← match w.lookup r name with
          | some existing => pure existing
          | none => r.makeLoaded name (w.node n).loader (some e)
        n.bindSubmodule attr name
        return .found (.node child)
    else return .notFound

/-- Lists the exported names, if the attribute is the marker that asks for them. -/
def exportMarker (n : NodeId) (attr : String) : Bridge Resolution := do
  if ((← Bridge.world).config n).allMarker == attr then
    return .found (.list ((← n.listNames).map .str))
  else return .notFound

/-- The foreign handle itself; on a node without one, a class. -/
def terminal (n : NodeId) (attr : String) : Bridge (Except ImportError Resolution) := do
  let w ← Bridge.world
  let node := w.node n
  match node.handle with
  | some handle => return .ok (.found (.foreign handle))
  | none =>
    match w.nodeClassResolver? n with
    | none => return .ok .notFound
    | some resolver =>
      match ← Host.resolveClass resolver (childName node.name attr) with
      | .error error => return .error (.foreign error)
      | .ok none => return .ok .notFound
      | .ok (some c) =>
        n.setAttr attr (.classHandle c)
        return .ok (.found (.classHandle c))

end NodeId

def Strategy.apply (n : NodeId) (attr : String) : Strategy → Bridge (Except ImportError Resolution)
  | .cache => return .ok (.ofOption (← n.cached? attr))
  | .foreignDelegate => n.delegate attr
  | .native => return .ok (← n.native attr)
  | .foreignModule => n.foreignModule attr
  | .subPackage => return .ok (← n.subPackage attr)
  | .exportMarker => return .ok (← n.exportMarker attr)
  | .terminal => n.terminal attr

namespace NodeId

/-- Tries strategies in order until one decides. -/
def resolveBy (n : NodeId) (attr : String) : List Strategy → Bridge (Except ImportError Value)
  | [] => do
    let name := ((← Bridge.world).node n).name
    Bridge.report (.attributeNotFound name attr)
    return .error (.attributeNotFound name attr)
  | strategy :: others => do
    match ← strategy.apply n attr with
    | .ok (.found value) =>
      if strategy ≠ .cache then
        Bridge.report (.attributeResolved ((← Bridge.world).node n).name attr strategy)
      return .ok value
    | .ok .notFound => n.resolveBy attr others
    | .error error =>
      if error.isNotFound then
        Bridge.report (.strategyDeclined ((← Bridge.world).node n).name attr strategy error)
        n.resolveBy attr others
      else return .error error

/-- An attribute of a node, which is made on first access. -/
def getAttr (n : NodeId) (attr : String) : Bridge (Except ImportError Value) :=
  n.resolveBy attr Strategy.chain

/-- Whether a node has an attribute; only not-found means no. -/
def hasAttr (n : NodeId) (attr : String) : Bridge (Except ImportError Bool) := do
  match ← n.getAttr attr with
  | .ok _ => return .ok true
  | .error error => return if error.isNotFound then .ok false else .error error

def invoke (n : NodeId) (arguments : List Value) : Bridge (Except ImportError Value) := do
  let node := (← Bridge.world).node n
  match node.handle with
  | none => return .error (.notCallable node.name)
  | some handle => return (← Host.call handle arguments).mapError .foreign

end ForeignNamespace.NodeId
