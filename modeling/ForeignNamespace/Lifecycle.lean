import ForeignNamespace.Bridge
import ForeignNamespace.Liveness
import ForeignNamespace.Name.Dotted

/-!
Registries at work: looking up, putting in and taking out nodes, making nodes, and ending a foreign
session.

A name stays bound to its node until something is put in its place, it is taken out, or a teardown
removes the foreign-backed nodes.
-/

namespace ForeignNamespace

/-- The registry without its foreign-backed nodes. -/
def Registry.withoutForeign (registry : Registry) (isForeign : NodeId → Bool) : Registry :=
  { entries := registry.entries.filter fun _ n => !isForeign n }

namespace RegistryId

def create : Bridge RegistryId := do
  let w ← Bridge.world
  Bridge.modify (·.addRegistry)
  return ⟨w.registries.next⟩

def get (r : RegistryId) (name : String) : Bridge (Option NodeId) := do
  return (← Bridge.world).lookup r name

def contains (r : RegistryId) (name : String) : Bridge Bool := do
  return ((← Bridge.world).lookup r name).isSome

def size (r : RegistryId) : Bridge Nat := do
  return ((← Bridge.world).registry r).entries.size

def names (r : RegistryId) : Bridge (List String) := do
  return ((← Bridge.world).registry r).entries.keys

/-- Registers a node under a name; the answer is the node that was there before. -/
def put (r : RegistryId) (name : String) (n : NodeId) : Bridge (Option NodeId) := do
  let w ← Bridge.world
  Bridge.report (.registryPut name (w.node n).isForeignBacked)
  Bridge.modify (·.register r name n)
  return w.lookup r name

/-- Takes a name out; the answer is the node that was there. -/
def remove (r : RegistryId) (name : String) : Bridge (Option NodeId) := do
  match (← Bridge.world).lookup r name with
  | none => return none
  | some n =>
    Bridge.modify (·.unregister r name)
    Bridge.report (.registryRemove name)
    return some n

/-- Takes out every foreign-backed node and leaves the others, which outlive the foreign session.
The answer is the number of names taken out. -/
def teardown (r : RegistryId) : Bridge Nat := do
  let w ← Bridge.world
  let before := w.registry r
  let after := before.withoutForeign fun n => (w.node n).isForeignBacked
  let removed := before.entries.size - after.entries.size
  Bridge.modify (·.updateRegistry r fun _ => after)
  Bridge.report (.registryTeardown removed)
  return removed

/-- Makes and registers a node without a foreign handle. -/
def makeLoaded (r : RegistryId) (name : String) (loader : Option ImporterId)
    (enquirer : Option EnquirerId) : Bridge NodeId := do
  let n ← Bridge.create (Node.bridge name r loader enquirer)
  let _ ← r.put name n
  return n

/-- Makes and registers a node with neither a foreign handle nor a loader. -/
def makePlain (r : RegistryId) (name : String) (enquirer : Option EnquirerId) : Bridge NodeId :=
  r.makeLoaded name none enquirer

/-- Makes and registers a foreign-backed node, with neither loader nor enquirer. -/
def makeForeign (r : RegistryId) (name : String) (handle : ObjectId) : Bridge NodeId := do
  let n ← Bridge.create (Node.foreignBacked name r handle)
  let _ ← r.put name n
  return n

/-- Gives a node a loader and an enquirer, and registers it again under its own name. -/
def patch (r : RegistryId) (n : NodeId) (loader : Option ImporterId)
    (enquirer : Option EnquirerId) : Bridge Unit := do
  Bridge.modify (·.updateNode n fun node => { node with loader, enquirer })
  let _ ← r.put ((← Bridge.world).node n).name n

/-- Registers a foreign module that the host pushes in, whatever was registered before. -/
def registerForeign (r : RegistryId) (name : String) (handle : ObjectId) :
    Bridge (Except ImportError NodeId) := do
  if (DottedName.parse name).isNone then
    return .error (.invalidName name)
  else
    Bridge.report (.registering name)
    return .ok (← r.makeForeign name handle)

/-- Takes out a registered module. -/
def unregisterForeign (r : RegistryId) (name : String) : Bridge (Except ImportError NodeId) := do
  Bridge.report (.unregistering name)
  match ← r.remove name with
  | some n => return .ok n
  | none => return .error (.notRegistered name)

end ForeignNamespace.RegistryId
