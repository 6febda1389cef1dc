import ForeignNamespace.Import.Resolver

/-!
The state of the whole process: default collaborators, and the one registry and resolver that need
not be named.
-/

namespace ForeignNamespace.ProcessWide

/-- Sets the default enquirer; the answer is the one before. -/
def setDefaultEnquirer (e : EnquirerId) : Bridge (Option EnquirerId) := do
  let w ← Bridge.world
  Bridge.modify fun w => { w with defaultEnquirer := some e }
  return w.defaultEnquirer

/-- Sets the default class resolver; the answer is the one before. -/
def setDefaultClasses (c : ClassResolverId) : Bridge (Option ClassResolverId) := do
  let w ← Bridge.world
  Bridge.modify fun w => { w with defaultClasses := some c }
  return w.defaultClasses

def setup (enquirer : Option EnquirerId) : Bridge (Except ImportError Bool) :=
  ResolverId.processWide.setup enquirer

def registerForeign (name : String) (handle : ObjectId) : Bridge (Except ImportError NodeId) :=
  RegistryId.processWide.registerForeign name handle

def unregisterForeign (name : String) : Bridge (Except ImportError NodeId) :=
  RegistryId.processWide.unregisterForeign name

def teardown : Bridge Nat := RegistryId.processWide.teardown

end ForeignNamespace.ProcessWide
