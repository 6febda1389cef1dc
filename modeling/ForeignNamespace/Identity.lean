/-!
Identities.

Nodes, registries, importers and resolvers belong to the library and are numbered in order of
creation.  Foreign objects, enquirers, class resolvers, finders, scripts and projects belong to the
host, which chooses their numbers.
-/

namespace ForeignNamespace

structure NodeId where
  index : Nat
deriving DecidableEq, Inhabited, Repr

structure RegistryId where
  index : Nat
deriving DecidableEq, Inhabited, Repr

structure ImporterId where
  index : Nat
deriving DecidableEq, Inhabited, Repr

structure ResolverId where
  index : Nat
deriving DecidableEq, Inhabited, Repr

structure ObjectId where
  index : Nat
deriving DecidableEq, Inhabited, Repr

/-- A source of knowledge about the foreign namespace. -/
structure EnquirerId where
  index : Nat
deriving DecidableEq, Inhabited, Repr

structure ClassResolverId where
  index : Nat
deriving DecidableEq, Inhabited, Repr

/-- A finder that the host has put on a meta path. -/
structure FinderId where
  index : Nat
deriving DecidableEq, Inhabited, Repr

/-- A script that the host can load. -/
structure ScriptId where
  index : Nat
deriving DecidableEq, Inhabited, Repr

/-- A project that scripts run against. -/
structure ProjectId where
  index : Nat
deriving DecidableEq, Inhabited, Repr

/-- The registry that belongs to the whole process. -/
def RegistryId.processWide : RegistryId := ⟨0⟩

/-- The resolver that belongs to the whole process. -/
def ResolverId.processWide : ResolverId := ⟨0⟩

end ForeignNamespace
