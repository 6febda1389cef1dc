import ForeignNamespace.Number.Decimal
import ForeignNamespace.Text.Layout
import ForeignNamespace.Text.Quoted

/-!
The configuration of an importer and of the nodes it has made.
-/

namespace ForeignNamespace

structure Config where
  /-- The attribute that asks a namespace for its exported names. -/
  allMarker : String := "__all__"
  /-- The `__file__` of a node. -/
  fileMarker : String := "<foreign>"
  /-- Above zero, the decisions of the import hook are logged loudly. -/
  verbose : UInt32 := 0
deriving DecidableEq, Repr

namespace Config

instance : Inhabited Config := ⟨{}⟩

/-- Reads a configuration by variable name.  An empty value counts as absent, and a verbosity that
is no number of thirty-two bits is zero. -/
def ofLookup (lookup : String → Option String) : Config :=
  let get (key : String) := (lookup key).filter (· ≠ "")
  { allMarker := (get "NSBRIDGE_ALL_MARKER").getD "__all__"
    fileMarker := (get "NSBRIDGE_FILE_MARKER").getD "<foreign>"
    verbose := ((get "NSBRIDGE_VERBOSE").bind Decimal.readWord32?).getD 0 }

def isVerbose (c : Config) : Bool := 0 < c.verbose

def text (c : Config) : String :=
  Layout.record "BridgeConfig"
    [("all_marker", Quoted.quote c.allMarker), ("file_marker", Quoted.quote c.fileMarker),
     ("verbose", toString c.verbose.toNat)]

end ForeignNamespace.Config
