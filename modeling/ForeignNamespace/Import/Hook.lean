import ForeignNamespace.Lifecycle

/-!
The import hook: it claims the names that its enquirer knows and makes nodes for them.
-/

namespace ForeignNamespace

structure ImporterPlan where
  enquirer : Option EnquirerId := none
  classes : Option ClassResolverId := none
  config : Config := {}

/-- The display text of an importer whose enquirer can load modules or cannot. -/
def Importer.text (importer : Importer) (loadsModules : Bool) : String :=
  Layout.record "ForeignImporter"
    [("enquirer", Layout.record "Enquirer" [("modules", Layout.flag loadsModules)]),
     ("classes", Layout.flag importer.classes.isSome), ("config", importer.config.text)]

namespace ImporterId

/-- Builds an importer over a registry.  Without an enquirer of its own it takes the default one. -/
def build (r : RegistryId) (plan : ImporterPlan) : Bridge (Except ImportError ImporterId) := do
  let w ← Bridge.world
  match plan.enquirer.or w.defaultEnquirer with
  | none => return .error .noEnquirer
  | some enquirer =>
    Bridge.modify (·.addImporter
      { registry := r, enquirer, classes := plan.classes, config := plan.config })
    return .ok ⟨w.importers.next⟩

def decide (i : ImporterId) (name : String) (decision : HookDecision) : Bridge Unit := do
  Bridge.report (.hook name decision ((← Bridge.world).importer i).config.isVerbose)

/-- Whether the hook claims a name: it is a foreign package or a foreign module. -/
def claims (i : ImporterId) (name : String) : Bridge Bool := do
  let e := ((← Bridge.world).importer i).enquirer
  let known ← if ← Host.isPackage e name then pure true else Host.knowsModule e name
  i.decide name (if known then .claimed else .declined)
  return known

/-- Makes the node of a name: the registered one, else a foreign-backed one if the name is a
foreign module, else a bridge-only one.  The load of a foreign module may register the module by
itself; then nothing is made. -/
def load (i : ImporterId) (name : String) : Bridge (Except ImportError NodeId) := do
  let w ← Bridge.world
  let importer := w.importer i
  match w.lookup importer.registry name with
  | some existing =>
    i.decide name .cached
    return .ok existing
  | none =>
    if ← Host.knowsModule importer.enquirer name then
      i.decide name .loadingModule
      match ← Host.loadModule importer.enquirer name with
      | .error error => return .error (.foreign error)
      | .ok handle =>
        let n ← match ← importer.registry.get name with
          | some registered => pure registered
          | none => importer.registry.makeForeign name handle
        importer.registry.patch n (some i) (some importer.enquirer)
        return .ok n
    else
      i.decide name .bridgePackage
      return .ok (← importer.registry.makeLoaded name (some i) (some importer.enquirer))

end ForeignNamespace.ImporterId
