import ForeignNamespace.Attribute.Strategy
import ForeignNamespace.Error
import ForeignNamespace.Script.Failure
import ForeignNamespace.Value

/-!
What the bridge reports of its work while it goes on.

An event is a cause; its level, its message and its fields are read off it.
-/

namespace ForeignNamespace

inductive Level where
  | trace
  | debug
  | warn
  | error
deriving DecidableEq, Repr

def Level.name : Level → String
  | .trace => "TRACE"
  | .debug => "DEBUG"
  | .warn => "WARN"
  | .error => "ERROR"

inductive HookDecision where
  | claimed
  | declined
  | cached
  | loadingModule
  | bridgePackage
deriving DecidableEq, Repr

def HookDecision.name : HookDecision → String
  | .claimed => "claimed"
  | .declined => "declined"
  | .cached => "cached"
  | .loadingModule => "loading foreign module"
  | .bridgePackage => "bridge package"

inductive Event where
  | registryPut (name : String) (foreign : Bool)
  | registryRemove (name : String)
  | registryTeardown (removed : Nat)
  | staleSubmodule (node attr : String)
  | attributeResolved (node attr : String) (strategy : Strategy)
  | strategyDeclined (node attr : String) (strategy : Strategy) (error : ImportError)
  | falsyAttribute (node attr : String)
  | attributeNotFound (node attr : String)
  /-- A decision of an import hook, and whether its configuration asks for loud decisions. -/
  | hook (name : String) (decision : HookDecision) (loud : Bool)
  | hookAlreadyInstalled
  | hookInstalled (finders : Nat)
  | unclaimed (name : String)
  | registering (name : String)
  | unregistering (name : String)
  | libraryFailed (library path : String) (error : ForeignError)
  | libraryInstalled (library : String)
  | runningScript (script path : String)
  | scriptReturned (script : String) (result : Value)
  | scriptFailed (failure : ScriptFailure)
  | reportRefused (script : String) (error : ForeignError)
  | runFinished (ran failures : Nat)

inductive FieldValue where
  | text (s : String)
  | flag (b : Bool)
  | count (n : Nat)
deriving DecidableEq, Repr

namespace Event

def level : Event → Level
  | .hook _ _ loud => if loud then .debug else .trace
  | .registryPut .. | .registryRemove .. | .staleSubmodule .. | .attributeResolved ..
  | .strategyDeclined .. | .falsyAttribute .. | .attributeNotFound .. | .unclaimed .. => .trace
  | .registryTeardown .. | .hookAlreadyInstalled | .hookInstalled .. | .registering ..
  | .unregistering .. | .libraryInstalled .. | .runningScript .. | .scriptReturned ..
  | .runFinished .. => .debug
  | .scriptFailed .. => .warn
  | .libraryFailed .. | .reportRefused .. => .error

def message : Event → String
  | .registryPut .. => "registry put"
  | .registryRemove .. => "registry remove"
  | .registryTeardown .. => "registry teardown"
  | .staleSubmodule .. => "evicted stale submodule"
  | .attributeResolved .. => "attribute resolved"
  | .strategyDeclined .. => "strategy declined"
  | .falsyAttribute .. => "falsy foreign attribute treated as missing"
  | .attributeNotFound .. => "attribute not found"
  | .hook .. => "import hook"
  | .hookAlreadyInstalled => "foreign importer already installed"
  | .hookInstalled .. => "foreign importer installed"
  | .unclaimed .. => "no finder claimed module"
  | .registering .. => "register foreign module"
  | .unregistering .. => "unregister foreign module"
  | .libraryFailed .. => "library failed to load"
  | .libraryInstalled .. => "library installed"
  | .runningScript .. => "running script"
  | .scriptReturned .. => "script returned"
  | .scriptFailed failure => failure.message
  | .reportRefused .. => "cannot report failure to project"
  | .runFinished .. => "script run finished"

/-- The fields of an event besides its message. -/
def fields (naming : Naming) : Event → List (String × FieldValue)
  | .registryPut name foreign => [("module", .text name), ("foreign", .flag foreign)]
  | .registryRemove name => [("module", .text name)]
  | .registryTeardown removed => [("removed", .count removed)]
  | .staleSubmodule node attr => [("module", .text node), ("attr", .text attr)]
  | .attributeResolved node attr strategy =>
    [("module", .text node), ("attr", .text attr), ("strategy", .text strategy.name)]
  | .strategyDeclined node attr strategy error =>
    [("module", .text node), ("attr", .text attr), ("strategy", .text strategy.name),
     ("error", .text error.message)]
  | .falsyAttribute node attr => [("module", .text node), ("attr", .text attr)]
  | .attributeNotFound node attr => [("module", .text node), ("attr", .text attr)]
  | .hook name decision _ => [("module", .text name), ("decision", .text decision.name)]
  | .hookAlreadyInstalled => []
  | .hookInstalled finders => [("finders", .count finders)]
  | .unclaimed name => [("module", .text name)]
  | .registering name => [("module", .text name)]
  | .unregistering name => [("module", .text name)]
  | .libraryFailed library path error =>
    [("library", .text library), ("path", .text path), ("error", .text error.summary)]
  | .libraryInstalled library => [("library", .text library)]
  | .runningScript script path => [("script", .text script), ("path", .text path)]
  | .scriptReturned script result =>
    [("script", .text script), ("result", .text (result.text naming))]
  | .scriptFailed failure =>
    [("script", .text failure.script), ("path", .text failure.path),
     ("stage", .text failure.stage.text)]
  | .reportRefused script error => [("script", .text script), ("error", .text error.summary)]
  | .runFinished ran failures => [("ran", .count ran), ("failures", .count failures)]

end ForeignNamespace.Event
