import ForeignNamespace.Attribute.Cache
import ForeignNamespace.Lifecycle
import ForeignNamespace.Script.Name
import ForeignNamespace.Script.Report

/-!
Running scripts against a project.

The libraries are registered below a root namespace, then all scripts are loaded, then the entry
point of each is called with the project.  A library that fails ends the run; a script that fails
is recorded, and the next one runs.
-/

namespace ForeignNamespace

/-- A script of the host and where it lies. -/
structure Script where
  id : ScriptId
  path : String
deriving DecidableEq, Repr

/-- A script that other scripts import by name. -/
structure Library where
  name : String
  script : Script
deriving DecidableEq, Repr

structure LoadedScript where
  name : String
  path : String
  handle : ObjectId
deriving DecidableEq, Repr

/-- Everything that a run needs besides the project. -/
structure ScriptRunner where
  registry : RegistryId
  /-- The namespace of the libraries. -/
  root : String := "validation"
  entry : EntryPoint
  libraries : List Library := []
  scripts : List Script := []

namespace ScriptRunner

def text (runner : ScriptRunner) : String :=
  Layout.record "ScriptRunner"
    [("root", Quoted.quote runner.root), ("entry", runner.entry.text),
     ("libraries", toString runner.libraries.length), ("scripts", toString runner.scripts.length)]

/-- Loads a library, registers it below the root and binds it there. -/
def installLibrary (runner : ScriptRunner) (root : NodeId) (library : Library) :
    Bridge (Except ImportError Unit) := do
  let name := childName runner.root library.name
  match ← Host.loadScript library.script.id with
  | .error error =>
    Bridge.report (.libraryFailed name library.script.path error)
    return .error (.foreign error)
  | .ok handle =>
    match ← runner.registry.registerForeign name handle with
    | .error error => return .error error
    | .ok n =>
      root.setAttr library.name (.node n)
      Bridge.report (.libraryInstalled name)
      return .ok ()

/-- Installs libraries in order; the first that fails ends it. -/
def installLibraries (runner : ScriptRunner) (root : NodeId) :
    List Library → Bridge (Except ImportError Unit)
  | [] => return .ok ()
  | library :: libraries => do
    match ← runner.installLibrary root library with
    | .error error => return .error error
    | .ok () => runner.installLibraries root libraries

/-- Tells the log and the project of a failure.  A project that refuses the report does not stop
the run. -/
def record (project : ProjectId) (failure : ScriptFailure) : Bridge Unit := do
  Bridge.report (.scriptFailed failure)
  match ← Host.reportFailure project failure.title (.ofPath failure.path) failure.summary with
  | .ok _ => return ()
  | .error error => Bridge.report (.reportRefused failure.script error)

/-- Tells the log and the project of failures in order. -/
def recordAll (project : ProjectId) : List ScriptFailure → Bridge Unit
  | [] => return ()
  | failure :: failures => do
    record project failure
    recordAll project failures

/-- Loads scripts in order; each is loaded or recorded as a failure. -/
def loadScripts (project : ProjectId) :
    List Script → Bridge (List LoadedScript × List ScriptFailure)
  | [] => return ([], [])
  | script :: scripts => do
    let name := scriptName script.path
    match ← Host.loadScript script.id with
    | .ok handle =>
      let (loaded, failures) ← loadScripts project scripts
      return ({ name, path := script.path, handle } :: loaded, failures)
    | .error error =>
      let failure : ScriptFailure :=
        { script := name, path := script.path, stage := .load
          message := "with exception " ++ error.summary, cause := some error }
      record project failure
      let (loaded, failures) ← loadScripts project scripts
      return (loaded, failure :: failures)

/-- What the project makes of the value that a script returned. -/
def judge (project : ProjectId) (result : Value) : Bridge Verdict := do
  if result.isNone then return .nothing
  else
    match ← Host.handleReturn project result with
    | .ok (some issues) => return .issues issues
    | .ok none => return .noList
    | .error error => return .raised error

/-- Calls the entry point of a script; the answer is what became of the script. -/
def callEntry (runner : ScriptRunner) (project : ProjectId) (script : LoadedScript) :
    Bridge Fate := do
  Bridge.report (.runningScript script.name script.path)
  match ← Host.getAttr script.handle runner.entry.name with
  | .error error => return .lookupRaised error
  | .ok none => return .entryMissing
  | .ok (some (.foreign function)) =>
    let argument ← Host.projectArgument project
    match ← Host.call function [argument] with
    | .error error => return .callRaised error
    | .ok result =>
      Bridge.report (.scriptReturned script.name result)
      return .returned (← judge project result)
  | .ok (some value) => return .notAFunction (value.typeName fun _ => "")

/-- Runs loaded scripts in order, adding each one's fate to the report. -/
def runScripts (runner : ScriptRunner) (project : ProjectId) (report : RunReport) :
    List LoadedScript → Bridge RunReport
  | [] => return report
  | script :: scripts => do
    let fate ← runner.callEntry project script
    recordAll project (fate.failures runner.entry script.name script.path)
    runner.runScripts project (report.add runner.entry script.name script.path fate) scripts

def run (runner : ScriptRunner) (project : ProjectId) : Bridge (Except ImportError RunReport) := do
  let root ← runner.registry.makePlain runner.root none
  match ← runner.installLibraries root runner.libraries with
  | .error error => return .error error
  | .ok () =>
    let (loaded, failures) ← loadScripts project runner.scripts
    let report ← runner.runScripts project { failures } loaded
    Bridge.report (.runFinished report.ran.length report.failures.length)
    return .ok report

end ForeignNamespace.ScriptRunner
