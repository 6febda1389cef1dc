import ForeignNamespace.Script.EntryPoint
import ForeignNamespace.Script.Failure
import ForeignNamespace.Value

/-!
What becomes of a script, and what a run reports.

Every script of a run that could be loaded has exactly one fate, and the failures that the fate
stands for can be read off it.
-/

namespace ForeignNamespace

/-- What a project made of the value that a script returned. -/
inductive Verdict where
  /-- The script returned nothing to look at. -/
  | nothing
  | issues (issues : List String)
  /-- The project produced no list of issues. -/
  | noList
  | raised (error : ForeignError)
deriving DecidableEq, Repr

/-- What becomes of a loaded script. -/
inductive Fate where
  | entryMissing
  | lookupRaised (error : ForeignError)
  /-- The entry point is a value of the named type, and not a function. -/
  | notAFunction (typeName : String)
  | callRaised (error : ForeignError)
  | returned (verdict : Verdict)
deriving DecidableEq, Repr

namespace Fate

/-- Whether the entry point was called to its end. -/
def isReturned : Fate → Bool
  | .returned _ => true
  | _ => false

/-- Whether the project was handed a value. -/
def handsValue : Fate → Bool
  | .returned .nothing => false
  | .returned _ => true
  | _ => false

/-- The failures that a fate stands for, each with its stage, message and cause. -/
def failures (entry : EntryPoint) (script path : String) (fate : Fate) : List ScriptFailure :=
  match fate with
  | .entryMissing =>
    [{ script, path, stage := .missingEntryPoint
       message := "entry point '" ++ entry.name ++ "' not part of module " ++ script }]
  | .lookupRaised error | .callRaised error =>
    [{ script, path, stage := .run
       message := entry.name ++ " with exception " ++ error.summary, cause := some error }]
  | .notAFunction typeName =>
    [{ script, path, stage := .run
       message := entry.name ++ " is a " ++ typeName ++ ", not a function" }]
  | .returned .nothing => []
  | .returned (.issues issues) =>
    issues.map fun issue => { script, path, stage := .returnIssue, message := issue }
  | .returned .noList =>
    [{ script, path, stage := .run
       message := entry.name ++ " with exception: project returned no issue list" }]
  | .returned (.raised error) =>
    [{ script, path, stage := .run
       message := entry.name ++ " return value with exception " ++ error.summary
       cause := some error }]

end Fate

structure RunReport where
  /-- The scripts whose entry point returned, in order. -/
  ran : List String := []
  failures : List ScriptFailure := []
  /-- The number of values handed to the project. -/
  returnValues : Nat := 0
deriving DecidableEq, Repr

namespace RunReport

def isClean (report : RunReport) : Bool := report.failures.isEmpty

def failuresAt (report : RunReport) (stage : FailureStage) : List ScriptFailure :=
  report.failures.filter (·.stage = stage)

def add (report : RunReport) (entry : EntryPoint) (script path : String) (fate : Fate) :
    RunReport :=
  { ran := if fate.isReturned then report.ran ++ [script] else report.ran
    failures := report.failures ++ fate.failures entry script path
    returnValues := if fate.handsValue then report.returnValues + 1 else report.returnValues }

end ForeignNamespace.RunReport
