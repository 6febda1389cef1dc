import ForeignNamespace.Error
import ForeignNamespace.Text.Layout
import ForeignNamespace.Text.Quoted

/-!
Failures of scripts.
-/

namespace ForeignNamespace

inductive FailureStage where
  | load
  | missingEntryPoint
  | run
  | returnIssue
deriving DecidableEq, Repr

namespace FailureStage

/-- How a failure message begins. -/
def phrase : FailureStage → String
  | .load => "Could not load"
  | .missingEntryPoint => "Missing entry point in"
  | .run => "Could not run"
  | .returnIssue => "Return value issue in"

def text : FailureStage → String
  | .load => "Load"
  | .missingEntryPoint => "MissingEntryPoint"
  | .run => "Run"
  | .returnIssue => "ReturnIssue"

end FailureStage

structure ScriptFailure where
  script : String
  path : String
  stage : FailureStage
  message : String
  /-- The foreign exception behind the failure. -/
  cause : Option ForeignError := none
deriving DecidableEq, Repr

namespace ScriptFailure

def summary (f : ScriptFailure) : String :=
  f.stage.phrase ++ " " ++ f.script ++ " at " ++ f.path ++ ": " ++ f.message

/-- The title under which a project hears of the failure. -/
def title (f : ScriptFailure) : String := "Script Failure " ++ f.script

def text (f : ScriptFailure) : String :=
  Layout.record "ScriptFailure"
    [("script", Quoted.quote f.script), ("path", Quoted.quote f.path), ("stage", f.stage.text),
     ("message", Quoted.quote f.message), ("cause", Layout.option (f.cause.map (·.text)))]

end ScriptFailure

/-- What a reported failure points at. -/
structure ScriptTarget where
  paths : List String
  kind : String
deriving DecidableEq, Repr

def ScriptTarget.ofPath (path : String) : ScriptTarget := { paths := [path], kind := "SCRIPT" }

end ForeignNamespace
