import ForeignNamespace.Text.Layout
import ForeignNamespace.Text.Quoted

/-!
Errors: what the foreign side raises, and what an import or an attribute access can fail with.
-/

namespace ForeignNamespace

/-- An exception raised on the foreign side, with its stack frames, the innermost last. -/
structure ForeignError where
  kind : String
  message : String
  frames : List String := []
deriving DecidableEq, Repr

namespace ForeignError

def summary (e : ForeignError) : String := e.kind ++ ": " ++ e.message

/-- The answer of an object that cannot be called. -/
def objectNotCallable (typeName : String) : ForeignError :=
  { kind := "TypeError", message := "'" ++ typeName ++ "' object is not callable" }

def text (e : ForeignError) : String :=
  Layout.record "ForeignError"
    [("kind", Quoted.quote e.kind), ("message", Quoted.quote e.message),
     ("traceback", Layout.list (e.frames.map Quoted.quote))]

end ForeignError

/-- The causes for which an import or an attribute access fails. -/
inductive ImportError where
  /-- No strategy has an answer for the attribute. -/
  | attributeNotFound (owner name : String)
  | moduleNotFound (name : String)
  | foreign (error : ForeignError)
  /-- A name to be taken out of a registry is not in it. -/
  | notRegistered (name : String)
  /-- A node without a foreign handle was called. -/
  | notCallable (name : String)
  /-- The name is not a well-formed dotted name. -/
  | invalidName (name : String)
  /-- An importer was to be built, and neither an enquirer nor a default one was at hand. -/
  | noEnquirer
deriving DecidableEq, Repr

namespace ImportError

def message : ImportError → String
  | .attributeNotFound owner name => "module '" ++ owner ++ "' has no attribute '" ++ name ++ "'"
  | .moduleNotFound name => "No module named '" ++ name ++ "'"
  | .foreign error => error.summary
  | .notRegistered name => "module '" ++ name ++ "' is not registered"
  | .notCallable name => "module '" ++ name ++ "' is not callable"
  | .invalidName name => "invalid module name '" ++ name ++ "'"
  | .noEnquirer => "no class enquirer supplied and no default enquirer installed"

/-- Whether an error only says that something is not there.  Such an error lets the search go on;
any other ends it. -/
def isNotFound : ImportError → Bool
  | .attributeNotFound .. | .moduleNotFound .. => true
  | _ => false

end ForeignNamespace.ImportError
