import ForeignNamespace.Error
import ForeignNamespace.Script.Failure
import ForeignNamespace.Value

/-!
What the bridge asks its host.

Foreign objects, enquirers, class resolvers, finders, scripts and projects live on the host's side;
all that the bridge ever does with them is to put one of these questions.
-/

namespace ForeignNamespace

inductive Query where
  | getAttr (o : ObjectId) (name : String)
  | call (o : ObjectId) (arguments : List Value)
  | truth (o : ObjectId)
  | isPackage (e : EnquirerId) (name : String)
  /-- The last segments of the sub-packages of a package. -/
  | subPackages (e : EnquirerId) (name : String)
  /-- The full names of the classes of a package. -/
  | classNames (e : EnquirerId) (name : String)
  | loadsModules (e : EnquirerId)
  | isModule (e : EnquirerId) (name : String)
  /-- The handle of a foreign module, which is loaded for it. -/
  | loadModule (e : EnquirerId) (name : String)
  | resolveClass (c : ClassResolverId) (name : String)
  | finderClaims (f : FinderId) (name : String)
  /-- The node that a finder of the host makes for a name. -/
  | finderLoads (f : FinderId) (name : String)
  /-- The module object of a script, which is executed for it. -/
  | loadScript (s : ScriptId)
  /-- The value that a project passes to entry points. -/
  | projectArgument (p : ProjectId)
  /-- The issues that a project finds in what a script returned. -/
  | handleReturn (p : ProjectId) (result : Value)
  /-- Whether a project takes note of a failure. -/
  | reportFailure (p : ProjectId) (title : String) (target : ScriptTarget) (message : String)

def Query.Answer : Query → Type
  | .getAttr .. => Except ForeignError (Option Value)
  | .call .. => Except ForeignError Value
  | .truth .. => Bool
  | .isPackage .. => Bool
  | .subPackages .. => Option (List String)
  | .classNames .. => Option (List String)
  | .loadsModules .. => Bool
  | .isModule .. => Bool
  | .loadModule .. => Except ForeignError ObjectId
  | .resolveClass .. => Except ForeignError (Option ClassHandle)
  | .finderClaims .. => Bool
  | .finderLoads .. => Except ImportError NodeId
  | .loadScript .. => Except ForeignError ObjectId
  | .projectArgument .. => Value
  | .handleReturn .. => Except ForeignError (Option (List String))
  | .reportFailure .. => Except ForeignError Bool

end ForeignNamespace
