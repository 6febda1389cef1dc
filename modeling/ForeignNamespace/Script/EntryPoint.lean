import ForeignNamespace.Text.Layout
import ForeignNamespace.Text.Quoted

/-!
The function that every script of a run has to define.
-/

namespace ForeignNamespace

/-- Which function of a script is called. -/
inductive EntryPoint where
  | validate
  | configurationUpgrade
  | componentUpgrade
  | custom (name : String)
deriving DecidableEq, Repr

namespace EntryPoint

def name : EntryPoint → String
  | .validate => "validate"
  | .configurationUpgrade => "configuration_upgrade"
  | .componentUpgrade => "component_upgrade"
  | .custom name => name

def ofName : String → EntryPoint
  | "validate" => .validate
  | "configuration_upgrade" => .configurationUpgrade
  | "component_upgrade" => .componentUpgrade
  | other => .custom other

def isCustom : EntryPoint → Bool
  | .custom _ => true
  | _ => false

def text : EntryPoint → String
  | .validate => "Validate"
  | .configurationUpgrade => "ConfigurationUpgrade"
  | .componentUpgrade => "ComponentUpgrade"
  | .custom name => Layout.variant "Custom" (Quoted.quote name)

end ForeignNamespace.EntryPoint
