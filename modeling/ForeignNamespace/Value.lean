import ForeignNamespace.Identity
import ForeignNamespace.Name.Path
import ForeignNamespace.Number.Binary64
import ForeignNamespace.Text.Layout
import ForeignNamespace.Text.Quoted

/-!
Values that cross the bridge.

Scalars, texts and lists are plain data; nodes and foreign objects are identities, and a class is
known by its name and, where the host has made one, its class object.
-/

namespace ForeignNamespace

structure ClassHandle where
  name : String
  object : Option ObjectId := none
deriving DecidableEq, Repr

def ClassHandle.simpleName (c : ClassHandle) : String := ForeignNamespace.simpleName c.name

/-- A value that an attribute access, a call or a script hands over. -/
inductive Value where
  | none
  | bool (b : Bool)
  | int (i : Int64)
  | float (x : Binary64)
  | str (s : String)
  | list (items : List Value)
  | classHandle (c : ClassHandle)
  | node (n : NodeId)
  | foreign (o : ObjectId)
deriving Inhabited, Repr

/-- What has to be known of nodes and foreign objects to show a value. -/
structure Naming where
  nodeName : NodeId → String
  typeOf : ObjectId → String

namespace Value

/-- The truth of a value; a foreign object decides for itself. -/
def truth? : Value → Option Bool
  | .none => some false
  | .bool b => some b
  | .int i => some (i != 0)
  | .float x => some (!x.isZero)
  | .str s => some (s != "")
  | .list items => some (!items.isEmpty)
  | .classHandle _ | .node _ => some true
  | .foreign _ => Option.none

def isNone : Value → Bool
  | .none => true
  | _ => false

def asBool? : Value → Option Bool
  | .bool b => some b
  | _ => Option.none

def asInt? : Value → Option Int64
  | .int i => some i
  | _ => Option.none

def asFloat? : Value → Option Binary64
  | .float x => some x
  | _ => Option.none

def asStr? : Value → Option String
  | .str s => some s
  | _ => Option.none

def asList? : Value → Option (List Value)
  | .list items => some items
  | _ => Option.none

def asClass? : Value → Option ClassHandle
  | .classHandle c => some c
  | _ => Option.none

def asNode? : Value → Option NodeId
  | .node n => some n
  | _ => Option.none

def asForeign? : Value → Option ObjectId
  | .foreign o => some o
  | _ => Option.none

/-- The name of a value's type; a foreign object has the one that the host gives it. -/
def typeName (typeOf : ObjectId → String) : Value → String
  | .none => "NoneType"
  | .bool _ => "bool"
  | .int _ => "int"
  | .float _ => "float"
  | .str _ => "str"
  | .list _ => "list"
  | .classHandle _ => "type"
  | .node _ => "module"
  | .foreign o => typeOf o

mutual

/-- Equality as a script sees it: numbers of one kind by size, texts and lists by content, nodes
and foreign objects by identity, classes by name and class object. -/
def equals : Value → Value → Bool
  | .none, .none => true
  | .bool a, .bool b => a == b
  | .int a, .int b => a == b
  | .float a, .float b => a.equals b
  | .str a, .str b => a == b
  | .list a, .list b => equalsAll a b
  | .classHandle a, .classHandle b => a == b
  | .node a, .node b => a == b
  | .foreign a, .foreign b => a == b
  | _, _ => false

def equalsAll : List Value → List Value → Bool
  | [], [] => true
  | a :: as, b :: bs => equals a b && equalsAll as bs
  | _, _ => false

end

mutual

def text (naming : Naming) : Value → String
  | .none => "None"
  | .bool b => if b then "True" else "False"
  | .int i => toString i.toInt
  | .float x => x.text
  | .str s => Quoted.quote s
  | .list items => Layout.list (texts naming items)
  | .classHandle c => "<class '" ++ c.name ++ "'>"
  | .node n => "<module '" ++ naming.nodeName n ++ "'>"
  | .foreign o => "<foreign " ++ naming.typeOf o ++ ">"

def texts (naming : Naming) : List Value → List String
  | [] => []
  | v :: vs => text naming v :: texts naming vs

end

end ForeignNamespace.Value
