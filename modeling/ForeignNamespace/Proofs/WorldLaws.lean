import ForeignNamespace.Liveness

namespace ForeignNamespace

namespace Arena

variable {α : Type}

@[ext] theorem ext {a b : Arena α} (hnext : a.next = b.next)
    (hcells : ∀ i : Nat, a.cells[i]? = b.cells[i]?) : a = b := by
  cases a
  cases b
  obtain rfl := hnext
  congr
  exact Std.ExtTreeMap.ext_getElem? fun i => hcells i

theorem set_push (a : Arena α) (x y : α) : (a.push x).set a.next y = a.push y := by
  refine Arena.ext (by rfl) fun j => ?_
  simp only [set, push, Std.ExtTreeMap.getElem?_insert]
  split <;> rfl

/-- Writing what a cell holds changes nothing, if the cell was ever written. -/
theorem set_get [Inhabited α] (a : Arena α) {i : Nat} {x : α} (hx : a.cells[i]? = some x) :
    a.set i (a.get i) = a := by
  have hget : a.get i = x := by
    simp [get, Std.ExtTreeMap.getD_eq_getD_getElem?, hx]
  refine Arena.ext (by rfl) fun j => ?_
  simp only [set, Std.ExtTreeMap.getElem?_insert, Nat.compare_eq_eq, hget]
  split
  · rename_i hij
    rw [← hij, hx]
  · rfl

theorem set_set (a : Arena α) (i : Nat) (x y : α) : (a.set i x).set i y = a.set i y := by
  refine Arena.ext (by rfl) fun j => ?_
  simp only [set, Std.ExtTreeMap.getElem?_insert]
  split <;> rfl

theorem set_comm (a : Arena α) {i j : Nat} (hij : i ≠ j) (x y : α) :
    (a.set i x).set j y = (a.set j y).set i x := by
  refine Arena.ext (by rfl) fun k => ?_
  simp only [set, Std.ExtTreeMap.getElem?_insert, Nat.compare_eq_eq]
  by_cases hjk : j = k
  · simp [hjk, show i ≠ k from hjk ▸ hij]
  · simp [hjk]

end Arena

namespace World

variable (w : World) (n m : NodeId) (r : RegistryId)

theorem node_updateNode (change : Node → Node) :
    (w.updateNode n change).node m = if n = m then change (w.node m) else w.node m := by
  have hindex : n.index = m.index ↔ n = m := by
    cases n
    cases m
    simp
  simp only [updateNode, node, Arena.get_set, hindex]
  split
  · rename_i hnm
    rw [hnm]
  · rfl

@[simp] theorem node_updateNode_self (change : Node → Node) :
    (w.updateNode n change).node n = change (w.node n) := by
  rw [node_updateNode, if_pos rfl]

theorem node_updateNode_of_ne {n m : NodeId} (hnm : n ≠ m) (change : Node → Node) :
    (w.updateNode n change).node m = w.node m := by
  rw [node_updateNode, if_neg hnm]

@[simp] theorem node_addNode_self (node : Node) : (w.addNode node).node w.nextNode = node := by
  simp [addNode, World.node, nextNode, Arena.get_push]

theorem node_addNode_of_lt {m : NodeId} (hm : m.index < w.nodes.next) (node : Node) :
    (w.addNode node).node m = w.node m := by
  have hne : w.nodes.next ≠ m.index := by omega
  simp [addNode, World.node, Arena.get_push, hne]

@[simp] theorem node_hold (h : Handle) : (w.hold h).node n = w.node n := rfl

@[simp] theorem next_hold (h : Handle) : (w.hold h).nodes.next = w.nodes.next := rfl

@[simp] theorem nextNode_hold (h : Handle) : (w.hold h).nextNode = w.nextNode := rfl

theorem registry_updateRegistry (r' : RegistryId) (change : Registry → Registry) :
    (w.updateRegistry r change).registry r' =
      if r = r' then change (w.registry r') else w.registry r' := by
  have hindex : r.index = r'.index ↔ r = r' := by
    cases r
    cases r'
    simp
  simp only [updateRegistry, registry, Arena.get_set, hindex]
  split
  · rename_i hr
    rw [hr]
  · rfl

theorem lookup_of_registries {w v : World} (h : v.registries = w.registries) (r : RegistryId)
    (name : String) : v.lookup r name = w.lookup r name := by
  rw [lookup, lookup, registry, registry, h]

theorem lookup_register (r' : RegistryId) (name name' : String) :
    (w.register r name n).lookup r' name' =
      if r = r' ∧ name = name' then some n else w.lookup r' name' := by
  rw [lookup, register, registry_updateRegistry]
  by_cases hr : r = r'
  · simp [hr, lookup, Std.ExtTreeMap.getElem?_insert]
  · simp [hr, lookup]

@[simp] theorem lookup_register_self (name : String) :
    (w.register r name n).lookup r name = some n := by
  rw [lookup_register, if_pos ⟨rfl, rfl⟩]

@[simp] theorem lookup_addNode (node : Node) (name : String) :
    (w.addNode node).lookup r name = w.lookup r name := rfl

@[simp] theorem lookup_hold (h : Handle) (name : String) :
    (w.hold h).lookup r name = w.lookup r name := rfl

@[simp] theorem release_hold (h : Handle) : (w.hold h).release h = w := by
  simp [hold, release]

theorem updateNode_addNode (node : Node) (change : Node → Node) :
    (w.addNode node).updateNode w.nextNode change = w.addNode (change node) := by
  have hnode : (w.addNode node).node w.nextNode = node := node_addNode_self w node
  simp only [updateNode, hnode]
  simp only [addNode, nextNode, Arena.set_push]

theorem updateNode_updateNode (change change' : Node → Node) :
    (w.updateNode n change).updateNode n change' =
      w.updateNode n fun node => change' (change node) := by
  simp only [updateNode, node, Arena.get_set, if_true, Arena.set_set]

theorem updateNode_comm {n m : NodeId} (hnm : n ≠ m) (change change' : Node → Node) :
    (w.updateNode n change).updateNode m change' =
      (w.updateNode m change').updateNode n change := by
  have hindex : n.index ≠ m.index := fun h => hnm (by cases n; cases m; simpa using h)
  have hfirst : (w.updateNode n change).updateNode m change' =
      { w with nodes := (w.nodes.set n.index (change (w.node n))).set m.index
                (change' (w.node m)) } := by
    rw [updateNode, w.node_updateNode_of_ne hnm]
    rfl
  have hsecond : (w.updateNode m change').updateNode n change =
      { w with nodes := (w.nodes.set m.index (change' (w.node m))).set n.index
                (change (w.node n)) } := by
    rw [updateNode, w.node_updateNode_of_ne (Ne.symm hnm)]
    rfl
  rw [hfirst, hsecond, Arena.set_comm _ hindex]

/-- Registering a node where it is registered already changes nothing. -/
theorem register_of_lookup {name : String} (hlookup : w.lookup r name = some n) :
    w.register r name n = w := by
  have hentries : ((w.registry r).entries.insert name n) = (w.registry r).entries := by
    apply Std.ExtTreeMap.ext_getElem?
    intro x
    rw [Std.ExtTreeMap.getElem?_insert]
    split
    · rename_i hx
      rw [← Std.LawfulEqCmp.eq_of_compare hx]
      exact hlookup.symm
    · rfl
  have hcell : ∃ registry, w.registries.cells[r.index]? = some registry := by
    cases hcell : w.registries.cells[r.index]? with
    | some registry => exact ⟨registry, rfl⟩
    | none =>
        have hempty : w.registry r = default := by
          simp [World.registry, Arena.get, Std.ExtTreeMap.getD_eq_getD_getElem?, hcell]
        rw [lookup, hempty] at hlookup
        change (∅ : Std.ExtTreeMap String NodeId)[name]? = some n at hlookup
        simp at hlookup
  obtain ⟨registry, hcell⟩ := hcell
  simp only [register, updateRegistry, hentries]
  exact congrArg (fun registries => { w with registries }) (Arena.set_get w.registries hcell)

/-- Every node that a registry holds exists and is registered under its own name. -/
structure KeyedByName (w : World) (r : RegistryId) : Prop where
  lt_next : ∀ {name m}, w.lookup r name = some m → m.index < w.nodes.next
  name_eq : ∀ {name m}, w.lookup r name = some m → (w.node m).name = name

def addRegistered (w : World) (node : Node) : World :=
  (w.addNode node).register node.registry node.name w.nextNode

def bindSubmodule (w : World) (n : NodeId) (attr name : String) : World :=
  w.updateNode n (·.bind attr (.submodule name))

def link (w : World) (n : NodeId) (loader : Option ImporterId) (enquirer : Option EnquirerId) :
    World :=
  w.updateNode n fun node => { node with loader, enquirer }

/-- The node that an importer makes for a package. -/
def packageOf (w : World) (i : ImporterId) (name : String) : Node :=
  .bridge name (w.importer i).registry (some i) (some (w.importer i).enquirer)

/-- The node that an importer makes for a foreign module. -/
def moduleOf (w : World) (i : ImporterId) (name : String) (handle : ObjectId) : Node :=
  { Node.foreignBacked name (w.importer i).registry handle with
    loader := some i, enquirer := some (w.importer i).enquirer }

@[simp] theorem node_addRegistered_self (node : Node) :
    (w.addRegistered node).node w.nextNode = node :=
  node_addNode_self w node

theorem node_addRegistered_of_lt {m : NodeId} (hm : m.index < w.nodes.next) (node : Node) :
    (w.addRegistered node).node m = w.node m :=
  node_addNode_of_lt w hm node

@[simp] theorem lookup_addRegistered_self (node : Node) :
    (w.addRegistered node).lookup node.registry node.name = some w.nextNode :=
  lookup_register_self (w.addNode node) w.nextNode node.registry node.name

theorem lookup_addRegistered (node : Node) (name : String) :
    (w.addRegistered node).lookup r name =
      if node.registry = r ∧ node.name = name then some w.nextNode else w.lookup r name :=
  lookup_register (w.addNode node) w.nextNode node.registry r node.name name

theorem KeyedByName.of_empty {w : World} {r : RegistryId}
    (h : ∀ name, w.lookup r name = none) : w.KeyedByName r :=
  ⟨fun hlookup => by simp [h] at hlookup, fun hlookup => by simp [h] at hlookup⟩

theorem KeyedByName.addRegistered {w : World} {r : RegistryId} (h : w.KeyedByName r)
    (node : Node) : (w.addRegistered node).KeyedByName r := by
  constructor
  · intro name m hlookup
    change m.index < w.nodes.next + 1
    rw [lookup_addRegistered] at hlookup
    split at hlookup
    · obtain rfl := Option.some.inj hlookup
      exact Nat.lt_succ_self _
    · exact Nat.lt_succ_of_lt (h.lt_next hlookup)
  · intro name m hlookup
    rw [lookup_addRegistered] at hlookup
    split at hlookup
    · rename_i hnode
      obtain rfl := Option.some.inj hlookup
      rw [node_addRegistered_self, hnode.2]
    · rw [node_addRegistered_of_lt w (h.lt_next hlookup), h.name_eq hlookup]

@[simp] theorem addRegistered_hold (h : Handle) (node : Node) :
    (w.hold h).addRegistered node = (w.addRegistered node).hold h := rfl

@[simp] theorem register_hold (h : Handle) (name : String) :
    (w.hold h).register r name n = (w.register r name n).hold h := rfl

@[simp] theorem bindSubmodule_hold (h : Handle) (attr name : String) :
    (w.hold h).bindSubmodule n attr name = (w.bindSubmodule n attr name).hold h := rfl

@[simp] theorem link_hold (h : Handle) (loader : Option ImporterId)
    (enquirer : Option EnquirerId) :
    (w.hold h).link n loader enquirer = (w.link n loader enquirer).hold h := rfl

theorem link_addRegistered (node : Node) (loader : Option ImporterId)
    (enquirer : Option EnquirerId) :
    (w.addRegistered node).link w.nextNode loader enquirer =
      w.addRegistered { node with loader, enquirer } := by
  have hcomm : ∀ change, ((w.addNode node).register node.registry node.name w.nextNode).updateNode
      w.nextNode change =
        ((w.addNode node).updateNode w.nextNode change).register node.registry node.name
          w.nextNode := fun _ => rfl
  rw [link, addRegistered, hcomm, updateNode_addNode]
  rfl

@[simp] theorem node_bindSubmodule_self (attr name : String) :
    (w.bindSubmodule n attr name).node n = (w.node n).bind attr (.submodule name) :=
  w.node_updateNode_self n _

theorem bindSubmodule_bindSubmodule (attr name : String) :
    (w.bindSubmodule n attr name).bindSubmodule n attr name = w.bindSubmodule n attr name := by
  rw [bindSubmodule, bindSubmodule, updateNode_updateNode]
  congr 1
  funext node
  rw [Node.bind, Node.bind]
  congr 1
  apply Std.ExtTreeMap.ext_getElem?
  intro other
  simp only [Std.ExtTreeMap.getElem?_insert]
  split <;> rfl

theorem link_bindSubmodule {n m : NodeId} (hnm : n ≠ m) (attr name : String)
    (loader : Option ImporterId) (enquirer : Option EnquirerId) :
    (w.bindSubmodule n attr name).link m loader enquirer =
      (w.link m loader enquirer).bindSubmodule n attr name :=
  w.updateNode_comm hnm _ _

end World
end ForeignNamespace
