import ForeignNamespace.Proofs.AccessEffects
import ForeignNamespace.Proofs.CacheWrites

/-!
Nodes in caches.

A node that is bound is kept by its name, and a list is kept as it is, with the nodes inside.  So
nodes get into caches with the lists that a host hands over and in no other way
(`Process.Reachable.handed_of_cached`).  The caches of a process name its nodes, and serve
registered nodes only, if and only if none of these lists contains a node
(`caches_name_nodes_iff`).
-/

namespace ForeignNamespace

/-- Whether a node is contained in a value, at any depth of lists. -/
inductive Value.Holds (m : NodeId) : Value → Prop
  | node : Holds m (.node m)
  | item {items : List Value} {v : Value} (mem : v ∈ items) (inside : v.Holds m) :
      Holds m (.list items)

def Value.NodeFree (v : Value) : Prop := ∀ m, ¬v.Holds m

/-- Whether the host hands over a value that is to be bound: it sets an attribute, or a foreign
object has one. -/
inductive Incident.Hands (attr : String) (v : Value) : Incident → Prop
  | set (n : NodeId) : Hands attr v (.began (.call (.setAttr n attr v)))
  | answered (o : ObjectId) : Hands attr v (.answered (.getAttr o attr) (.ok (some v)))

/-- Whether a value is a list that was handed over for an attribute. -/
def Value.Handed (history : List Incident) (attr : String) (v : Value) : Prop :=
  (∃ items, v = .list items) ∧ ∃ x ∈ history, x.Hands attr v

/-- Whether a node keeps other nodes in handed lists only. -/
def Node.KeepsHanded (history : List Incident) (node : Node) : Prop :=
  ∀ (attr : String) (v : Value) (m : NodeId),
    node.cache[attr]? = some (.value v) → v.Holds m → v.Handed history attr

/-- Whether caches name nodes and contain none, and serve nodes only that are registered. -/
structure World.NamesNodes (w : World) : Prop where
  kept : ∀ (n : NodeId) (attr : String) (v : Value),
    (w.node n).cache[attr]? = some (.value v) → v.NodeFree
  served : ∀ (n m : NodeId) (attr : String) (talk : List Exchange) (v : Value) (w' : World),
    (n.cached? attr).Talks w talk (some v) w' → v.Holds m →
      ∃ r name, w.registryOf? n = some r ∧ w.lookup r name = some m

variable {history : List Incident} {p : Process} {node : Node} {n m : NodeId} {attr : String}
  {v : Value}

namespace Node

theorem metadata_nodeFree {name : String} {config : Config}
    (h : metadata? name config attr = some v) : v.NodeFree := by
  intro m hm
  unfold metadata? at h
  split at h <;> cases h <;> cases hm
  contradiction

theorem KeepsHanded.bind {binding : Binding} (h : node.KeepsHanded history)
    (handed : ∀ v m, binding = .value v → v.Holds m → v.Handed history attr) :
    (node.bind attr binding).KeepsHanded history := by
  intro attr' v m hcached hholds
  simp only [Node.bind, Std.ExtTreeMap.getElem?_insert, Std.LawfulEqCmp.compare_eq_iff_eq]
    at hcached
  split at hcached
  · rename_i hattr
    subst hattr
    exact handed v m (Option.some.inj hcached) hholds
  · exact h attr' v m hcached hholds

theorem KeepsHanded.unbind (h : node.KeepsHanded history) (attr : String) :
    (node.unbind attr).KeepsHanded history := by
  intro attr' v m hcached hholds
  simp only [Node.unbind, Std.ExtTreeMap.getElem?_erase] at hcached
  split at hcached
  · cases hcached
  · exact h attr' v m hcached hholds

/-- Of the values that are bound as they are, only lists can contain a node. -/
theorem KeepsHanded.bind_ofValue {nodeName : NodeId → String} (h : node.KeepsHanded history)
    {x : Incident} (hx : x ∈ history) (hands : x.Hands attr v) :
    (node.bind attr (.ofValue nodeName v)).KeepsHanded history := by
  refine h.bind fun v' m hvalue hholds => ?_
  cases v <;> cases hvalue <;> cases hholds
  exact ⟨⟨_, rfl⟩, x, hx, hands⟩

end Node

theorem keepsHanded_guarded (history : List Incident) :
    Guarded (World.AllNodes fun _ node => node.KeepsHanded history) (· ∈ history) := by
  have harmless : Harmless (World.AllNodes fun _ node => node.KeepsHanded history) := by
    refine World.harmless_allNodes (fun _ _ _ _ _ => ?_) (fun _ name r handle => ?_) ?_
    · intro attr v m hcached
      simp [Node.bridge] at hcached
    · intro attr v m hcached hholds
      rw [Node.cache_foreignBacked, Option.map_eq_some_iff] at hcached
      obtain ⟨v', hmetadata, hvalue⟩ := hcached
      cases hvalue
      exact absurd hholds (Node.metadata_nodeFree hmetadata m)
    · exact fun _ _ _ _ h => h
  have harmlessAt : ∀ n attr, HarmlessAt (World.AllNodes fun _ node => node.KeepsHanded history)
      (· ∈ history) n attr := fun n attr =>
    { evicts := fun h => h.updateNode fun hn => hn.unbind attr
      submodule := fun name h => h.updateNode fun hn => hn.bind fun _ _ hvalue => by cases hvalue
      answered := fun hx h => h.updateNode fun hn => hn.bind_ofValue hx (.answered _)
      resolved := fun c h => h.updateNode fun hn => hn.bind fun _ _ hvalue hholds => by
        cases hvalue
        cases hholds }
  exact
    { harmless with
      accesses := fun _ n attr => upholds_getAttr harmless (harmlessAt n attr)
      tries := fun s n attr _ => upholds_apply harmless (harmlessAt n attr) s
      setAttr := fun hx h => h.updateNode fun hn => hn.bind_ofValue hx (.set _)
      delAttr := fun _ h => h.updateNode fun hn => hn.unbind _
      imports := fun _ _ => ⟨fun _ => (harmlessAt _ _).submodule _⟩ }

/-- A cached value with a node inside is a list that was handed over. -/
theorem Process.Reachable.handed_of_cached (h : Process.Reachable history p)
    (cached : (p.world.node n).cache[attr]? = some (.value v)) (holds : v.Holds m) :
    v.Handed history attr := by
  have start : World.fresh.AllNodes fun _ node => node.KeepsHanded history :=
    .fresh fun _ attr v m hcached => by
      have hempty : (default : Node).cache[attr]? = none := by rfl
      rw [hempty] at hcached
      cases hcached
  exact h.guarded (keepsHanded_guarded history) start (fun _ hx => hx) n attr v m cached holds

/-- Whether an incident hands over permitted values only. -/
def Incident.HandsOnly (permits : Value → Prop) (x : Incident) : Prop :=
  ∀ attr v, x.Hands attr v → permits v

/-- A node that is served is fetched from the registry. -/
theorem World.namesNodes_of_kept {w : World} (h : ∀ (n : NodeId) (attr : String) (v : Value),
    (w.node n).cache[attr]? = some (.value v) → v.NodeFree) : w.NamesNodes := by
  refine ⟨h, fun n m attr talk v w' htalks hholds => ?_⟩
  obtain ⟨-, hkept, -, -⟩ := cached_talks htalks
  unfold World.kept? at hkept
  split at hkept
  · cases hkept
  · rename_i v' hcached
    cases hkept
    exact absurd hholds (h n attr v hcached m)
  · rename_i name _
    obtain ⟨m', hthere, hnode⟩ := Option.map_eq_some_iff.mp hkept
    obtain ⟨r, hregistry, hlookup⟩ := Option.bind_eq_some_iff.mp hthere
    cases hnode
    cases hholds
    exact ⟨r, name, hregistry, hlookup⟩

/-- A host that sets an attribute to a list finds the list in the cache. -/
theorem Process.exists_reachable_keeping (items : List Value) :
    ∃ history p, Process.Reachable history p ∧
      (∀ x ∈ history, x.HandsOnly (· = .list items)) ∧
      (p.world.node ⟨0⟩).cache["all"]? = some (.value (.list items)) := by
  let operations : List Operation :=
    [.upkeep (.makeLoaded .processWide "pkg" none none), .call (.setAttr ⟨0⟩ "all" (.list items))]
  obtain ⟨incidents, hreach, hown⟩ := Process.Reachable.start.performsAll .ignorant operations
  refine ⟨_, _, hreach, ?_, ?_⟩
  · intro x hx attr v hhands
    rw [List.append_nil] at hx
    obtain ⟨operation, hmem, hbelongs⟩ := hown x hx
    cases hhands with
    | set n =>
        obtain rfl : Operation.call (.setAttr n attr v) = operation := hbelongs
        simp only [operations, List.mem_cons, List.not_mem_nil, or_false, reduceCtorEq, false_or,
          Operation.call.injEq, Call.setAttr.injEq] at hmem
        exact hmem.2.2
    | answered o => cases hbelongs
  · rfl

/-- For the hosts that hand over no list with a node inside, and for no others, caches name nodes
and serve registered nodes only, whatever happens. -/
theorem caches_name_nodes_iff (permits : Value → Prop) :
    (∀ history p, Process.Reachable history p → (∀ x ∈ history, x.HandsOnly permits) →
        p.world.NamesNodes) ↔
      ∀ items, permits (.list items) → (Value.list items).NodeFree := by
  constructor
  · intro h items hpermits
    obtain ⟨history, p, hreach, hands, hcached⟩ := Process.exists_reachable_keeping items
    refine (h history p hreach fun x hx attr v hhands => ?_).kept _ _ _ hcached
    rw [hands x hx attr v hhands]
    exact hpermits
  · intro h history p hreach hands
    refine World.namesNodes_of_kept fun n attr v hcached m hholds => ?_
    obtain ⟨⟨items, rfl⟩, x, hx, hhands⟩ := hreach.handed_of_cached hcached hholds
    exact h items (hands x hx attr _ hhands) m hholds

/-- A list serves the node of a module that was taken out, and not the one that was registered
since. -/
theorem list_serves_removed_node :
    let operations : List Operation :=
      [.upkeep (.makeLoaded .processWide "pkg" none none),
        .call (.register .processWide "pkg.mod" ⟨7⟩),
        .call (.setAttr ⟨0⟩ "all" (.list [.node ⟨1⟩])),
        .call (.unregister .processWide "pkg.mod"),
        .call (.register .processWide "pkg.mod" ⟨7⟩)]
    let w := Operation.performAll .ignorant operations .fresh
    (∃ history, Process.Reachable history ⟨w, []⟩) ∧
      (w.node ⟨0⟩).cache["all"]? = some (.value (.list [.node ⟨1⟩])) ∧
      (w.registry .processWide).entries.toList = [("pkg", ⟨0⟩), ("pkg.mod", ⟨2⟩)] ∧
      ((NodeId.getAttr ⟨0⟩ "all").run .ignorant w).result = .ok (.list [.node ⟨1⟩]) ∧
      ¬w.NamesNodes := by
  intro operations w
  obtain ⟨incidents, hreach, -⟩ := Process.Reachable.start.performsAll .ignorant operations
  have hcached : (w.node ⟨0⟩).cache["all"]? = some (.value (.list [.node ⟨1⟩])) := by rfl
  refine ⟨⟨_, hreach⟩, hcached, by decide +kernel, by rfl, fun hnames => ?_⟩
  exact hnames.kept _ _ _ hcached ⟨1⟩ (.item (by simp) .node)

end ForeignNamespace
