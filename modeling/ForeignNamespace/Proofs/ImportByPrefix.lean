import ForeignNamespace.Proofs.Conversation
import ForeignNamespace.Proofs.DottedSegments
import ForeignNamespace.Proofs.FixedRuns

namespace ForeignNamespace

namespace World

/-- What an importer makes of a name: the node for it, or the error in place of one. -/
def makes (w : World) (host : FixedHost) (i : ImporterId) (name : String) :
    Except ImportError Node :=
  if host.knowsModule (w.importer i).enquirer name then
    match host.loadModule (w.importer i).enquirer name with
    | .ok handle => .ok (w.moduleOf i name handle)
    | .error error => .error (.foreign error)
  else if host.isPackage (w.importer i).enquirer name then .ok (w.packageOf i name)
  else .error (.moduleNotFound name)

/-- Binds a name on the node registered under its parent's name, if there is one. -/
def bindOnParent (w : World) (r : RegistryId) (name : String) : World :=
  match (parentPackage? name).bind (w.lookup r) with
  | some parent => w.bindSubmodule parent (leafName name) name
  | none => w

/-- Makes, registers and binds the node of a name, if it can be made. -/
def load (host : FixedHost) (i : ImporterId) (w : World) (name : String) : World :=
  match w.makes host i name with
  | .ok node => (w.addRegistered node).bindOnParent node.registry name
  | .error _ => w

end World

section Steps

variable {host : FixedHost} {w : World} {i : ImporterId} {name : String}

theorem name_of_makes {node : Node} (h : w.makes host i name = .ok node) :
    node.name = name ∧ node.registry = (w.importer i).registry := by
  simp only [World.makes] at h
  split at h
  · split at h
    · obtain rfl := Except.ok.inj h
      exact ⟨rfl, rfl⟩
    · cases h
  · split at h
    · obtain rfl := Except.ok.inj h
      exact ⟨rfl, rfl⟩
    · cases h

theorem makes_of_not_claims (h : host.claims (w.importer i).enquirer name = false) :
    w.makes host i name = .error (.moduleNotFound name) := by
  rw [FixedHost.claims, Bool.or_eq_false_iff] at h
  simp [World.makes, h.1, h.2]

theorem load_gives (absent : w.lookup (w.importer i).registry name = none)
    (claimed : host.claims (w.importer i).enquirer name = true) :
    (i.load name).Gives host w (host.loadQuestions (w.importer i).enquirer name)
      ((w.makes host i name).map fun _ => w.nextNode)
      (match w.makes host i name with
        | .ok node => w.addRegistered node
        | .error _ => w) := by
  refine (Bridge.gives_world w).then ?_
  simp only [absent]
  rw [FixedHost.loadQuestions]
  refine (knowsModule_gives host _ name w).bind ?_
  cases hmodule : host.knowsModule (w.importer i).enquirer name with
  | true =>
      refine (decide_gives host i name .loadingModule w).then ?_
      rw [World.makes, if_pos hmodule]
      cases hloads : host.loadModule (w.importer i).enquirer name with
      | error error => exact (Bridge.gives_answer hloads w).before (Bridge.gives_pure _ w)
      | ok handle =>
          refine (Bridge.gives_answer hloads w).before ?_
          refine (Bridge.gives_world w).then ?_
          simp only [absent]
          refine (makeForeign_gives host _ name handle w).then ?_
          have hthere :
              (w.addRegistered (.foreignBacked name (w.importer i).registry handle)).lookup
                (w.importer i).registry ((w.addRegistered
                  (.foreignBacked name (w.importer i).registry handle)).node w.nextNode).name =
                some w.nextNode := by
            rw [World.node_addRegistered_self]
            exact w.lookup_addRegistered_self _
          have hpatch := patch_gives host hthere (some i) (some (w.importer i).enquirer)
          rw [World.link_addRegistered] at hpatch
          exact hpatch.then (Bridge.gives_pure _ _)
  | false =>
      refine (decide_gives host i name .bridgePackage w).then ?_
      have hpackage : host.isPackage (w.importer i).enquirer name = true := by
        simpa [FixedHost.claims, hmodule] using claimed
      simp only [World.makes, hmodule, hpackage, Bool.false_eq_true, if_false, if_true]
      exact (makeLoaded_gives host _ name _ _ w).then (Bridge.gives_pure _ _)

theorem bindOnParent_gives (host : FixedHost) (s : ResolverId) {n : NodeId}
    (hname : (w.node n).name = name) :
    (s.bindOnParent name n).Gives host w [] () (w.bindOnParent (w.resolver s).registry name) := by
  rw [ResolverId.bindOnParent, World.bindOnParent]
  cases parentPackage? name with
  | none => exact Bridge.gives_pure _ w
  | some parent =>
      refine ((Bridge.gives_world w).then (Bridge.gives_pure _ w)).then ?_
      simp only [Option.bind_some]
      cases w.lookup (w.resolver s).registry parent with
      | none => exact Bridge.gives_pure _ w
      | some p =>
          refine (Bridge.gives_world w).then ?_
          rw [hname]
          exact bindSubmodule_gives host p (leafName name) name w

variable {s : ResolverId}

theorem importOne_gives_present (host : FixedHost) {n : NodeId}
    (there : w.lookup (w.resolver s).registry name = some n) :
    (s.importOne name).Gives host w [] (.ok n) w := by
  refine ((Bridge.gives_world w).then (Bridge.gives_pure _ w)).then ?_
  simp only [there]
  exact Bridge.gives_pure _ w

/-- Importing an unregistered name whose parents are imported. -/
theorem importOne_gives_absent (host : FixedHost)
    (only : w.resolver s = { registry := (w.importer i).registry, metaPath := [.hook i] })
    (absent : w.lookup (w.importer i).registry name = none) :
    (s.importOne name).Gives host w (host.importQuestions (w.importer i).enquirer name)
      ((w.makes host i name).map fun _ => w.nextNode) (w.load host i name) := by
  refine ((Bridge.gives_world w).then (Bridge.gives_pure _ w)).then ?_
  simp only [only, absent]
  refine (Bridge.gives_world w).then ?_
  rw [only, FixedHost.importQuestions]
  refine (claims_gives host i name w).bind ?_
  cases hclaims : host.claims (w.importer i).enquirer name with
  | false =>
      rw [World.load, makes_of_not_claims hclaims]
      exact (Bridge.gives_report _ w).then (Bridge.gives_pure _ w)
  | true =>
      refine (load_gives absent hclaims).before ?_
      rw [World.load]
      cases hmakes : w.makes host i name with
      | error error => exact Bridge.gives_pure _ w
      | ok node =>
          obtain ⟨hname, hregistry⟩ := name_of_makes hmakes
          have hnew : ((w.addRegistered node).node w.nextNode).name = name := by
            rw [World.node_addRegistered_self, hname]
          have hbind := bindOnParent_gives host s hnew
          have hresolver : ((w.addRegistered node).resolver s).registry = node.registry := by
            rw [hregistry]
            exact congrArg Resolver.registry only
          rw [hresolver] at hbind
          exact hbind.then (Bridge.gives_pure _ _)

theorem importOne_gives_error {error : ImportError}
    (only : w.resolver s = { registry := (w.importer i).registry, metaPath := [.hook i] })
    (absent : w.lookup (w.importer i).registry name = none)
    (hmakes : w.makes host i name = .error error) :
    (s.importOne name).Gives host w (host.importQuestions (w.importer i).enquirer name)
      (.error error) w := by
  have hone := importOne_gives_absent host only absent
  rw [World.load, hmakes] at hone
  exact hone

theorem importOne_gives_made {node : Node}
    (only : w.resolver s = { registry := (w.importer i).registry, metaPath := [.hook i] })
    (absent : w.lookup (w.importer i).registry name = none)
    (hmakes : w.makes host i name = .ok node) :
    (s.importOne name).Gives host w (host.importQuestions (w.importer i).enquirer name)
      (.ok w.nextNode) (w.load host i name) := by
  have hone := importOne_gives_absent host only absent
  rw [hmakes] at hone
  exact hone

end Steps

namespace World

variable {host : FixedHost} {w : World} {i : ImporterId} {name : String}

/-- A node added under a name is not the parent of that name. -/
theorem lookup_parent_addRegistered {node : Node} {parent : String} (r : RegistryId)
    (hname : node.name = name) (hparent : parentPackage? name = some parent) :
    (w.addRegistered node).lookup r parent = w.lookup r parent := by
  rw [lookup_addRegistered, if_neg]
  rintro ⟨-, rfl⟩
  exact parent_ne_self hparent hname

theorem bindOnParent_cases (w : World) (r : RegistryId) (name : String) :
    w.bindOnParent r name = w ∨
      ∃ parent n, parentPackage? name = some parent ∧ w.lookup r parent = some n ∧
        w.bindOnParent r name = w.bindSubmodule n (leafName name) name := by
  rw [bindOnParent]
  cases hparent : parentPackage? name with
  | none => exact .inl rfl
  | some parent =>
      simp only [Option.bind_some]
      cases hlookup : w.lookup r parent with
      | none => exact .inl rfl
      | some n => exact .inr ⟨parent, n, rfl, hlookup, rfl⟩

@[simp] theorem lookup_bindOnParent (r r' : RegistryId) (name' : String) :
    (w.bindOnParent r name).lookup r' name' = w.lookup r' name' := by
  rcases w.bindOnParent_cases r name with h | ⟨parent, n, -, -, h⟩ <;> rw [h]
  rfl

/-- A load adds a node at most, and binds at most one name. -/
theorem load_cases (host : FixedHost) (i : ImporterId) (w : World) (name : String) :
    w.load host i name = w ∨ ∃ node, w.load host i name = w.addRegistered node ∨
      ∃ n, w.load host i name = (w.addRegistered node).bindSubmodule n (leafName name) name := by
  rw [load]
  split
  · rename_i node _
    rcases (w.addRegistered node).bindOnParent_cases node.registry name with
      h | ⟨parent, n, -, -, h⟩
    · exact .inr ⟨node, .inl h⟩
    · exact .inr ⟨node, .inr ⟨n, h⟩⟩
  · exact .inl rfl

@[simp] theorem importer_load : (w.load host i name).importer = w.importer := by
  rcases load_cases host i w name with h | ⟨node, h | ⟨n, h⟩⟩ <;> rw [h] <;> rfl

@[simp] theorem resolver_load : (w.load host i name).resolver = w.resolver := by
  rcases load_cases host i w name with h | ⟨node, h | ⟨n, h⟩⟩ <;> rw [h] <;> rfl

@[simp] theorem makes_load (name' : String) :
    (w.load host i name).makes host i name' = w.makes host i name' := by
  simp only [makes, moduleOf, packageOf, importer_load]

theorem lookup_load {node : Node} (hmakes : w.makes host i name = .ok node) (name' : String) :
    (w.load host i name).lookup (w.importer i).registry name' =
      if name = name' then some w.nextNode else w.lookup (w.importer i).registry name' := by
  obtain ⟨hname, hregistry⟩ := name_of_makes hmakes
  simp only [load, hmakes, lookup_bindOnParent, lookup_addRegistered, hname, hregistry, true_and]

end World

/-- The names of a list that nothing is registered under. -/
def World.unregistered (w : World) (r : RegistryId) (names : List String) : List String :=
  names.filter fun name => (w.lookup r name).isNone

section Import

variable {host : FixedHost} {w : World} {i : ImporterId} {s : ResolverId}

theorem unregistered_cons_of_some {r : RegistryId} {name : String} {n : NodeId}
    (there : w.lookup r name = some n) (names : List String) :
    w.unregistered r (name :: names) = w.unregistered r names := by
  simp [World.unregistered, there]

theorem unregistered_cons_of_none {r : RegistryId} {name : String}
    (absent : w.lookup r name = none) (names : List String) :
    w.unregistered r (name :: names) = name :: w.unregistered r names := by
  simp [World.unregistered, absent]

theorem unregistered_load {name : String} {node : Node} (hmakes : w.makes host i name = .ok node)
    {names : List String} (hname : name ∉ names) :
    (w.load host i name).unregistered (w.importer i).registry names =
      w.unregistered (w.importer i).registry names := by
  refine List.filter_congr fun other hother => ?_
  have hne : name ≠ other := fun heq => hname (heq ▸ hother)
  rw [World.lookup_load hmakes, if_neg hne]

/-- What it gives to import names in order, the last of them for its node, when these are the ones
that are not registered. -/
inductive ImportsInOrder (host : FixedHost) (w : World) (i : ImporterId) (fresh : List String)
    (last : String) (p : Bridge (Except ImportError NodeId)) : Prop
  | stopped {loaded later : List String} {failed : String} {error : ImportError}
      (split : fresh = loaded ++ failed :: later)
      (made : ∀ name ∈ loaded, ∃ node, w.makes host i name = .ok node)
      (fails : w.makes host i failed = .error error)
      (gives : p.Gives host w
        ((loaded ++ [failed]).flatMap (host.importQuestions (w.importer i).enquirer))
        (.error error) (loaded.foldl (World.load host i) w))
  | finished {n : NodeId} (made : ∀ name ∈ fresh, ∃ node, w.makes host i name = .ok node)
      (there : (fresh.foldl (World.load host i) w).lookup (w.importer i).registry last = some n)
      (gives : p.Gives host w (fresh.flatMap (host.importQuestions (w.importer i).enquirer))
        (.ok n) (fresh.foldl (World.load host i) w))

namespace ImportsInOrder

variable {fresh names : List String} {name last : String} {error : ImportError} {node : Node}

theorem of_error
    (only : w.resolver s = { registry := (w.importer i).registry, metaPath := [.hook i] })
    (absent : w.lookup (w.importer i).registry last = none)
    (hmakes : w.makes host i last = .error error) :
    ImportsInOrder host w i [last] last (s.importAll last []) := by
  have hone := importOne_gives_error only absent hmakes
  refine stopped (List.nil_append [last]).symm (by simp) hmakes ?_
  rw [List.nil_append, List.flatMap_singleton]
  exact hone

theorem of_made
    (only : w.resolver s = { registry := (w.importer i).registry, metaPath := [.hook i] })
    (absent : w.lookup (w.importer i).registry last = none)
    (hmakes : w.makes host i last = .ok node) :
    ImportsInOrder host w i [last] last (s.importAll last []) := by
  have hone := importOne_gives_made only absent hmakes
  refine finished (by simp [hmakes]) ((World.lookup_load hmakes last).trans (if_pos rfl)) ?_
  rw [List.flatMap_singleton]
  exact hone

theorem cons_present {n : NodeId} (there : (s.importOne name).Gives host w [] (.ok n) w)
    (h : ImportsInOrder host w i fresh last (s.importAll last names)) :
    ImportsInOrder host w i fresh last (s.importAll last (name :: names)) := by
  cases h with
  | stopped split made fails gives => exact stopped split made fails (there.then gives)
  | finished made hlast gives => exact finished made hlast (there.then gives)

theorem cons_error
    (only : w.resolver s = { registry := (w.importer i).registry, metaPath := [.hook i] })
    (absent : w.lookup (w.importer i).registry name = none)
    (hmakes : w.makes host i name = .error error) :
    ImportsInOrder host w i (name :: fresh) last (s.importAll last (name :: names)) := by
  have hone := importOne_gives_error only absent hmakes
  refine stopped (List.nil_append (name :: fresh)).symm (by simp) hmakes ?_
  rw [List.nil_append, List.flatMap_singleton]
  exact hone.before (Bridge.gives_pure _ w)

theorem cons_made
    (only : w.resolver s = { registry := (w.importer i).registry, metaPath := [.hook i] })
    (absent : w.lookup (w.importer i).registry name = none)
    (hmakes : w.makes host i name = .ok node)
    (h : ImportsInOrder host (w.load host i name) i fresh last (s.importAll last names)) :
    ImportsInOrder host w i (name :: fresh) last (s.importAll last (name :: names)) := by
  have hone := importOne_gives_made only absent hmakes
  cases h with
  | @stopped loaded later failed error split made fails gives =>
      simp only [World.importer_load, World.makes_load] at made fails gives
      have hsplit : name :: fresh = (name :: loaded) ++ failed :: later :=
        congrArg (List.cons name) split
      refine stopped hsplit ?_ fails (hone.bind gives)
      simpa [hmakes] using made
  | finished made hlast gives =>
      simp only [World.importer_load, World.makes_load] at made hlast gives
      refine finished ?_ hlast (hone.bind gives)
      simpa [hmakes] using made

end ImportsInOrder

/-- Importing different names in order loads the unregistered ones, up to the first that cannot be
loaded. -/
theorem importAll_inOrder (host : FixedHost)
    (only : w.resolver s = { registry := (w.importer i).registry, metaPath := [.hook i] })
    {names : List String} {last : String} (nodup : (names ++ [last]).Nodup) :
    ImportsInOrder host w i (w.unregistered (w.importer i).registry (names ++ [last])) last
      (s.importAll last names) := by
  induction names generalizing w with
  | nil =>
      rw [List.nil_append]
      cases hlookup : w.lookup (w.importer i).registry last with
      | some n =>
          rw [unregistered_cons_of_some hlookup]
          have hone := importOne_gives_present host (show w.lookup (w.resolver s).registry last =
            some n by rw [only]; exact hlookup)
          exact .finished (fun _ hmem => absurd hmem List.not_mem_nil) hlookup hone
      | none =>
          rw [unregistered_cons_of_none hlookup]
          cases hmakes : w.makes host i last with
          | error error => exact .of_error only hlookup hmakes
          | ok node => exact .of_made only hlookup hmakes
  | cons name names ih =>
      rw [List.cons_append, List.nodup_cons] at nodup
      rw [List.cons_append]
      cases hlookup : w.lookup (w.importer i).registry name with
      | some n =>
          rw [unregistered_cons_of_some hlookup]
          have hone := importOne_gives_present host (show w.lookup (w.resolver s).registry name =
            some n by rw [only]; exact hlookup)
          exact .cons_present hone (ih only nodup.2)
      | none =>
          rw [unregistered_cons_of_none hlookup]
          cases hmakes : w.makes host i name with
          | error error => exact .cons_error only hlookup hmakes
          | ok node =>
              have only' : (w.load host i name).resolver s =
                  { registry := ((w.load host i name).importer i).registry
                    metaPath := [.hook i] } := by
                rw [World.resolver_load, World.importer_load]
                exact only
              -- The names behind are unregistered after the load if they were before.
              have hrest := ih only' nodup.2
              rw [World.importer_load, unregistered_load hmakes nodup.1] at hrest
              exact .cons_made only hlookup hmakes hrest

end Import

/-- A world after new names have been loaded in order: each has a node of its own, bound on the
node of its parent, and nothing else has changed. -/
structure World.Loaded (host : FixedHost) (i : ImporterId) (w : World) (new : List String)
    (w' : World) : Prop where
  world : w' = new.foldl (World.load host i) w
  next : w'.nodes.next = w.nodes.next + new.length
  lookup : ∀ name, w'.lookup (w.importer i).registry name =
    if name ∈ new then some ⟨w.nodes.next + new.idxOf name⟩
    else w.lookup (w.importer i).registry name
  node : ∀ name ∈ new, ∃ node cache, w.makes host i name = .ok node ∧
    w'.node ⟨w.nodes.next + new.idxOf name⟩ = { node with cache }
  bound : ∀ name ∈ new, ∀ parent, parentPackage? name = some parent →
    ∃ m, w'.lookup (w.importer i).registry parent = some m ∧
      (w'.node m).cache[leafName name]? = some (.submodule name)
  kept : ∀ m : NodeId, m.index < w.nodes.next → ∃ cache, w'.node m = { w.node m with cache }
  cached : ∀ (m : NodeId) attr, m.index < w.nodes.next →
    (∀ name ∈ new, leafName name = attr →
      (parentPackage? name).bind (w.lookup (w.importer i).registry) ≠ some m) →
    (w'.node m).cache[attr]? = (w.node m).cache[attr]?

namespace World

variable {host : FixedHost} {i : ImporterId} {w v : World} {new : List String} {name : String}

theorem Loaded.nil (host : FixedHost) (i : ImporterId) (w : World) : w.Loaded host i [] w where
  world := rfl
  next := rfl
  lookup _ := (if_neg List.not_mem_nil).symm
  node _ h := absurd h List.not_mem_nil
  bound _ h := absurd h List.not_mem_nil
  kept m _ := ⟨(w.node m).cache, rfl⟩
  cached _ _ _ _ := rfl

theorem node_bindOnParent (w : World) (r : RegistryId) (name : String) (m : NodeId) :
    ∃ cache, (w.bindOnParent r name).node m = { w.node m with cache } := by
  rcases w.bindOnParent_cases r name with h | ⟨parent, n, -, -, h⟩
  · exact ⟨(w.node m).cache, by rw [h]⟩
  · rw [h, bindSubmodule, node_updateNode]
    split
    · exact ⟨_, rfl⟩
    · exact ⟨(w.node m).cache, rfl⟩

theorem cache_bindSubmodule (w : World) (n m : NodeId) (attr attr' name : String) :
    ((w.bindSubmodule n attr name).node m).cache[attr']? =
      if n = m ∧ attr = attr' then some (.submodule name) else (w.node m).cache[attr']? := by
  rw [bindSubmodule, node_updateNode]
  by_cases hnm : n = m
  · simp [hnm, Node.bind, Std.ExtTreeMap.getElem?_insert]
  · simp [hnm]

@[simp] theorem next_bindOnParent (r : RegistryId) :
    (w.bindOnParent r name).nodes.next = w.nodes.next := by
  rcases w.bindOnParent_cases r name with h | ⟨parent, n, -, -, h⟩ <;> rw [h]
  rfl

theorem importer_foldl_load (names : List String) :
    (names.foldl (World.load host i) w).importer = w.importer := by
  induction names generalizing w with
  | nil => rfl
  | cons name names ih => rw [List.foldl_cons, ih, importer_load]

theorem resolver_foldl_load (names : List String) :
    (names.foldl (World.load host i) w).resolver = w.resolver := by
  induction names generalizing w with
  | nil => rfl
  | cons name names ih => rw [List.foldl_cons, ih, resolver_load]

theorem makes_foldl_load (names : List String) (name : String) :
    (names.foldl (World.load host i) w).makes host i name = w.makes host i name := by
  simp only [makes, moduleOf, packageOf, importer_foldl_load]

theorem KeyedByName.bindOnParent {r r' : RegistryId} (h : w.KeyedByName r) :
    (w.bindOnParent r' name).KeyedByName r := by
  constructor
  · intro name' m hlookup
    rw [lookup_bindOnParent] at hlookup
    rw [next_bindOnParent]
    exact h.lt_next hlookup
  · intro name' m hlookup
    rw [lookup_bindOnParent] at hlookup
    obtain ⟨cache, hcache⟩ := w.node_bindOnParent r' name m
    rw [hcache]
    exact h.name_eq hlookup

theorem KeyedByName.load {r : RegistryId} (h : w.KeyedByName r) :
    (w.load host i name).KeyedByName r := by
  rw [World.load]
  split
  · exact (h.addRegistered _).bindOnParent
  · exact h

theorem KeyedByName.foldl_load {r : RegistryId} (h : w.KeyedByName r) (names : List String) :
    (names.foldl (World.load host i) w).KeyedByName r := by
  induction names generalizing w with
  | nil => exact h
  | cons name names ih => exact ih h.load

section Load

variable {node : Node} (hmakes : w.makes host i name = .ok node)

include hmakes

theorem load_eq : w.load host i name =
    (w.addRegistered node).bindOnParent (w.importer i).registry name := by
  rw [load, hmakes, ← (name_of_makes hmakes).2]

theorem next_load : (w.load host i name).nodes.next = w.nodes.next + 1 := by
  rw [load_eq hmakes, next_bindOnParent]
  rfl

theorem node_load_self : ∃ cache, (w.load host i name).node w.nextNode = { node with cache } := by
  obtain ⟨cache, hcache⟩ := (w.addRegistered node).node_bindOnParent (w.importer i).registry name
    w.nextNode
  rw [load_eq hmakes, hcache, node_addRegistered_self]
  exact ⟨cache, rfl⟩

theorem node_load_of_lt {m : NodeId} (hm : m.index < w.nodes.next) :
    ∃ cache, (w.load host i name).node m = { w.node m with cache } := by
  obtain ⟨cache, hcache⟩ := (w.addRegistered node).node_bindOnParent (w.importer i).registry name m
  rw [load_eq hmakes, hcache, node_addRegistered_of_lt w hm]
  exact ⟨cache, rfl⟩

theorem cache_load {m : NodeId} (hm : m.index < w.nodes.next) (attr : String) :
    ((w.load host i name).node m).cache[attr]? =
      if (parentPackage? name).bind (w.lookup (w.importer i).registry) = some m ∧
          leafName name = attr then some (.submodule name)
      else (w.node m).cache[attr]? := by
  obtain ⟨hname, hregistry⟩ := name_of_makes hmakes
  have hlookup :
      (parentPackage? name).bind ((w.addRegistered node).lookup (w.importer i).registry) =
        (parentPackage? name).bind (w.lookup (w.importer i).registry) := by
    cases hparent : parentPackage? name with
    | none => rfl
    | some parent =>
        rw [Option.bind_some, Option.bind_some, lookup_parent_addRegistered _ hname hparent]
  rw [load_eq hmakes, bindOnParent, hlookup]
  cases (parentPackage? name).bind (w.lookup (w.importer i).registry) with
  | none => simp [node_addRegistered_of_lt w hm]
  | some parent =>
      simp only [cache_bindSubmodule, node_addRegistered_of_lt w hm, Option.some.injEq]

end Load

section Step

theorem Loaded.importer (h : w.Loaded host i new v) : v.importer = w.importer := by
  rw [h.world, importer_foldl_load]

theorem Loaded.keyedByName (h : w.Loaded host i new v)
    (named : w.KeyedByName (w.importer i).registry) : v.KeyedByName (w.importer i).registry := by
  rw [h.world]
  exact named.foldl_load new

theorem Loaded.makes (h : w.Loaded host i new v) (name : String) :
    v.makes host i name = w.makes host i name := by
  rw [h.world, makes_foldl_load]

theorem Loaded.lt_next (h : w.Loaded host i new v) {m : NodeId} (hm : m.index < w.nodes.next) :
    m.index < v.nodes.next := by
  rw [h.next]
  omega

theorem Loaded.idxOf_lt_next (h : w.Loaded host i new v) (hname : name ∈ new) :
    w.nodes.next + new.idxOf name < v.nodes.next := by
  have hlt := List.idxOf_lt_length_of_mem hname
  rw [h.next]
  omega

theorem Loaded.idxOf_append_self (h : w.Loaded host i new v) (fresh : name ∉ new) :
    (⟨w.nodes.next + (new ++ [name]).idxOf name⟩ : NodeId) = v.nextNode := by
  rw [List.idxOf_append, if_neg fresh, List.idxOf_cons_self, nextNode, h.next, Nat.zero_add]

variable {node : Node}

theorem Loaded.lookup_load (h : w.Loaded host i new v) (hmakes : w.makes host i name = .ok node)
    (other : String) :
    (v.load host i name).lookup (w.importer i).registry other =
      if name = other then some v.nextNode else v.lookup (w.importer i).registry other := by
  have hlookup := World.lookup_load ((h.makes name).trans hmakes) other
  rwa [h.importer] at hlookup

theorem Loaded.cache_load (h : w.Loaded host i new v) (hmakes : w.makes host i name = .ok node)
    {m : NodeId} (hm : m.index < v.nodes.next) (attr : String) :
    ((v.load host i name).node m).cache[attr]? =
      if (parentPackage? name).bind (v.lookup (w.importer i).registry) = some m ∧
          leafName name = attr then some (.submodule name)
      else (v.node m).cache[attr]? := by
  have hcache := World.cache_load ((h.makes name).trans hmakes) hm attr
  rwa [h.importer] at hcache

/-- A name is bound on its parent and stays bound when others are loaded. -/
theorem Loaded.bound_load (named : w.KeyedByName (w.importer i).registry)
    (h : w.Loaded host i new v) (fresh : name ∉ new)
    (absent : w.lookup (w.importer i).registry name = none)
    (hmakes : w.makes host i name = .ok node)
    (hparent : ∀ parent, parentPackage? name = some parent →
      parent ∈ new ∨ (w.lookup (w.importer i).registry parent).isSome) :
    ∀ other ∈ new ++ [name], ∀ parent, parentPackage? other = some parent →
      ∃ m, (v.load host i name).lookup (w.importer i).registry parent = some m ∧
        ((v.load host i name).node m).cache[leafName other]? = some (.submodule other) := by
  have hkeyed := h.keyedByName named
  have hthere : ∀ {other m}, v.lookup (w.importer i).registry other = some m →
      (v.load host i name).lookup (w.importer i).registry other = some m := by
    intro other m hm
    have hne : name ≠ other := by
      rintro rfl
      rw [h.lookup, if_neg fresh, absent] at hm
      cases hm
    rw [h.lookup_load hmakes, if_neg hne, hm]
  intro other hother parent hofother
  rcases List.mem_append.mp hother with hother | hother
  · obtain ⟨m, hm, hcache⟩ := h.bound other hother parent hofother
    refine ⟨m, hthere hm, ?_⟩
    rw [h.cache_load hmakes (hkeyed.lt_next hm), if_neg, hcache]
    -- The same leaf on the same parent would be the same name.
    rintro ⟨hbind, hleaf⟩
    obtain ⟨parent', hofname, hm'⟩ := Option.bind_eq_some_iff.mp hbind
    have hparents : parent' = parent := (hkeyed.name_eq hm').symm.trans (hkeyed.name_eq hm)
    apply fresh
    rwa [eq_of_parentPackage hofname, hleaf, hparents, ← eq_of_parentPackage hofother]
  · obtain rfl := List.mem_singleton.mp hother
    have hsome : (v.lookup (w.importer i).registry parent).isSome := by
      rw [h.lookup]
      split
      · rfl
      · exact (hparent parent hofother).resolve_left ‹_›
    obtain ⟨m, hm⟩ := Option.isSome_iff_exists.mp hsome
    refine ⟨m, hthere hm, ?_⟩
    rw [h.cache_load hmakes (hkeyed.lt_next hm), if_pos]
    rw [hofother, Option.bind_some]
    exact ⟨hm, rfl⟩

/-- A node that was there before changes only where a new name is bound on it. -/
theorem Loaded.cached_load (h : w.Loaded host i new v) (hmakes : w.makes host i name = .ok node)
    (m : NodeId) (attr : String) (hm : m.index < w.nodes.next)
    (hother : ∀ other ∈ new ++ [name], leafName other = attr →
      (parentPackage? other).bind (w.lookup (w.importer i).registry) ≠ some m) :
    ((v.load host i name).node m).cache[attr]? = (w.node m).cache[attr]? := by
  rw [h.cache_load hmakes (h.lt_next hm), if_neg, h.cached m attr hm fun other hmem =>
    hother other (List.mem_append_left _ hmem)]
  rintro ⟨hbind, hleaf⟩
  apply hother name (by simp) hleaf
  obtain ⟨parent, hofname, hlook⟩ := Option.bind_eq_some_iff.mp hbind
  rw [h.lookup] at hlook
  rw [hofname, Option.bind_some]
  split at hlook
  · obtain rfl := Option.some.inj hlook
    exact absurd hm (Nat.not_lt.mpr (Nat.le_add_right _ _))
  · exact hlook

theorem Loaded.step (named : w.KeyedByName (w.importer i).registry) (h : w.Loaded host i new v)
    (fresh : name ∉ new) (absent : w.lookup (w.importer i).registry name = none)
    (hmakes : w.makes host i name = .ok node)
    (hparent : ∀ parent, parentPackage? name = some parent →
      parent ∈ new ∨ (w.lookup (w.importer i).registry parent).isSome) :
    w.Loaded host i (new ++ [name]) (v.load host i name) := by
  have hmakes' := (h.makes name).trans hmakes
  have hindex := h.idxOf_append_self fresh
  have hbefore : ∀ other ∈ new, (new ++ [name]).idxOf other = new.idxOf other := by
    intro other hother
    rw [List.idxOf_append, if_pos hother]
  constructor
  · rw [List.foldl_append, ← h.world]
    rfl
  · rw [next_load hmakes', h.next, List.length_append, List.length_singleton, Nat.add_assoc]
  · intro other
    rw [h.lookup_load hmakes]
    by_cases heq : name = other
    · rw [if_pos heq, if_pos (by simp [heq]), ← hindex, heq]
    · rw [if_neg heq, h.lookup]
      by_cases hother : other ∈ new
      · rw [if_pos hother, if_pos (List.mem_append_left _ hother), hbefore other hother]
      · rw [if_neg hother, if_neg (by simp [hother, Ne.symm heq])]
  · intro other hother
    rcases List.mem_append.mp hother with hother | hother
    · obtain ⟨made, cache, hmade, hnode⟩ := h.node other hother
      obtain ⟨cache', hcache⟩ := node_load_of_lt hmakes' (h.idxOf_lt_next hother)
      refine ⟨made, cache', hmade, ?_⟩
      rw [hbefore other hother, hcache, hnode]
    · obtain rfl := List.mem_singleton.mp hother
      obtain ⟨cache, hcache⟩ := node_load_self hmakes'
      refine ⟨node, cache, hmakes, ?_⟩
      rw [hindex, hcache]
  · exact h.bound_load named fresh absent hmakes hparent
  · intro m hm
    obtain ⟨cache, hcache⟩ := h.kept m hm
    obtain ⟨cache', hcache'⟩ := node_load_of_lt hmakes' (h.lt_next hm)
    exact ⟨cache', by rw [hcache', hcache]⟩
  · exact h.cached_load hmakes

end Step

/-- Whether the parent of each name is registered or comes before it. -/
def ParentsFirst (w : World) (r : RegistryId) (names : List String) : Prop :=
  ∀ {front name back parent}, names = front ++ name :: back → parentPackage? name = some parent →
    parent ∈ front ∨ (w.lookup r parent).isSome

theorem ParentsFirst.of_append {r : RegistryId} {names more : List String}
    (h : w.ParentsFirst r (names ++ more)) : w.ParentsFirst r names := by
  rintro front name back parent rfl hparent
  exact h (by rw [List.append_assoc, List.cons_append]) hparent

theorem ParentsFirst.unregistered {r : RegistryId} {names : List String}
    (h : w.ParentsFirst r names) : w.ParentsFirst r (w.unregistered r names) := by
  intro front name back parent hsplit hparent
  obtain ⟨before, behind, rfl, rfl, hbehind⟩ := List.filter_eq_append_iff.mp hsplit
  obtain ⟨skipped, after, rfl, hskipped, -, rfl⟩ := List.filter_eq_cons_iff.mp hbehind
  have hhere := h (by rw [← List.append_assoc]) hparent
  cases hlookup : w.lookup r parent with
  | some m => exact .inr rfl
  | none =>
      have hmem := hhere.resolve_right (by simp [hlookup])
      rcases List.mem_append.mp hmem with hmem | hmem
      · exact .inl (List.mem_filter.mpr ⟨hmem, by simp [hlookup]⟩)
      · exact absurd (hskipped parent hmem) (by simp [hlookup])

theorem Loaded.foldl (named : w.KeyedByName (w.importer i).registry) (h : w.Loaded host i new v)
    {rest : List String} (nodup : (new ++ rest).Nodup)
    (absent : ∀ name ∈ rest, w.lookup (w.importer i).registry name = none)
    (made : ∀ name ∈ rest, ∃ node, w.makes host i name = .ok node)
    (parents : w.ParentsFirst (w.importer i).registry (new ++ rest)) :
    w.Loaded host i (new ++ rest) (rest.foldl (World.load host i) v) := by
  induction rest generalizing new v with
  | nil => simpa using h
  | cons name rest ih =>
      obtain ⟨node, hmakes⟩ := made name List.mem_cons_self
      have hfresh : name ∉ new := fun hmem =>
        (List.nodup_append.mp nodup).2.2 name hmem name List.mem_cons_self rfl
      have hstep := h.step named hfresh (absent name List.mem_cons_self) hmakes
        fun parent hparent => parents rfl hparent
      rw [List.append_cons] at nodup parents ⊢
      exact ih hstep nodup (fun other hother => absent other (List.mem_cons_of_mem _ hother))
        (fun other hother => made other (List.mem_cons_of_mem _ hother)) parents

end World

theorem parentsFirst_prefixes (w : World) (r : RegistryId) (name : String) :
    w.ParentsFirst r (prefixes name) := by
  intro front member back parent hsplit hparent
  rcases parentPackage_of_pathFrom (fun _ h => not_mem_of_mem_segments h) hsplit hparent with
    hmem | ⟨-, hroot⟩
  · exact .inl hmem
  · exact absurd rfl hroot

/-- Whether a question is about a name.  Whether modules can be loaded at all is about any. -/
def Query.Concerns (e : EnquirerId) (name : String) : Query → Prop
  | .isPackage e' name' | .isModule e' name' | .loadModule e' name' => e' = e ∧ name' = name
  | .loadsModules e' => e' = e
  | _ => False

theorem concerns_importQuestions (host : FixedHost) (e : EnquirerId) (name : String) :
    ∀ q ∈ host.importQuestions e name, q.Concerns e name := by
  have hmodule : ∀ q ∈ host.moduleQuestions e name, q.Concerns e name := by
    intro q hq
    rw [FixedHost.moduleQuestions] at hq
    split at hq
    · rcases List.mem_cons.mp hq with rfl | hq
      · rfl
      · obtain rfl := List.mem_singleton.mp hq
        exact ⟨rfl, rfl⟩
    · obtain rfl := List.mem_singleton.mp hq
      rfl
  intro q hq
  rw [FixedHost.importQuestions, FixedHost.claimQuestions, FixedHost.loadQuestions] at hq
  rcases List.mem_append.mp hq with hq | hq
  · rcases List.mem_cons.mp hq with rfl | hq
    · exact ⟨rfl, rfl⟩
    · split at hq
      · exact absurd hq List.not_mem_nil
      · exact hmodule q hq
  · split at hq
    · rcases List.mem_append.mp hq with hq | hq
      · exact hmodule q hq
      · split at hq
        · obtain rfl := List.mem_singleton.mp hq
          exact ⟨rfl, rfl⟩
        · exact absurd hq List.not_mem_nil
    · exact absurd hq List.not_mem_nil

/-- A name cannot be loaded if the host does not claim it, or if loading it raises. -/
theorem makes_eq_error_iff {host : FixedHost} {w : World} {i : ImporterId} {name : String}
    {error : ImportError} :
    w.makes host i name = .error error ↔
      (host.claims (w.importer i).enquirer name = false ∧ error = .moduleNotFound name) ∨
        (host.knowsModule (w.importer i).enquirer name = true ∧
          ∃ cause, host.loadModule (w.importer i).enquirer name = .error cause ∧
            error = .foreign cause) := by
  rw [World.makes, FixedHost.claims]
  cases host.knowsModule (w.importer i).enquirer name with
  | true =>
      cases host.loadModule (w.importer i).enquirer name with
      | ok handle => simp
      | error cause => simp [eq_comm]
  | false =>
      cases host.isPackage (w.importer i).enquirer name with
      | true => simp
      | false => simp [eq_comm]

section ImportName

variable {host : FixedHost} {w : World} {s : ResolverId} {name : String}

theorem importName_run_of_some (host : FixedHost) {n : NodeId}
    (there : w.lookup (w.resolver s).registry name = some n) :
    (s.importName name).run host w = ⟨.ok n, w, []⟩ := by
  change Bridge.run host (match w.lookup (w.resolver s).registry name with
    | some n => _
    | none => _) w = _
  rw [there]
  rfl

theorem importName_run_of_malformed (absent : w.lookup (w.resolver s).registry name = none)
    (malformed : "" ∈ segments name) :
    (s.importName name).run host w = ⟨.error (.invalidName name), w, []⟩ := by
  change Bridge.run host (match w.lookup (w.resolver s).registry name with
    | some n => _
    | none => _) w = _
  rw [absent, DottedName.parse_eq, if_pos malformed]
  rfl

/-- An import of an unregistered dotted name imports its prefixes in order. -/
theorem importName_gives {names : List String} {last : String} {asked : List Query}
    {result : Except ImportError NodeId} {w' : World}
    (absent : w.lookup (w.resolver s).registry name = none) (filled : "" ∉ segments name)
    (hprefixes : prefixes name = names ++ [last])
    (h : (s.importAll last names).Gives host w asked result w') :
    (s.importName name).Gives host w asked result w' := by
  have hparse : DottedName.parse name = some ⟨name, DottedName.dotsFrom 0 name.toList⟩ := by
    rw [DottedName.parse_eq, if_neg filled]
  have hnames := (ancestors_append_fullName hparse).trans hprefixes
  obtain ⟨hancestors, hlast⟩ := List.append_inj' hnames rfl
  refine ((Bridge.gives_world w).then (Bridge.gives_pure _ w)).then ?_
  simp only [absent, hparse]
  obtain rfl : name = last := List.singleton_inj.mp hlast
  rw [hancestors]
  exact h

theorem prefixes_eq_append (filled : "" ∉ segments name) :
    ∃ names, prefixes name = names ++ [name] := by
  have hparse : DottedName.parse name = some ⟨name, DottedName.dotsFrom 0 name.toList⟩ := by
    rw [DottedName.parse_eq, if_neg filled]
  exact ⟨_, (ancestors_append_fullName hparse).symm⟩

end ImportName

/-- Loading the unregistered prefixes of a name up to some point. -/
theorem loaded_of_prefixes {host : FixedHost} {w : World} {i : ImporterId} {name : String}
    {loaded later : List String} (named : w.KeyedByName (w.importer i).registry)
    (filled : "" ∉ segments name)
    (hsplit : w.unregistered (w.importer i).registry (prefixes name) = loaded ++ later)
    (made : ∀ p ∈ loaded, ∃ node, w.makes host i p = .ok node) :
    w.Loaded host i loaded (loaded.foldl (World.load host i) w) := by
  have hnodup : (loaded ++ later).Nodup := by
    rw [← hsplit]
    exact (nodup_pathFrom "" filled).filter _
  have hparents : w.ParentsFirst (w.importer i).registry (loaded ++ later) := by
    rw [← hsplit]
    exact World.ParentsFirst.unregistered (parentsFirst_prefixes w _ name)
  have habsent : ∀ p ∈ loaded, w.lookup (w.importer i).registry p = none := by
    intro p hp
    have hmem : p ∈ w.unregistered (w.importer i).registry (prefixes name) := by
      rw [hsplit]
      exact List.mem_append_left _ hp
    exact Option.isNone_iff_eq_none.mp (List.mem_filter.mp hmem).2
  have hnil := World.Loaded.nil host i w
  exact hnil.foldl named (List.nodup_append.mp hnodup).1 habsent made hparents.of_append

theorem concerns_flatMap (host : FixedHost) (e : EnquirerId) (names : List String) :
    ∀ q ∈ names.flatMap (host.importQuestions e), ∃ about ∈ names, q.Concerns e about := by
  intro q hq
  obtain ⟨about, hmem, hq⟩ := List.mem_flatMap.mp hq
  exact ⟨about, hmem, concerns_importQuestions host e about q hq⟩

/-- Everything about an import by a resolver with one importer: a registered name is answered from
the registry, a malformed one is refused, and for any other name the unregistered prefixes are
loaded in order, up to the first that is not claimed or does not load. -/
theorem importName_spec (host : FixedHost) {w : World} {s : ResolverId} {i : ImporterId}
    (name : String)
    (only : w.resolver s = { registry := (w.importer i).registry, metaPath := [.hook i] })
    (named : w.KeyedByName (w.importer i).registry) :
    let r := (w.importer i).registry
    let e := (w.importer i).enquirer
    let fresh := w.unregistered r (prefixes name)
    let o := (s.importName name).run host w
    (∀ n, w.lookup r name = some n → o = ⟨.ok n, w, []⟩) ∧
      (w.lookup r name = none → "" ∈ segments name → o = ⟨.error (.invalidName name), w, []⟩) ∧
      (w.lookup r name = none → "" ∉ segments name →
        (∃ loaded failed later error, fresh = loaded ++ failed :: later ∧
          ((host.claims e failed = false ∧ error = .moduleNotFound failed) ∨
            (host.knowsModule e failed = true ∧
              ∃ cause, host.loadModule e failed = .error cause ∧ error = .foreign cause)) ∧
          o.result = .error error ∧ w.Loaded host i loaded o.world ∧
          ∀ q ∈ o.questions, ∃ about ∈ loaded ++ [failed], q.Concerns e about) ∨
        ∃ n, o.result = .ok n ∧ o.world.lookup r name = some n ∧ (o.world.node n).name = name ∧
          w.Loaded host i fresh o.world ∧ (∀ p ∈ prefixes name, (o.world.lookup r p).isSome) ∧
          ∀ q ∈ o.questions, ∃ about ∈ fresh, q.Concerns e about) := by
  intro r e fresh o
  have hregistry : (w.resolver s).registry = r := by
    rw [only]
  refine ⟨fun n hn => importName_run_of_some host (hregistry ▸ hn), fun absent malformed =>
    importName_run_of_malformed (hregistry ▸ absent) malformed, fun absent filled => ?_⟩
  obtain ⟨names, hprefixes⟩ := prefixes_eq_append filled
  have hnodup : (names ++ [name]).Nodup := hprefixes ▸ nodup_pathFrom "" filled
  have hall := importAll_inOrder host only hnodup
  rw [← hprefixes] at hall
  cases hall with
  | stopped hsplit made hfails hgives =>
      have himport := importName_gives (hregistry ▸ absent) filled hprefixes hgives
      refine .inl ⟨_, _, _, _, hsplit, makes_eq_error_iff.mp hfails, himport.result, ?_, ?_⟩
      · rw [himport.world]
        exact loaded_of_prefixes named filled hsplit made
      · rw [himport.questions]
        exact concerns_flatMap host e _
  | @finished n made hn hgives =>
      have himport := importName_gives (hregistry ▸ absent) filled hprefixes hgives
      have hloaded := loaded_of_prefixes named filled (List.append_nil _).symm made
      rw [← himport.world] at hn hloaded
      refine .inr ⟨n, himport.result, hn, ?_, hloaded, ?_, ?_⟩
      · exact (hloaded.keyedByName named).name_eq hn
      · intro p hp
        rw [hloaded.lookup]
        split
        · rfl
        · rename_i hold
          rw [Option.isSome_iff_ne_none]
          exact fun hnone => hold (List.mem_filter.mpr ⟨hp, by rw [hnone]; rfl⟩)
      · rw [himport.questions]
        exact concerns_flatMap host e fresh

/-- The start of a process with an importer installed on its resolver. -/
def World.withHook : World :=
  (World.fresh.addImporter
    { registry := .processWide, enquirer := ⟨0⟩, classes := none, config := {} }).updateResolver
      .processWide fun resolver => { resolver with metaPath := [.hook ⟨0⟩] }

/-- The same process with one package imported. -/
def World.withImported : World :=
  World.withHook.addRegistered (World.withHook.packageOf ⟨0⟩ "pkg")

/-- `pkg` is imported already; `pkg.sub` is a package, and `pkg.sub.mod` a module below it. -/
theorem importName_spec_mod :
    let w := World.withImported
    let host : FixedHost := fun
      | .isPackage _ name => name == "pkg.sub"
      | question => FixedHost.knowing "pkg.sub.mod" ⟨7⟩ question
    let o := (ResolverId.processWide.importName "pkg.sub.mod").run host w
    (w.resolver .processWide = { registry := (w.importer ⟨0⟩).registry, metaPath := [.hook ⟨0⟩] } ∧
        w.KeyedByName (w.importer ⟨0⟩).registry) ∧
      (∃ n, o.result = .ok n ∧ o.world.lookup .processWide "pkg.sub.mod" = some n ∧
        (o.world.node n).name = "pkg.sub.mod") ∧
      w.Loaded host ⟨0⟩ ["pkg.sub", "pkg.sub.mod"] o.world ∧
      (∃ m, o.world.lookup .processWide "pkg.sub" = some m ∧
        (o.world.node m).cache["mod"]? = some (.submodule "pkg.sub.mod")) ∧
      ∀ q ∈ o.questions, ∃ about ∈ ["pkg.sub", "pkg.sub.mod"], q.Concerns ⟨0⟩ about := by
  intro w host o
  have only : w.resolver .processWide =
      { registry := (w.importer ⟨0⟩).registry, metaPath := [.hook ⟨0⟩] } := by decide
  have named : w.KeyedByName (w.importer ⟨0⟩).registry :=
    (World.KeyedByName.of_empty fun _ => rfl).addRegistered _
  have hfresh : w.unregistered (w.importer ⟨0⟩).registry (prefixes "pkg.sub.mod") =
      ["pkg.sub", "pkg.sub.mod"] := by decide +kernel
  have hspec := (importName_spec host "pkg.sub.mod" only named).2.2 (by decide +kernel) (by decide)
  rw [hfresh] at hspec
  refine ⟨⟨only, named⟩, ?_⟩
  rcases hspec with ⟨loaded, failed, later, error, hsplit, hfails, -⟩ |
    ⟨n, hn, hthere, hname, hloaded, -, hasked⟩
  · have hmem : failed ∈ ["pkg.sub", "pkg.sub.mod"] := by
      rw [hsplit]
      exact List.mem_append_right _ List.mem_cons_self
    have hclaimed : ∀ p ∈ ["pkg.sub", "pkg.sub.mod"],
        host.claims (w.importer ⟨0⟩).enquirer p = true := by decide
    rcases hfails with ⟨hfails, -⟩ | ⟨hknows, cause, hraises, -⟩
    · cases (hclaimed failed hmem).symm.trans hfails
    · obtain rfl : failed = "pkg.sub.mod" := of_decide_eq_true hknows
      cases hraises
  · obtain ⟨m, hm, hbound⟩ := hloaded.bound "pkg.sub.mod" (by simp) "pkg.sub" (by decide)
    exact ⟨⟨n, hn, hthere, hname⟩, hloaded, ⟨m, hm, hbound⟩, hasked⟩

end ForeignNamespace
