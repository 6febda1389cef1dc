import ForeignNamespace.Proofs.ImportByPrefix
import ForeignNamespace.Proofs.SubmoduleBindings

/-!
What an attribute access leaves behind.

Against a host that only answers, an access takes what is kept and changes nothing, or it drops a
binding to a name that is not registered and then finds something else or fails.  There are six ways
of finding something (`World.Finds`), and every effect of an access is read off them.
-/

namespace ForeignNamespace

namespace World

/-- What is kept under a short name and can still be had. -/
def kept? (w : World) (n : NodeId) (attr : String) : Option Value :=
  match (w.node n).cache[attr]? with
  | none => none
  | some (.value v) => some v
  | some (.submodule name) => ((w.registryOf? n).bind (w.lookup · name)).map .node

/-- The node that is registered under the name of a child. -/
def child? (w : World) (n : NodeId) (attr : String) : Option NodeId :=
  (w.registryOf? n).bind (w.lookup · (childName (w.node n).name attr))

/-- The world that an access goes on from if nothing is kept that can be had: what was bound to a
name that is not registered is bound no more. -/
inductive Evicts (w : World) (n : NodeId) (attr : String) : World → Prop
  | unbound (free : (w.node n).cache[attr]? = none) : Evicts w n attr w
  | stale {name : String} (bound : (w.node n).cache[attr]? = some (.submodule name))
      (gone : (w.registryOf? n).bind (w.lookup · name) = none) :
      Evicts w n attr (w.updateNode n (·.unbind attr))

section Evicts

variable {w u : World} {n : NodeId} {attr : String}

theorem Evicts.next (h : w.Evicts n attr u) : u.nodes.next = w.nodes.next := by
  cases h <;> rfl

theorem Evicts.registries (h : w.Evicts n attr u) : u.registries = w.registries := by
  cases h <;> rfl

theorem Evicts.node (h : w.Evicts n attr u) (m : NodeId) :
    ∃ cache, u.node m = { w.node m with cache } := by
  cases h with
  | unbound => exact ⟨(w.node m).cache, rfl⟩
  | stale =>
      rw [node_updateNode]
      split
      · exact ⟨_, rfl⟩
      · exact ⟨(w.node m).cache, rfl⟩

theorem Evicts.isAlive (h : w.Evicts n attr u) (handle : Handle) :
    u.isAlive handle = w.isAlive handle := by
  cases h <;> rfl

theorem Evicts.registryOf?_eq (h : w.Evicts n attr u) (m : NodeId) :
    u.registryOf? m = w.registryOf? m := by
  obtain ⟨cache, hnode⟩ := h.node m
  simp only [registryOf?, hnode, h.isAlive]

theorem Evicts.child?_eq (h : w.Evicts n attr u) : u.child? n attr = w.child? n attr := by
  obtain ⟨cache, hnode⟩ := h.node n
  simp only [child?, hnode, h.registryOf?_eq, lookup_of_registries h.registries]

end Evicts

/-- The ways to find a value that is not kept, after these exchanges, and the worlds that they
leave. -/
inductive Finds (w : World) (n : NodeId) (attr : String) (talk : List Exchange) :
    Value → World → Prop
  /-- Metadata, the exported names and the foreign handle are not bound. -/
  | told (v : Value) : Finds w n attr talk v w
  | answered {o : ObjectId} {v : Value} (backed : (w.node n).handle = some o)
      (said : ⟨.getAttr o attr, .ok (some v)⟩ ∈ talk) :
      Finds w n attr talk v
        (w.updateNode n (·.bind attr (Binding.ofValue (fun m => (w.node m).name) v)))
  | resolved (c : ClassHandle) :
      Finds w n attr talk (.classHandle c) (w.updateNode n (·.bind attr (.value (.classHandle c))))
  /-- A foreign module that is registered under the child's name is registered once more, under its
  own name. -/
  | promoted {r : RegistryId} {e : EnquirerId} {m : NodeId} (live : w.registryOf? n = some r)
      (has : (w.node n).enquirer = some e)
      (there : w.lookup r (childName (w.node n).name attr) = some m) :
      Finds w n attr talk (.node m)
        (((w.link m (w.node n).loader (some e)).register r (w.node m).name m).bindSubmodule n attr
          (childName (w.node n).name attr))
  | listed {r : RegistryId} {m : NodeId} (live : w.registryOf? n = some r)
      (there : w.lookup r (childName (w.node n).name attr) = some m) :
      Finds w n attr talk (.node m) (w.bindSubmodule n attr (childName (w.node n).name attr))
  /-- A foreign module is loaded, or a sub-package has no node yet. -/
  | made {node : Node} (live : w.registryOf? n = some node.registry)
      (named : node.name = childName (w.node n).name attr)
      (absent : w.lookup node.registry node.name = none) :
      Finds w n attr talk (.node w.nextNode)
        ((w.addRegistered node).bindSubmodule n attr (childName (w.node n).name attr))

/-- What a world becomes by finding a value or none. -/
def Settles (w : World) (n : NodeId) (attr : String) (talk : List Exchange) :
    Option Value → World → Prop
  | some value, w' => w.Finds n attr talk value w'
  | none, w' => w' = w

theorem Finds.mono {w v : World} {n : NodeId} {attr : String} {talk talk' : List Exchange}
    {value : Value} (h : w.Finds n attr talk value v) (hsub : talk ⊆ talk') :
    w.Finds n attr talk' value v := by
  cases h with
  | told => exact .told value
  | answered backed said => exact .answered backed (hsub said)
  | resolved c => exact .resolved c
  | promoted live has there => exact .promoted live has there
  | listed live there => exact .listed live there
  | made live named absent => exact .made live named absent

theorem Settles.mono {w v : World} {n : NodeId} {attr : String} {talk talk' : List Exchange}
    {found : Option Value} (h : w.Settles n attr talk found v) (hsub : talk ⊆ talk') :
    w.Settles n attr talk' found v := by
  cases found with
  | some value => exact Finds.mono h hsub
  | none => exact h

theorem Settles.unchanged (w : World) (n : NodeId) (attr : String) (talk : List Exchange)
    (found : Option Value) : w.Settles n attr talk found w :=
  match found with
  | some value => .told value
  | none => rfl

end World

/-- What a strategy has found. -/
def Resolution.value? : Resolution → Option Value
  | .found value => some value
  | .notFound => none

section Strategies

open Attribute

variable {w w' : World} {n : NodeId} {attr : String} {talk : List Exchange}
  {answer : Except ImportError Resolution}

theorem cached_talks {found : Option Value} (h : (n.cached? attr).Talks w talk found w') :
    talk = [] ∧ w.kept? n attr = found ∧ (found.isSome → w' = w) ∧
      (found = none → w.Evicts n attr w') := by
  simp only [NodeId.cached?, Bridge.talks_world_bind_iff] at h
  cases hbound : (w.node n).cache[attr]? with
  | none =>
      simp only [hbound, Bridge.talks_pure_iff] at h
      obtain ⟨rfl, rfl, rfl⟩ := h
      simpa [World.kept?, hbound] using World.Evicts.unbound hbound
  | some binding =>
      cases binding with
      | value v =>
          simp only [hbound, Bridge.talks_pure_iff] at h
          obtain ⟨rfl, rfl, rfl⟩ := h
          simp [World.kept?, hbound]
      | submodule name =>
          cases hthere : (w.registryOf? n).bind (w.lookup · name) with
          | some m =>
              simp only [hbound, hthere, Bridge.talks_pure_iff] at h
              obtain ⟨rfl, rfl, rfl⟩ := h
              simp [World.kept?, hbound, hthere]
          | none =>
              simp only [hbound, hthere, Bridge.talks_modify_bind_iff, Bridge.talks_report_bind_iff,
                Bridge.talks_pure_iff] at h
              obtain ⟨rfl, rfl, rfl⟩ := h
              simpa [World.kept?, hbound, hthere] using World.Evicts.stale hbound hthere

theorem delegate_settles (h : (n.delegate attr).Talks w talk answer w') :
    w.Settles n attr talk (answer.toOption.bind Resolution.value?) w' := by
  simp only [NodeId.delegate, Bridge.talks_world_bind_iff] at h
  cases hhandle : (w.node n).handle with
  | none =>
      simp only [hhandle, Bridge.talks_pure_iff] at h
      obtain ⟨rfl, rfl, rfl⟩ := h
      rfl
  | some o =>
      simp only [hhandle, Bridge.talks_getAttr_bind_iff] at h
      obtain ⟨reply, rest, rfl, h⟩ := h
      rcases reply with error | (_ | v)
      · obtain ⟨rfl, rfl, rfl⟩ := h
        rfl
      · obtain ⟨rfl, rfl, rfl⟩ := h
        rfl
      · simp only [Bridge.talks_bind_iff] at h
        obtain ⟨front, back, truth, v', rfl, hask, h⟩ := h
        obtain ⟨-, rfl⟩ := truth_of_talks hask
        cases truth with
        | false =>
            obtain ⟨rfl, rfl, rfl⟩ := h
            rfl
        | true =>
            obtain ⟨rfl, rfl, rfl⟩ := h
            exact .answered hhandle List.mem_cons_self

/-- The node registered under a name is linked, registered under its own name, and bound. -/
theorem adopt_registers {r : RegistryId} {e : EnquirerId} {name : String} {child : NodeId}
    {found : Resolution} (hlookup : w.lookup r name = some child)
    (h : (n.adopt r e attr name).Talks w talk found w') :
    found = .found (.node child) ∧
      w' = ((w.link child (w.node n).loader (some e)).register r (w.node child).name
        child).bindSubmodule n attr name := by
  simp only [NodeId.adopt, RegistryId.get, bind_assoc, pure_bind, Bridge.talks_world_bind_iff,
    hlookup, RegistryId.patch, RegistryId.put, NodeId.bindSubmodule, Bridge.talks_modify_bind_iff,
    Bridge.talks_report_bind_iff, Bridge.talks_pure_iff] at h
  obtain ⟨rfl, rfl, rfl⟩ := h
  have hnamed : ((w.link child (w.node n).loader (some e)).node child).name =
      (w.node child).name := by
    simp [World.link]
  refine ⟨rfl, ?_⟩
  rw [← hnamed]
  rfl

/-- A node that was just made is registered under its name already, so taking it over only links
it. -/
theorem World.register_link_addRegistered (w : World) (node : Node) (loader : Option ImporterId)
    (enquirer : Option EnquirerId) :
    ((w.addRegistered node).link w.nextNode loader enquirer).register node.registry node.name
        w.nextNode =
      w.addRegistered { node with loader, enquirer } := by
  rw [w.link_addRegistered]
  exact World.register_of_lookup _ _ _ (w.lookup_addRegistered_self { node with loader, enquirer })

theorem foreignModule_settles (here : n.index < w.nodes.next)
    (h : (n.foreignModule attr).Talks w talk answer w') :
    w.Settles n attr talk (answer.toOption.bind Resolution.value?) w' := by
  simp only [NodeId.foreignModule, Bridge.talks_world_bind_iff] at h
  cases henquirer : (w.node n).enquirer with
  | none =>
      simp only [henquirer, Bridge.talks_pure_iff] at h
      obtain ⟨rfl, rfl, rfl⟩ := h
      rfl
  | some e =>
      simp only [henquirer, Bridge.talks_bind_iff] at h
      obtain ⟨front, back, known, v, rfl, hask, h⟩ := h
      obtain ⟨-, rfl⟩ := knowsModule_of_talks hask
      cases known with
      | false =>
          obtain ⟨rfl, rfl, rfl⟩ := h
          rfl
      | true =>
          simp only [if_true, Bridge.talks_world_bind_iff] at h
          cases hlive : v.registryOf? n with
          | none =>
              simp only [hlive, Bridge.talks_pure_iff] at h
              obtain ⟨rfl, rfl, rfl⟩ := h
              rfl
          | some r =>
              simp only [hlive, Bridge.talks_holding_iff, Bridge.talks_bind_iff] at h
              obtain ⟨u, ⟨load, rest, loaded, x, rfl, hload, h⟩, rfl⟩ := h
              rcases ensureLoaded_talks hload with
                ⟨m, hthere, -, rfl, rfl⟩ | ⟨habsent, ⟨error, -, rfl, rfl⟩ | ⟨o, -, rfl, rfl⟩⟩
              · simp only [Bridge.talks_bind_iff] at h
                obtain ⟨take, rest, found, y, rfl, htake, h⟩ := h
                obtain ⟨rfl, rfl⟩ := adopt_registers hthere htake
                obtain ⟨rfl, rfl, rfl⟩ := h
                simpa [World.Settles, Except.toOption, Resolution.value?] using
                  World.Finds.promoted hlive henquirer hthere
              · obtain ⟨rfl, rfl, rfl⟩ := h
                exact World.release_hold v _
              · simp only [Bridge.talks_bind_iff] at h
                obtain ⟨take, rest, found, y, rfl, htake, h⟩ := h
                let node := Node.foreignBacked (childName (v.node n).name attr) r o
                have hthere : ((v.hold (.registry r)).addRegistered node).lookup r
                    (childName (v.node n).name attr) = some v.nextNode :=
                  (v.hold (.registry r)).lookup_addRegistered_self node
                obtain ⟨rfl, rfl⟩ := adopt_registers hthere htake
                obtain ⟨rfl, rfl, rfl⟩ := h
                have hmade : v.Finds n attr (front ++ (load ++ take)) (.node v.nextNode)
                    ((v.addRegistered { node with
                      loader := (v.node n).loader, enquirer := some e }).bindSubmodule n attr
                        (childName (v.node n).name attr)) :=
                  .made hlive rfl habsent
                rw [← v.register_link_addRegistered] at hmade
                have hregistry : node.registry = r := rfl
                simpa [World.Settles, Except.toOption, Resolution.value?, hregistry,
                  v.node_addRegistered_of_lt here] using hmade

theorem native_talks {found : Resolution} (h : (n.native attr).Talks w talk found w') :
    w' = w := by
  simp only [NodeId.native, Bridge.talks_world_bind_iff] at h
  split at h <;> exact h.2.2

theorem subPackage_settles {found : Resolution} (h : (n.subPackage attr).Talks w talk found w') :
    w.Settles n attr talk found.value? w' := by
  simp only [NodeId.subPackage, Bridge.talks_world_bind_iff] at h
  cases henquirer : (w.node n).enquirer with
  | none =>
      simp only [henquirer, Bridge.talks_pure_iff] at h
      obtain ⟨rfl, rfl, rfl⟩ := h
      rfl
  | some e =>
      simp only [henquirer, Bridge.talks_subPackages_bind_iff] at h
      obtain ⟨subPackages, rest, rfl, h⟩ := h
      split at h
      · simp only [Bridge.talks_world_bind_iff] at h
        cases hlive : w.registryOf? n with
        | none =>
            simp only [hlive, Bridge.talks_pure_iff] at h
            obtain ⟨rfl, rfl, rfl⟩ := h
            rfl
        | some r =>
            cases hlookup : w.lookup r (childName (w.node n).name attr) with
            | some m =>
                simp only [hlive, hlookup, pure_bind, NodeId.bindSubmodule,
                  Bridge.talks_modify_bind_iff, Bridge.talks_pure_iff] at h
                obtain ⟨rfl, rfl, rfl⟩ := h
                exact World.Finds.listed hlive hlookup
            | none =>
                simp only [hlive, hlookup, RegistryId.makeLoaded, RegistryId.put,
                  NodeId.bindSubmodule, pure_bind, bind_assoc, Bridge.talks_create_bind_iff,
                  Bridge.talks_world_bind_iff, Bridge.talks_report_bind_iff,
                  Bridge.talks_modify_bind_iff, Bridge.talks_pure_iff] at h
                obtain ⟨rfl, rfl, rfl⟩ := h
                let node :=
                  Node.bridge (childName (w.node n).name attr) r (w.node n).loader (some e)
                have named : node.name = childName (w.node n).name attr := rfl
                exact World.Finds.made hlive named hlookup
      · obtain ⟨rfl, rfl, rfl⟩ := h
        rfl

theorem exportMarker_talks {found : Resolution}
    (h : (n.exportMarker attr).Talks w talk found w') : w' = w := by
  simp only [NodeId.exportMarker, NodeId.listNames, Bridge.talks_world_bind_iff] at h
  split at h
  · cases henquirer : (w.node n).enquirer with
    | none =>
        simp only [henquirer, bind_assoc, pure_bind, Bridge.talks_world_bind_iff,
          Bridge.talks_pure_iff] at h
        exact h.2.2
    | some e =>
        simp only [henquirer, bind_assoc, pure_bind, Bridge.talks_world_bind_iff,
          Bridge.talks_subPackages_bind_iff, Bridge.talks_classNames_bind_iff,
          Bridge.talks_pure_iff] at h
        obtain ⟨subPackages, _, rfl, classes, _, rfl, rfl, rfl, rfl⟩ := h
        rfl
  · exact h.2.2

theorem terminal_settles (h : (n.terminal attr).Talks w talk answer w') :
    w.Settles n attr talk (answer.toOption.bind Resolution.value?) w' := by
  simp only [NodeId.terminal, Bridge.talks_world_bind_iff] at h
  cases hhandle : (w.node n).handle with
  | some o =>
      simp only [hhandle, Bridge.talks_pure_iff] at h
      obtain ⟨rfl, rfl, rfl⟩ := h
      exact World.Finds.told _
  | none =>
      cases hresolver : w.nodeClassResolver? n with
      | none =>
          simp only [hhandle, hresolver, Bridge.talks_pure_iff] at h
          obtain ⟨rfl, rfl, rfl⟩ := h
          rfl
      | some c =>
          simp only [hhandle, hresolver, Bridge.talks_resolveClass_bind_iff] at h
          obtain ⟨reply, rest, rfl, h⟩ := h
          rcases reply with error | (_ | handle)
          · obtain ⟨rfl, rfl, rfl⟩ := h
            rfl
          · obtain ⟨rfl, rfl, rfl⟩ := h
            rfl
          · obtain ⟨rfl, rfl, rfl⟩ := h
            exact World.Finds.resolved handle

/-- A strategy other than the cache finds something, or it changes nothing. -/
theorem apply_settles (here : n.index < w.nodes.next) {s : Strategy} (hs : s ≠ .cache)
    (h : (s.apply n attr).Talks w talk answer w') :
    w.Settles n attr talk (answer.toOption.bind Resolution.value?) w' := by
  cases s with
  | cache => exact absurd rfl hs
  | foreignDelegate => exact delegate_settles h
  | native =>
      obtain ⟨front, back, found, v, rfl, hask, rfl, rfl, rfl⟩ := Bridge.talks_bind_iff.mp h
      obtain rfl := native_talks hask
      exact .unchanged w' n attr _ _
  | foreignModule => exact foreignModule_settles here h
  | subPackage =>
      obtain ⟨front, back, found, v, rfl, hask, rfl, rfl, rfl⟩ := Bridge.talks_bind_iff.mp h
      rw [List.append_nil]
      exact subPackage_settles hask
  | exportMarker =>
      obtain ⟨front, back, found, v, rfl, hask, rfl, rfl, rfl⟩ := Bridge.talks_bind_iff.mp h
      obtain rfl := exportMarker_talks hask
      exact .unchanged w' n attr _ _
  | terminal => exact terminal_settles h

/-- Strategies behind the cache leave what the one that finds something has left, or the world as it
was. -/
theorem resolveBy_settles (here : n.index < w.nodes.next) {strategies : List Strategy}
    (hcache : Strategy.cache ∉ strategies) {result : Except ImportError Value}
    (h : (n.resolveBy attr strategies).Talks w talk result w') :
    w.Settles n attr talk result.toOption w' := by
  induction strategies generalizing talk with
  | nil =>
      obtain ⟨rfl, rfl, rfl⟩ := h
      rfl
  | cons s others ih =>
      have hs : s ≠ .cache := fun heq => hcache (by simp [heq])
      have hothers : Strategy.cache ∉ others := fun hmem => hcache (by simp [hmem])
      simp only [NodeId.resolveBy, Bridge.talks_bind_iff] at h
      obtain ⟨front, back, answer, v, rfl, happly, h⟩ := h
      have hsettles := apply_settles here hs happly
      -- A strategy that finds nothing has changed nothing, so the others start from the same world.
      rcases answer with error | (value | _)
      · obtain rfl : v = w := hsettles
        cases hdeclined : error.isNotFound with
        | true =>
            simp only [hdeclined, if_true, Bridge.talks_world_bind_iff,
              Bridge.talks_report_bind_iff] at h
            exact (ih hothers h).mono (List.subset_append_right front back)
        | false =>
            simp only [hdeclined, Bool.false_eq_true, if_false, Bridge.talks_pure_iff] at h
            obtain ⟨rfl, rfl, rfl⟩ := h
            rfl
      · simp only [ne_eq, hs, not_false_eq_true, if_true, Bridge.talks_world_bind_iff,
          Bridge.talks_report_bind_iff, Bridge.talks_pure_iff] at h
        obtain ⟨rfl, rfl, rfl⟩ := h
        exact hsettles.mono (List.subset_append_left front [])
      · obtain rfl : v = w := hsettles
        exact (ih hothers h).mono (List.subset_append_right front back)

/-- An access takes what is kept, or it drops what is stale and tries the strategies behind the
cache. -/
theorem getAttr_talks_behind {result : Except ImportError Value}
    (h : (n.getAttr attr).Talks w talk result w') :
    (∃ value, w.kept? n attr = some value ∧ result = .ok value ∧ w' = w) ∨
      w.kept? n attr = none ∧ ∃ u, w.Evicts n attr u ∧
        (n.resolveBy attr Strategy.chain.tail).Talks u talk result w' := by
  change (n.resolveBy attr (.cache :: Strategy.chain.tail)).Talks w talk result w' at h
  rw [NodeId.resolveBy, Bridge.talks_bind_iff] at h
  obtain ⟨front, back, answer, v, rfl, happly, h⟩ := h
  obtain ⟨front, _, found, u, rfl, hcached, rfl, rfl, rfl⟩ := Bridge.talks_bind_iff.mp happly
  obtain ⟨rfl, hkept, hsame, hevicts⟩ := cached_talks hcached
  cases found with
  | some value =>
      obtain rfl := hsame rfl
      obtain ⟨rfl, rfl, rfl⟩ := h
      exact .inl ⟨value, hkept, rfl, rfl⟩
  | none => exact .inr ⟨hkept, v, hevicts rfl, h⟩

/-- The strategies behind the cache find something, or they fail and change nothing. -/
theorem finds_or_fails_behind {u : World} (here : n.index < w.nodes.next)
    (hevicts : w.Evicts n attr u) {result : Except ImportError Value}
    (h : (n.resolveBy attr Strategy.chain.tail).Talks u talk result w') :
    (∃ value, result = .ok value ∧ u.Finds n attr talk value w') ∨
      ∃ error, result = .error error ∧ w' = u := by
  have hcache : Strategy.cache ∉ Strategy.chain.tail := by decide
  have hsettles := resolveBy_settles (hevicts.next ▸ here) hcache h
  cases result with
  | ok value => exact .inl ⟨value, rfl, hsettles⟩
  | error error => exact .inr ⟨error, rfl, hsettles⟩

theorem hasAttr_talks {result : Except ImportError Bool}
    (h : (n.hasAttr attr).Talks w talk result w') :
    ∃ reply, (n.getAttr attr).Talks w talk reply w' ∧
      (result = .ok true ↔ reply.toOption.isSome) := by
  simp only [NodeId.hasAttr, Bridge.talks_bind_iff] at h
  obtain ⟨front, back, reply, v, rfl, hask, h⟩ := h
  cases reply with
  | ok value =>
      obtain ⟨rfl, rfl, rfl⟩ := h
      refine ⟨.ok value, by simpa using hask, by simp [Except.toOption]⟩
  | error error =>
      obtain ⟨rfl, rfl, rfl⟩ := h
      refine ⟨.error error, by simpa using hask, ?_⟩
      split <;> simp [Except.toOption]

end Strategies

/-- Of the nodes that are there, no cache differs but in the entry of the node under the name, and
no loader or enquirer but those of the child. -/
structure World.Confined (w : World) (n : NodeId) (attr : String) (child : Option NodeId)
    (v : World) : Prop where
  next : w.nodes.next ≤ v.nodes.next
  cache : ∀ {m : NodeId} {other : String}, m.index < w.nodes.next → m ≠ n ∨ other ≠ attr →
    (v.node m).cache[other]? = (w.node m).cache[other]?
  links : ∀ {m : NodeId}, m.index < w.nodes.next → child ≠ some m →
    (v.node m).loader = (w.node m).loader ∧ (v.node m).enquirer = (w.node m).enquirer

/-- Nothing is registered, made or linked, and no more is dropped than a binding to a name that is
not registered. -/
structure World.Untouched (w : World) (n : NodeId) (attr : String) (v : World) : Prop where
  registries : v.registries = w.registries
  next : v.nodes.next = w.nodes.next
  links : ∀ m, (v.node m).loader = (w.node m).loader ∧ (v.node m).enquirer = (w.node m).enquirer
  entry : (v.node n).cache[attr]? = (w.node n).cache[attr]? ∨
    (v.node n).cache[attr]? = none ∧ ∃ name, (w.node n).cache[attr]? = some (.submodule name) ∧
      (w.registryOf? n).bind (w.lookup · name) = none

namespace World

variable {w u v : World} {n : NodeId} {attr : String} {child : Option NodeId}

theorem Confined.of_nodes (h : v.nodes = w.nodes) : w.Confined n attr child v := by
  have hnode : ∀ m, v.node m = w.node m := fun m => by rw [World.node, World.node, h]
  exact ⟨h ▸ Nat.le_refl _, fun _ _ => by rw [hnode], fun _ _ => by rw [hnode]; exact ⟨rfl, rfl⟩⟩

theorem Confined.trans (first : w.Confined n attr child u) (second : u.Confined n attr child v) :
    w.Confined n attr child v where
  next := Nat.le_trans first.next second.next
  cache hm hother :=
    (second.cache (Nat.lt_of_lt_of_le hm first.next) hother).trans (first.cache hm hother)
  links hm hchild := by
    obtain ⟨hloader, henquirer⟩ := second.links (Nat.lt_of_lt_of_le hm first.next) hchild
    obtain ⟨hloader', henquirer'⟩ := first.links hm hchild
    exact ⟨hloader.trans hloader', henquirer.trans henquirer'⟩

/-- Changing nothing but the entry of a node. -/
theorem confined_updateNode (child : Option NodeId) {change : Node → Node}
    (loader : ∀ node, (change node).loader = node.loader)
    (enquirer : ∀ node, (change node).enquirer = node.enquirer)
    (cache : ∀ node {other}, other ≠ attr → (change node).cache[other]? = node.cache[other]?) :
    w.Confined n attr child (w.updateNode n change) where
  next := Nat.le_refl _
  cache {m other} _ hother := by
    rw [node_updateNode]
    split
    · rename_i hnm
      exact cache _ (hother.resolve_left fun hne => hne hnm.symm)
    · rfl
  links {m} _ _ := by
    rw [node_updateNode]
    split
    · exact ⟨loader _, enquirer _⟩
    · exact ⟨rfl, rfl⟩

theorem confined_bind (w : World) (n : NodeId) (attr : String) (child : Option NodeId)
    (binding : Binding) : w.Confined n attr child (w.updateNode n (·.bind attr binding)) :=
  confined_updateNode child (fun _ => rfl) (fun _ => rfl) fun node other hother => by
    simp [Node.bind, Std.ExtTreeMap.getElem?_insert, hother.symm]

theorem confined_unbind (w : World) (n : NodeId) (attr : String) (child : Option NodeId) :
    w.Confined n attr child (w.updateNode n (·.unbind attr)) :=
  confined_updateNode child (fun _ => rfl) (fun _ => rfl) fun node other hother => by
    simp [Node.unbind, Std.ExtTreeMap.getElem?_erase, hother.symm]

theorem confined_link (w : World) (n : NodeId) (attr : String) (m : NodeId)
    (loader : Option ImporterId) (enquirer : Option EnquirerId) :
    w.Confined n attr (some m) (w.link m loader enquirer) where
  next := Nat.le_refl _
  cache _ _ := by
    rw [link, node_updateNode]
    split <;> rfl
  links {m'} _ hne := by
    rw [link, w.node_updateNode_of_ne fun heq => hne (congrArg some heq)]
    exact ⟨rfl, rfl⟩

theorem confined_addRegistered (w : World) (n : NodeId) (attr : String) (child : Option NodeId)
    (node : Node) : w.Confined n attr child (w.addRegistered node) where
  next := Nat.le_succ _
  cache hm _ := by rw [w.node_addRegistered_of_lt hm]
  links hm _ := by
    rw [w.node_addRegistered_of_lt hm]
    exact ⟨rfl, rfl⟩

theorem Finds.confined {talk : List Exchange} {value : Value} (h : w.Finds n attr talk value v) :
    w.Confined n attr (w.child? n attr) v := by
  cases h with
  | told => exact .of_nodes rfl
  | answered => exact w.confined_bind n attr _ _
  | resolved => exact w.confined_bind n attr _ _
  | @promoted r e m live has there =>
      have hchild : w.child? n attr = some m := by rw [child?, live, Option.bind_some, there]
      have hlinked := w.confined_link n attr m (w.node n).loader (some e)
      have hregistered : w.Confined n attr (some m)
          ((w.link m (w.node n).loader (some e)).register r (w.node m).name m) :=
        hlinked.trans (.of_nodes rfl)
      rw [hchild]
      exact hregistered.trans (confined_bind _ n attr _ _)
  | listed => exact w.confined_bind n attr _ _
  | made => exact (w.confined_addRegistered n attr _ _).trans (confined_bind _ n attr _ _)

theorem Evicts.confined (h : w.Evicts n attr u) : w.Confined n attr child u := by
  cases h with
  | unbound => exact .of_nodes rfl
  | stale => exact w.confined_unbind n attr child

theorem Evicts.untouched (h : w.Evicts n attr u) : w.Untouched n attr u := by
  cases h with
  | unbound => exact ⟨rfl, rfl, fun _ => ⟨rfl, rfl⟩, .inl rfl⟩
  | stale bound gone =>
      refine ⟨rfl, rfl, fun m => ?_, .inr ⟨?_, _, bound, gone⟩⟩
      · rw [node_updateNode]
        split <;> exact ⟨rfl, rfl⟩
      · rw [node_updateNode_self]
        exact Std.ExtTreeMap.getElem?_erase_self

end World

theorem getAttr_confined {w w' : World} {n : NodeId} {attr : String} {talk : List Exchange}
    {result : Except ImportError Value} (here : n.index < w.nodes.next)
    (h : (n.getAttr attr).Talks w talk result w') :
    w.Confined n attr (w.child? n attr) w' ∧
      (result.toOption = none → w.Untouched n attr w') := by
  rcases getAttr_talks_behind h with ⟨value, -, rfl, rfl⟩ | ⟨-, u, hevicts, htail⟩
  · exact ⟨.of_nodes rfl, fun hnone => by simp [Except.toOption] at hnone⟩
  · rcases finds_or_fails_behind here hevicts htail with ⟨value, rfl, hfinds⟩ | ⟨error, rfl, rfl⟩
    · rw [← hevicts.child?_eq]
      exact ⟨hevicts.confined.trans hfinds.confined,
        fun hnone => by simp [Except.toOption] at hnone⟩
    · exact ⟨hevicts.confined, fun _ => hevicts.untouched⟩

/-- An access changes nothing on the nodes that are there but the entry under the name and the links
of the child's node.  One that finds nothing changes nothing at all, except that it drops a binding
to a name that is not registered. -/
theorem access_atomic (host : QuietHost) {w : World} {n : NodeId} (attr : String)
    (here : n.index < w.nodes.next) :
    let got := (n.getAttr attr).converse host [] w
    let had := (n.hasAttr attr).converse host [] w
    (w.Confined n attr (w.child? n attr) got.world ∧
        (got.result.toOption = none → w.Untouched n attr got.world)) ∧
      (w.Confined n attr (w.child? n attr) had.world ∧
        (had.result ≠ .ok true → w.Untouched n attr had.world)) := by
  intro got had
  obtain ⟨reply, hreply, hanswer⟩ := hasAttr_talks (Bridge.talks_converse host _ [] w)
  obtain ⟨hconfined, huntouched⟩ := getAttr_confined here hreply
  refine ⟨getAttr_confined here (Bridge.talks_converse host _ [] w), hconfined, fun hno => ?_⟩
  apply huntouched
  rwa [ne_eq, hanswer, Option.not_isSome_iff_eq_none] at hno

/-- A load that fails behind a binding to a name that is not registered. -/
theorem access_atomic_broken :
    let w := Attribute.World.withPackage.bindSubmodule ⟨0⟩ "mod" "pkg.gone"
    let n : NodeId := ⟨0⟩
    let got := (n.getAttr "mod").converse (fun _ => .broken) [] w
    let had := (n.hasAttr "mod").converse (fun _ => .broken) [] w
    (n.index < w.nodes.next ∧ got.result.toOption.isNone ∧ had.result.toOption.isNone ∧
        (w.node n).cache["mod"]?.isSome ∧ (got.world.node n).cache["mod"]?.isNone) ∧
      w.Untouched n "mod" got.world ∧ w.Untouched n "mod" had.world := by
  intro w n got had
  have here : n.index < w.nodes.next := by decide
  have hgot : got.result.toOption.isNone := by decide +kernel
  have hhad : had.result.toOption.isNone := by decide +kernel
  have hatomic := access_atomic (fun _ => .broken) "mod" here
  refine ⟨⟨here, hgot, hhad, by decide +kernel, by decide +kernel⟩,
    hatomic.1.2 (Option.isNone_iff_eq_none.mp hgot), hatomic.2.2 fun htrue => ?_⟩
  change had.result = _ at htrue
  simp [htrue, Except.toOption] at hhad

end ForeignNamespace
