import ForeignNamespace.Proofs.AccessEffects
import ForeignNamespace.Proofs.AliasedRegistries

/-!
Accessing an attribute twice.

What an access finds is kept, or it left the world as it was.  So against a host that gives every
question one answer, a second access takes what the first one kept, or repeats it in the same world.
-/

namespace ForeignNamespace

/-- Whether a node that the foreign handle hands out under a name is the one that is registered
under its own. -/
def FixedHost.HandsRegistered (host : FixedHost) (w : World) (n : NodeId) (attr : String) : Prop :=
  ∀ o m, (w.node n).handle = some o → host (.getAttr o attr) = .ok (some (.node m)) →
    (w.registryOf? n).bind (w.lookup · (w.node m).name) = some m

section Repeating

variable {host : FixedHost} {w u v : World} {n : NodeId} {attr : String}

theorem World.kept?_bindSubmodule {name : String} {m : NodeId}
    (there : (w.registryOf? n).bind (w.lookup · name) = some m) :
    (w.bindSubmodule n attr name).kept? n attr = some (.node m) := by
  have hbound : ((w.bindSubmodule n attr name).node n).cache[attr]? = some (.submodule name) := by
    simp [Node.bind]
  have hregistry : (w.bindSubmodule n attr name).registryOf? n = w.registryOf? n := by
    simp only [World.registryOf?, World.node_bindSubmodule_self]
    rfl
  simp only [World.kept?, hbound, hregistry]
  exact congrArg (Option.map Value.node) there

theorem World.kept?_bind_value (w : World) (n : NodeId) (attr : String) (value : Value) :
    (w.updateNode n (·.bind attr (.value value))).kept? n attr = some value := by
  have hbound : ((w.updateNode n (·.bind attr (.value value))).node n).cache[attr]? =
      some (.value value) := by
    simp [Node.bind]
  simp only [World.kept?, hbound]

/-- What was found can be had from then on, unless the world is as it was. -/
theorem World.Finds.kept {talk : List Exchange} {value : Value}
    (here : n.index < u.nodes.next) (hands : host.HandsRegistered u n attr)
    (answers : ∀ exchange ∈ talk, exchange.answer = host exchange.question)
    (h : u.Finds n attr talk value v) : v = u ∨ v.kept? n attr = some value := by
  cases h with
  | told => exact .inl rfl
  | @answered o value backed said =>
      right
      cases value with
      | node m => exact World.kept?_bindSubmodule (hands o m backed (answers _ said).symm)
      | _ => exact u.kept?_bind_value n attr _
  | resolved c => exact .inr (u.kept?_bind_value n attr _)
  | @promoted r e m live has there =>
      right
      let w := (u.link m (u.node n).loader (some e)).register r (u.node m).name m
      have hlive : w.registryOf? n = some r := by
        have hregistry : (w.node n).registry = (u.node n).registry := by
          change ((u.link m (u.node n).loader (some e)).node n).registry = _
          rw [World.link, World.node_updateNode]
          split <;> rfl
        rw [← live, World.registryOf?, World.registryOf?, hregistry]
        rfl
      refine World.kept?_bindSubmodule ?_
      -- The child's name is the node's own, or promotion registers nothing under it.
      rw [hlive, Option.bind_some, World.lookup_register]
      split
      · rfl
      · exact there
  | @listed r m live there =>
      right
      refine World.kept?_bindSubmodule ?_
      rw [live, Option.bind_some, there]
  | @made node live named absent =>
      right
      have hlive : (u.addRegistered node).registryOf? n = some node.registry := by
        rw [← live, World.registryOf?, World.registryOf?, u.node_addRegistered_of_lt here]
        rfl
      refine World.kept?_bindSubmodule ?_
      rw [hlive, Option.bind_some, ← named, World.lookup_addRegistered_self]

/-- An access runs as the strategies behind the cache do, from the world without the stale
binding. -/
theorem World.Evicts.run_getAttr (h : w.Evicts n attr u) (host : FixedHost) :
    let behind := (n.resolveBy attr Strategy.chain.tail).run host u
    ((n.getAttr attr).run host w).result = behind.result ∧
      ((n.getAttr attr).run host w).world = behind.world := by
  intro behind
  have hcache : (Strategy.cache.apply n attr).Gives host w [] (.ok .notFound) u :=
    h.cached_gives.then (Bridge.gives_pure _ u)
  have hbehind : (n.resolveBy attr Strategy.chain.tail).Gives host u behind.questions behind.result
      behind.world := ⟨rfl, rfl, rfl⟩
  have hget : (n.getAttr attr).Gives host w _ _ _ := hcache.then hbehind
  exact ⟨hget.result, hget.world⟩

/-- Nothing is evicted twice. -/
theorem World.Evicts.again (h : w.Evicts n attr u) : u.Evicts n attr u := by
  cases h with
  | unbound free => exact .unbound free
  | stale =>
      refine .unbound ?_
      rw [World.node_updateNode_self]
      exact Std.ExtTreeMap.getElem?_erase_self

theorem FixedHost.HandsRegistered.evicted (hands : host.HandsRegistered w n attr)
    (h : w.Evicts n attr u) : host.HandsRegistered u n attr := by
  intro o m hhandle hsaid
  obtain ⟨cache, hnode⟩ := h.node n
  obtain ⟨cache', hnode'⟩ := h.node m
  have hthere := hands o m (by rw [← hhandle, hnode]) hsaid
  simpa only [h.registryOf?_eq, World.lookup_of_registries h.registries, hnode'] using hthere

theorem getAttr_run_of_kept {value : Value} (kept : w.kept? n attr = some value)
    (host : FixedHost) :
    ((n.getAttr attr).run host w).result = .ok value ∧
      ((n.getAttr attr).run host w).world = w := by
  obtain ⟨talk, htalk, -⟩ := Bridge.exists_talks_run host (n.getAttr attr) w
  rcases getAttr_talks_behind htalk with ⟨value', hkept, hresult, hworld⟩ | ⟨unkept, -⟩
  · cases kept.symm.trans hkept
    exact ⟨hresult, hworld⟩
  · cases unkept.symm.trans kept

/-- An access that left the world without the stale binding goes the same way again. -/
theorem World.Evicts.repeats (h : w.Evicts n attr u)
    (unchanged : ((n.getAttr attr).run host w).world = u) :
    ((n.getAttr attr).run host u).result = ((n.getAttr attr).run host w).result ∧
      ((n.getAttr attr).run host u).world = u := by
  obtain ⟨hresult, hworld⟩ := h.run_getAttr host
  obtain ⟨hresult', hworld'⟩ := h.again.run_getAttr host
  exact ⟨hresult'.trans hresult.symm, hworld'.trans (hworld.symm.trans unchanged)⟩

/-- What an access leaves behind keeps its answer, or repeats it. -/
theorem getAttr_run_leaves (here : n.index < w.nodes.next)
    (hands : host.HandsRegistered w n attr) :
    let first := (n.getAttr attr).run host w
    (∃ value, first.result = .ok value ∧ first.world.kept? n attr = some value) ∨
      w.Evicts n attr first.world := by
  intro first
  obtain ⟨talk, htalk, answers⟩ := Bridge.exists_talks_run host (n.getAttr attr) w
  rcases getAttr_talks_behind htalk with ⟨value, hkept, hresult, hworld⟩ | ⟨-, u, hevicts, htail⟩
  · exact .inl ⟨value, hresult, hworld.symm ▸ hkept⟩
  · rcases finds_or_fails_behind here hevicts htail with
      ⟨value, hresult, hfinds⟩ | ⟨error, hresult, hworld⟩
    · rcases hfinds.kept (hevicts.next ▸ here) (hands.evicted hevicts) answers with hworld | hkept
      · exact .inr (hworld ▸ hevicts)
      · exact .inl ⟨value, hresult, hkept⟩
    · exact .inr (hworld ▸ hevicts)

/-- A second access answers as the first one did and changes nothing. -/
theorem getAttr_repeats (attr : String) (here : n.index < w.nodes.next)
    (hands : host.HandsRegistered w n attr) :
    let first := (n.getAttr attr).run host w
    let second := (n.getAttr attr).run host first.world
    second.result = first.result ∧ second.world = first.world := by
  intro first second
  rcases getAttr_run_leaves here hands with ⟨value, hresult, hkept⟩ | hevicts
  · obtain ⟨hsecond, hworld⟩ := getAttr_run_of_kept hkept host
    exact ⟨hsecond.trans hresult.symm, hworld⟩
  · exact hevicts.repeats rfl

end Repeating

/-- The host whose foreign objects hand out one node under every name. -/
def FixedHost.handing (m : NodeId) : FixedHost
  | .getAttr .. => .ok (some (.node m))
  | question => FixedHost.ignorant question

/-- A foreign module hands out the package that it is in. -/
theorem getAttr_repeats_package :
    let w := Attribute.World.withPackage.addRegistered
      (.foreignBacked "pkg.mod" .processWide ⟨7⟩)
    let host := FixedHost.handing ⟨0⟩
    let n : NodeId := ⟨1⟩
    let first := (n.getAttr "parent").run host w
    let second := (n.getAttr "parent").run host first.world
    (n.index < w.nodes.next ∧ host.HandsRegistered w n "parent") ∧
      first.result.toOption.bind Value.asNode? = some ⟨0⟩ ∧
      second.result = first.result ∧ second.world = first.world := by
  intro w host n first second
  have here : n.index < w.nodes.next := by decide
  have hands : host.HandsRegistered w n "parent" := by
    intro o m _ hsaid
    have hvalue : (Except.ok (some (.node ⟨0⟩)) : Except ForeignError (Option Value)) =
        .ok (some (.node m)) := hsaid
    cases hvalue
    decide +kernel
  exact ⟨⟨here, hands⟩, by decide +kernel, getAttr_repeats "parent" here hands⟩

end ForeignNamespace
