import ForeignNamespace.Proofs.ActingHosts
import ForeignNamespace.Proofs.AttributeDecision
import ForeignNamespace.Proofs.Footprints

namespace ForeignNamespace

namespace Bridge

variable {α β : Type}

/-- Whether a computation in one world comes to another computation in another world without asking
anything, and which events it reports on the way. -/
inductive Leads : Bridge α → World → List Event → Bridge α → World → Prop
  | refl (p : Bridge α) (w : World) : Leads p w [] p w
  | read {next : World → Bridge α} {q : Bridge α} {w v : World} {events : List Event}
      (rest : Leads (next w) w events q v) : Leads (.read next) w events q v
  | write {next q : Bridge α} {w u v : World} {events : List Event}
      (rest : Leads next u events q v) : Leads (.write u next) w events q v
  | emit {event : Event} {next q : Bridge α} {w v : World} {events : List Event}
      (rest : Leads next w events q v) : Leads (.emit event next) w (event :: events) q v

variable {p q : Bridge α} {w v : World} {events : List Event}

theorem Leads.bind (h : Leads p w events q v) (f : α → Bridge β) :
    Leads (p >>= f) w events (q >>= f) v := by
  induction h with
  | refl p w => exact .refl _ w
  | read _ ih => exact .read ih
  | write _ ih => exact .write ih
  | emit _ ih => exact .emit ih

theorem leads_world_bind {f : World → Bridge α} (rest : Leads (f w) w events q v) :
    Leads (world >>= f) w events q v :=
  .read rest

/-- Against any host, the runs of the one are those of the other behind the events. -/
theorem Leads.runs_iff (h : Leads p w events q v) {reaction : Reaction} {marks : List Mark}
    {result : α} {w' : World} :
    Runs reaction p w marks result w' ↔
      ∃ rest, marks = events.map .event ++ rest ∧ Runs reaction q v rest result w' := by
  induction h generalizing marks with
  | refl p w => simp
  | read _ ih =>
      refine Iff.trans ⟨fun hruns => ?_, .read⟩ ih
      cases hruns with
      | read rest => exact rest
  | write _ ih =>
      refine Iff.trans ⟨fun hruns => ?_, .write⟩ ih
      cases hruns with
      | write rest => exact rest
  | emit _ ih =>
      constructor
      · intro hruns
        cases hruns with
        | emit hruns =>
            obtain ⟨rest, rfl, hrest⟩ := ih.mp hruns
            exact ⟨rest, rfl, hrest⟩
      · rintro ⟨rest, rfl, hrest⟩
        exact .emit (ih.mpr ⟨rest, rfl, hrest⟩)

/-- A host with a memory cannot tell the two apart. -/
theorem Leads.attend_eq (h : Leads p w events q v) (host : ActingHost) (said : List Exchange) :
    p.attend host said w = q.attend host said v := by
  induction h with
  | refl p w => rfl
  | read _ ih => exact ih
  | write _ ih => exact ih
  | emit _ ih => exact ih

theorem runs_pure_iff {reaction : Reaction} {a result : α} {marks : List Mark} {w' : World} :
    Runs reaction (Pure.pure a) w marks result w' ↔ marks = [] ∧ result = a ∧ w' = w := by
  constructor
  · intro h
    cases h
    exact ⟨rfl, rfl, rfl⟩
  · rintro ⟨rfl, rfl, rfl⟩
    exact .pure _ _

end Bridge

/-- What can be done to registries without asking the host anything. -/
inductive Upkeep where
  | register (r : RegistryId) (name : String) (handle : ObjectId)
  | unregister (r : RegistryId) (name : String)
  | put (r : RegistryId) (name : String) (n : NodeId)
  | remove (r : RegistryId) (name : String)
  | makeLoaded (r : RegistryId) (name : String) (loader : Option ImporterId)
      (enquirer : Option EnquirerId)
  | makeForeign (r : RegistryId) (name : String) (handle : ObjectId)
  | patch (r : RegistryId) (n : NodeId) (loader : Option ImporterId) (enquirer : Option EnquirerId)
  | teardown (r : RegistryId)

namespace Upkeep

def Result : Upkeep → Type
  | .register .. | .unregister .. => Except ImportError NodeId
  | .put .. | .remove .. => Option NodeId
  | .makeLoaded .. | .makeForeign .. => NodeId
  | .patch .. => Unit
  | .teardown _ => Nat

def carryOut : (upkeep : Upkeep) → Bridge upkeep.Result
  | .register r name handle => r.registerForeign name handle
  | .unregister r name => r.unregisterForeign name
  | .put r name n => r.put name n
  | .remove r name => r.remove name
  | .makeLoaded r name loader enquirer => r.makeLoaded name loader enquirer
  | .makeForeign r name handle => r.makeForeign name handle
  | .patch r n loader enquirer => r.patch n loader enquirer
  | .teardown r => r.teardown

def perform (upkeep : Upkeep) : Bridge Unit := (fun _ => ()) <$> upkeep.carryOut

def performAll (upkeep : List Upkeep) : Bridge Unit := upkeep.forM perform

theorem obeys_carryOut {rule : Rule} (making : rule.AllowsMaking) (removing : rule.AllowsRemoving)
    (upkeep : Upkeep) : upkeep.carryOut.Obeys rule := by
  cases upkeep with
  | register r name handle => exact r.obeys_registerForeign name making handle
  | unregister r name => exact r.obeys_unregisterForeign name removing
  | put r name n => exact r.obeys_put name making n
  | remove r name => exact r.obeys_remove name removing
  | makeLoaded r name loader enquirer => exact r.obeys_makeLoaded name making loader enquirer
  | makeForeign r name handle => exact r.obeys_makeForeign name making handle
  | patch r n loader enquirer => exact r.obeys_patch making n loader enquirer
  | teardown r => exact r.obeys_teardown removing

theorem obeys_performAll {rule : Rule} (making : rule.AllowsMaking)
    (removing : rule.AllowsRemoving) (upkeep : List Upkeep) :
    (performAll upkeep).Obeys rule := by
  induction upkeep with
  | nil => exact Bridge.obeys_pure ()
  | cons first upkeep ih =>
      exact ((first.obeys_carryOut making removing).map fun _ => ()).bind fun _ => ih

end Upkeep

/-- Whether the nodes of a world are still there in another and keep what they kept. -/
structure World.KeepsCaches (w v : World) : Prop where
  next : w.nodes.next ≤ v.nodes.next
  cache : ∀ {n : NodeId}, n.index < w.nodes.next → (v.node n).cache = (w.node n).cache

namespace World.KeepsCaches

variable {u v w : World}

theorem of_nodes (h : v.nodes = w.nodes) : w.KeepsCaches v where
  next := h ▸ Nat.le_refl _
  cache _ := by rw [World.node, World.node, h]

theorem trans (first : u.KeepsCaches v) (second : v.KeepsCaches w) : u.KeepsCaches w where
  next := Nat.le_trans first.next second.next
  cache hn := (second.cache (Nat.lt_of_lt_of_le hn first.next)).trans (first.cache hn)

theorem addNode (w : World) (node : Node) : w.KeepsCaches (w.addNode node) where
  next := Nat.le_succ _
  cache hn := by rw [node_addNode_of_lt w hn]

theorem link (w : World) (n : NodeId) (loader : Option ImporterId) (enquirer : Option EnquirerId) :
    w.KeepsCaches (w.link n loader enquirer) where
  next := Nat.le_refl _
  cache _ := by
    rw [World.link, node_updateNode]
    split
    · rfl
    · rfl

end World.KeepsCaches

theorem Upkeep.keepsCaches_performAll (upkeep : List Upkeep) (host : FixedHost) (w : World) :
    w.KeepsCaches ((performAll upkeep).run host w).world := by
  have making : (Rule.ofWrites World.KeepsCaches).AllowsMaking :=
    { bridge := fun w _ _ _ _ => .addNode w _
      backed := fun w _ _ _ => .addNode w _
      register := fun _ _ _ _ => .of_nodes rfl
      link := .link
      reports := fun _ _ => trivial }
  have removing : (Rule.ofWrites World.KeepsCaches).AllowsRemoving :=
    { updateRegistry := fun _ _ _ => .of_nodes rfl
      reports := fun _ _ => trivial }
  obtain ⟨deeds, hdoes⟩ := Bridge.exists_does_run host (performAll upkeep) w
  refine hdoes.related World.KeepsCaches (fun _ => .of_nodes rfl) .trans id ?_
    (obeys_performAll making removing upkeep w)
  rintro _ w _ _ ⟨-, rfl⟩
  exact .of_nodes rfl

section Bindings

variable {n : NodeId} {attr name : String} {w : World}

theorem cached_leads_registered {m : NodeId}
    (bound : (w.node n).cache[attr]? = some (.submodule name))
    (there : (w.registryOf? n).bind (w.lookup · name) = some m) :
    (n.cached? attr).Leads w [] (Pure.pure (some (.node m))) w := by
  refine Bridge.leads_world_bind ?_
  simp only [bound, there]
  exact .refl _ w

theorem cached_leads_stale (bound : (w.node n).cache[attr]? = some (.submodule name))
    (stale : (w.registryOf? n).bind (w.lookup · name) = none) :
    (n.cached? attr).Leads w [.staleSubmodule (w.node n).name attr] (Pure.pure none)
      (w.updateNode n (·.unbind attr)) := by
  refine Bridge.leads_world_bind ?_
  simp only [bound, stale]
  exact .read (.write (.emit (.refl _ _)))

theorem cached_leads_unbound (unbound : (w.node n).cache[attr]? = none) :
    (n.cached? attr).Leads w [] (Pure.pure none) w := by
  refine Bridge.leads_world_bind ?_
  simp only [unbound]
  exact .refl _ w

/-- What is registered under a bound name is found by reading alone. -/
theorem getAttr_leads_registered {m : NodeId}
    (bound : (w.node n).cache[attr]? = some (.submodule name))
    (there : (w.registryOf? n).bind (w.lookup · name) = some m) :
    (n.getAttr attr).Leads w [] (Pure.pure (.ok (.node m))) w :=
  ((cached_leads_registered bound there).bind _).bind _

/-- If nothing is registered under a bound name, the attribute is unbound and the strategies behind
the cache are tried. -/
theorem getAttr_leads_stale (bound : (w.node n).cache[attr]? = some (.submodule name))
    (stale : (w.registryOf? n).bind (w.lookup · name) = none) :
    (n.getAttr attr).Leads w [.staleSubmodule (w.node n).name attr]
      (n.resolveBy attr Strategy.chain.tail) (w.updateNode n (·.unbind attr)) :=
  ((cached_leads_stale bound stale).bind _).bind _

/-- Behind an unbinding by hand the same strategies are tried in the same world. -/
theorem delAttr_leads (n : NodeId) (attr : String) (w : World) :
    (do let _ ← n.delAttr attr
        n.getAttr attr).Leads w []
      (n.resolveBy attr Strategy.chain.tail) (w.updateNode n (·.unbind attr)) := by
  have hunbound : ((w.updateNode n (·.unbind attr)).node n).cache[attr]? = none := by
    rw [World.node_updateNode_self]
    exact Std.ExtTreeMap.getElem?_erase_self
  exact .read (.read (.write (((cached_leads_unbound hunbound).bind _).bind _)))

/-- A node that is bound by name is the one registered under the name after any work on registries,
and is had without asking the host.  If there is none, the access goes on as one behind an unbinding
by hand, whatever the host does; the two differ in one event. -/
theorem getAttr_submodule_coherent {n : NodeId} {attr name : String} {w : World}
    (here : n.index < w.nodes.next) (bound : (w.node n).cache[attr]? = some (.submodule name))
    (upkeep : List Upkeep) (host : FixedHost) :
    let v := ((Upkeep.performAll upkeep).run host w).world
    let again : Bridge (Except ImportError Value) := do
      let _ ← n.delAttr attr
      n.getAttr attr
    (∀ m, (v.registryOf? n).bind (v.lookup · name) = some m →
      (∀ reaction marks result v', Bridge.Runs reaction (n.getAttr attr) v marks result v' ↔
        marks = [] ∧ result = .ok (.node m) ∧ v' = v) ∧
      ∀ host said, (n.getAttr attr).attend host said v = ⟨.ok (.node m), v, []⟩) ∧
    ((v.registryOf? n).bind (v.lookup · name) = none →
      (∀ reaction marks result v', Bridge.Runs reaction (n.getAttr attr) v marks result v' ↔
        ∃ rest, marks = .event (.staleSubmodule (v.node n).name attr) :: rest ∧
          Bridge.Runs reaction again v rest result v') ∧
      ∀ host said, (n.getAttr attr).attend host said v = again.attend host said v) := by
  intro v again
  have kept : (v.node n).cache[attr]? = some (.submodule name) := by
    rw [(Upkeep.keepsCaches_performAll upkeep host w).cache here]
    exact bound
  refine ⟨fun m there => ?_, fun stale => ?_⟩
  · have hleads := getAttr_leads_registered kept there
    refine ⟨fun reaction marks result v' => ?_, fun host said => hleads.attend_eq host said⟩
    simp [hleads.runs_iff, Bridge.runs_pure_iff]
  · have hleads := getAttr_leads_stale kept stale
    have hagain := delAttr_leads n attr v
    constructor
    · intro reaction marks result v'
      simp [hleads.runs_iff, hagain.runs_iff, again]
    · intro host said
      rw [hleads.attend_eq host said, hagain.attend_eq host said]

/-- A name that is bound before it is registered, while it is registered and after a teardown. -/
theorem getAttr_submodule_coherent_sub :
    let w := Attribute.World.withPackage.bindSubmodule ⟨0⟩ "sub" "pkg.sub"
    let n : NodeId := ⟨0⟩
    let register : Upkeep := .register .processWide "pkg.sub" ⟨7⟩
    let held := ((Upkeep.performAll [register]).run .ignorant w).world
    let gone := ((Upkeep.performAll [register, .teardown .processWide]).run .ignorant w).world
    (n.index < w.nodes.next ∧ (w.node n).cache["sub"]? = some (.submodule "pkg.sub")) ∧
      (∀ host said, (n.getAttr "sub").attend host said held = ⟨.ok (.node ⟨1⟩), held, []⟩) ∧
      ∀ host said, (n.getAttr "sub").attend host said gone =
        (do let _ ← n.delAttr "sub"
            n.getAttr "sub").attend host said gone := by
  intro w n register held gone
  have here : n.index < w.nodes.next := by decide
  have bound : (w.node n).cache["sub"]? = some (.submodule "pkg.sub") := by rfl
  have there : (held.registryOf? n).bind (held.lookup · "pkg.sub") = some ⟨1⟩ := by
    decide +kernel
  have stale : (gone.registryOf? n).bind (gone.lookup · "pkg.sub") = none := by decide +kernel
  have hheld := getAttr_submodule_coherent here bound [register] .ignorant
  have hgone :=
    getAttr_submodule_coherent here bound [register, .teardown .processWide] .ignorant
  exact ⟨⟨here, bound⟩, (hheld.1 _ there).2, (hgone.2 stale).2⟩

end Bindings

end ForeignNamespace
