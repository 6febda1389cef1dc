import ForeignNamespace.Proofs.CacheWrites
import ForeignNamespace.Proofs.Interplay

/-!
How nodes come by their loader and enquirer.

On a resolver with one importer, nodes get the importer and its enquirer together: when the importer
makes them, when they inherit both from their parent, or when a node that was found unlinked is
patched.  Between two turns of the host a node may be linked to neither yet.  Behind every move the
nodes that are linked to neither are foreign modules that the host has registered
(`FreeHost.nodes_linked`).
-/

namespace ForeignNamespace

/-- Whether a node is linked to an importer and an enquirer. -/
def Node.IsLinked (i : ImporterId) (e : EnquirerId) (node : Node) : Prop :=
  node.loader = some i ∧ node.enquirer = some e

/-- Whether a node is foreign-backed and has neither loader nor enquirer. -/
structure Node.IsPushed (node : Node) : Prop where
  backed : node.isForeignBacked
  loader : node.loader = none
  enquirer : node.enquirer = none

/-- Whether a node was made and is linked. -/
def World.Linked (i : ImporterId) (e : EnquirerId) (w : World) (m : NodeId) : Prop :=
  m.index < w.nodes.next ∧ (w.node m).IsLinked i e

/-- Whether links stay. -/
structure World.KeepsLinks (i : ImporterId) (e : EnquirerId) (w v : World) : Prop where
  next : w.nodes.next ≤ v.nodes.next
  linked : ∀ {m}, w.Linked i e m → v.Linked i e m

/-- Whether the meta path of a resolver is an importer with an enquirer, and every node is linked to
both or is one of those that were pushed. -/
structure World.Inherits (s : ResolverId) (i : ImporterId) (e : EnquirerId)
    (pushed : NodeId → Prop) (w : World) : Prop where
  path : (w.resolver s).metaPath = [.hook i]
  enquirer : (w.importer i).enquirer = e
  registered : ∀ {r name m}, w.lookup r name = some m → m.index < w.nodes.next
  nodes : ∀ {m : NodeId}, m.index < w.nodes.next →
    (w.node m).IsLinked i e ∨ (w.node m).IsPushed ∧ pushed m
  absent : ∀ {m : NodeId}, w.nodes.next ≤ m.index → (w.node m).enquirer = none

variable {s : ResolverId} {i : ImporterId} {e : EnquirerId} {pushed : NodeId → Prop}
  {u v w : World} {n m : NodeId} {attr name : String} {r : RegistryId}

namespace World

namespace KeepsLinks

theorem of_nodes (h : v.nodes = w.nodes) : w.KeepsLinks i e v where
  next := h ▸ Nat.le_refl _
  linked hm := by
    rw [Linked, World.node, h]
    exact hm

theorem trans (first : u.KeepsLinks i e v) (second : v.KeepsLinks i e w) : u.KeepsLinks i e w where
  next := Nat.le_trans first.next second.next
  linked hm := second.linked (first.linked hm)

theorem addNode (w : World) (node : Node) : w.KeepsLinks i e (w.addNode node) where
  next := Nat.le_succ _
  linked hm := by
    rw [Linked, node_addNode_of_lt w hm.1]
    exact ⟨Nat.lt_succ_of_lt hm.1, hm.2⟩

theorem updateNode (w : World) (n : NodeId) {change : Node → Node}
    (keeps : ∀ node : Node, node.IsLinked i e → (change node).IsLinked i e) :
    w.KeepsLinks i e (w.updateNode n change) where
  next := Nat.le_refl _
  linked hm := by
    refine ⟨hm.1, ?_⟩
    rw [node_updateNode]
    split
    · exact keeps _ hm.2
    · exact hm.2

theorem link (w : World) (n : NodeId) : w.KeepsLinks i e (w.link n (some i) (some e)) :=
  .updateNode w n fun _ _ => ⟨rfl, rfl⟩

end KeepsLinks

namespace Inherits

theorem linked (h : w.Inherits s i e pushed) {e' : EnquirerId}
    (asks : (w.node n).enquirer = some e') : e' = e ∧ w.Linked i e n := by
  rcases Nat.lt_or_ge n.index w.nodes.next with hthere | habsent
  · rcases h.nodes hthere with hlinked | ⟨hpushed, -⟩
    · exact ⟨Option.some.inj (asks.symm.trans hlinked.2), hthere, hlinked⟩
    · cases asks.symm.trans hpushed.enquirer
  · cases asks.symm.trans (h.absent habsent)

/-- Nothing but registries has changed, and they hold nodes that were made. -/
theorem of_nodes (h : w.Inherits s i e pushed) (nodes : v.nodes = w.nodes)
    (resolvers : v.resolvers = w.resolvers) (importers : v.importers = w.importers)
    (registered : ∀ {r name m}, v.lookup r name = some m → m.index < w.nodes.next) :
    v.Inherits s i e pushed where
  path := by
    rw [World.resolver, resolvers]
    exact h.path
  enquirer := by
    rw [World.importer, importers]
    exact h.enquirer
  registered hm := nodes ▸ registered hm
  nodes hm := by
    rw [World.node, nodes]
    exact h.nodes (nodes ▸ hm)
  absent hm := by
    rw [World.node, nodes]
    exact h.absent (nodes ▸ hm)

theorem register (h : w.Inherits s i e pushed) (hm : m.index < w.nodes.next) (r : RegistryId)
    (name : String) : (w.register r name m).Inherits s i e pushed := by
  refine h.of_nodes rfl rfl rfl fun {r' name' m'} hlookup => ?_
  rw [lookup_register] at hlookup
  split at hlookup
  · obtain rfl := Option.some.inj hlookup
    exact hm
  · exact h.registered hlookup

/-- What is left in a registry was in it. -/
theorem updateRegistry (h : w.Inherits s i e pushed) (r : RegistryId) {change : Registry → Registry}
    (fewer : ∀ {name : String} {m : NodeId}, (change (w.registry r)).entries[name]? = some m →
      (w.registry r).entries[name]? = some m) :
    (w.updateRegistry r change).Inherits s i e pushed := by
  refine h.of_nodes rfl rfl rfl fun {r' name m} hlookup => ?_
  rw [lookup, registry_updateRegistry] at hlookup
  split at hlookup
  · rename_i hr
    subst hr
    exact h.registered (fewer hlookup)
  · exact h.registered hlookup

theorem addRegistered (h : w.Inherits s i e pushed) {node : Node}
    (fine : node.IsLinked i e ∨ node.IsPushed ∧ pushed w.nextNode) :
    (w.addRegistered node).Inherits s i e pushed where
  path := h.path
  enquirer := h.enquirer
  registered {r name m} hlookup := by
    change m.index < w.nodes.next + 1
    rw [lookup_addRegistered] at hlookup
    split at hlookup
    · obtain rfl := Option.some.inj hlookup
      exact Nat.lt_succ_self _
    · exact Nat.lt_succ_of_lt (h.registered hlookup)
  nodes {m} hm := by
    rcases Nat.lt_succ_iff_lt_or_eq.mp hm with hm | hm
    · rw [node_addRegistered_of_lt w hm]
      exact h.nodes hm
    · obtain rfl : m = w.nextNode := congrArg NodeId.mk hm
      rw [node_addRegistered_self]
      exact fine
  absent {m} hm := by
    have hne : w.nodes.next ≠ m.index := Nat.ne_of_lt hm
    have hnode : (w.addRegistered node).node m = w.node m := by
      change Arena.get (w.nodes.push node) m.index = _
      rw [Arena.get_push, if_neg hne]
      rfl
    rw [hnode]
    exact h.absent (Nat.le_of_succ_le hm)

theorem updateNode (h : w.Inherits s i e pushed) {change : Node → Node}
    (same : ∀ node : Node, (change node).handle = node.handle ∧
      (change node).loader = node.loader ∧ (change node).enquirer = node.enquirer) :
    (w.updateNode n change).Inherits s i e pushed := by
  have hsame : ∀ m, ((w.updateNode n change).node m).handle = (w.node m).handle ∧
      ((w.updateNode n change).node m).loader = (w.node m).loader ∧
      ((w.updateNode n change).node m).enquirer = (w.node m).enquirer := by
    intro m
    rw [node_updateNode]
    split
    · exact same _
    · exact ⟨rfl, rfl, rfl⟩
  refine ⟨h.path, h.enquirer, h.registered, fun {m} hm => ?_, fun {m} hm => ?_⟩
  · obtain ⟨hhandle, hloader, henquirer⟩ := hsame m
    rcases h.nodes hm with hlinked | ⟨hpushed, hm⟩
    · exact .inl ⟨hloader.trans hlinked.1, henquirer.trans hlinked.2⟩
    · refine .inr ⟨⟨?_, hloader.trans hpushed.loader, henquirer.trans hpushed.enquirer⟩, hm⟩
      rw [Node.isForeignBacked, hhandle]
      exact hpushed.backed
  · rw [(hsame m).2.2]
    exact h.absent hm

theorem link (h : w.Inherits s i e pushed) (hm : m.index < w.nodes.next) :
    (w.link m (some i) (some e)).Inherits s i e pushed where
  path := h.path
  enquirer := h.enquirer
  registered := h.registered
  nodes {m'} hm' := by
    rw [World.link, node_updateNode]
    split
    · exact .inl ⟨rfl, rfl⟩
    · exact h.nodes hm'
  absent {m'} hm' := by
    rw [World.link, node_updateNode, if_neg]
    · exact h.absent hm'
    · rintro rfl
      exact absurd hm (Nat.not_lt_of_le hm')

end Inherits
end World

/-- Links stay, and at the host's turns every node is linked or was pushed. -/
def Regime.inheritance (s : ResolverId) (i : ImporterId) (e : EnquirerId)
    (pushed : NodeId → Prop) : Regime where
  good := World.Inherits s i e pushed
  step := World.KeepsLinks i e
  refl _ := .of_nodes rfl
  trans := .trans

/-- The rule by which inheritance is never broken. -/
def Rule.inheriting (s : ResolverId) (i : ImporterId) (e : EnquirerId)
    (pushed : NodeId → Prop) : Rule :=
  .ofWrites fun w v =>
    w.Inherits s i e pushed → v.Inherits s i e pushed ∧ w.KeepsLinks i e v

theorem allowsLooking_inheriting : (Rule.inheriting s i e pushed).AllowsLooking where
  bind _ _ _ _ h := ⟨h.updateNode fun _ => ⟨rfl, rfl, rfl⟩, .updateNode _ _ fun _ => id⟩
  unbind _ _ _ h := ⟨h.updateNode fun _ => ⟨rfl, rfl, rfl⟩, .updateNode _ _ fun _ => id⟩
  asks _ _ := trivial
  reports _ _ := trivial

theorem obeys_knowsModule_inheriting (e' : EnquirerId) (name : String) :
    (Host.knowsModule e' name).Obeys (.inheriting s i e pushed) :=
  Host.obeys_knowsModule (fun _ _ => trivial) e' name

open Bridge

theorem settles_holding {α : Type} {h : Handle} {body : Bridge α} (hw : w.Inherits s i e pushed)
    (hbody : ∀ v, v.Inherits s i e pushed → w.KeepsLinks i e v →
      body.Settles (.inheritance s i e pushed) v) :
    (holding h body).Settles (.inheritance s i e pushed) w := by
  have hheld : (w.hold h).Inherits s i e pushed := hw.of_nodes rfl rfl rfl hw.registered
  refine ⟨.of_nodes rfl, (hbody _ hheld (.of_nodes rfl)).bind fun result v hv _ => ?_⟩
  exact ⟨.of_nodes rfl, hv.of_nodes rfl rfl rfl hv.registered⟩

theorem Bridge.Obeys.inherits {α : Type} {p : Bridge α}
    (h : p.Obeys (.inheriting s i e pushed)) (hw : w.Inherits s i e pushed) :
    p.Settles (.inheritance s i e pushed) w :=
  h.settles id hw

/-- Whether there is nothing to mend once a node is linked. -/
structure World.Mendable (s : ResolverId) (i : ImporterId) (e : EnquirerId)
    (pushed : NodeId → Prop) (w : World) (m : NodeId) : Prop where
  there : m.index < w.nodes.next
  linked : (w.link m (some i) (some e)).Inherits s i e pushed

section Registries

theorem settles_patch (hm : w.Mendable s i e pushed m) (r : RegistryId) :
    (r.patch m (some i) (some e)).Settles (.inheritance s i e pushed) w :=
  ⟨.link w m, .of_nodes rfl, hm.linked.register hm.there r _⟩

theorem restores_makeForeign {post : NodeId → World → Prop} {handle : ObjectId}
    (made : post w.nextNode (w.addRegistered (.foreignBacked name r handle))) :
    (r.makeForeign name handle).Restores (.inheritance s i e pushed) w post :=
  ⟨.addNode w _, .of_nodes rfl, made⟩

theorem settles_makeLoaded (hw : w.Inherits s i e pushed) (r : RegistryId) (name : String) :
    (r.makeLoaded name (some i) (some e)).Settles (.inheritance s i e pushed) w :=
  ⟨.addNode w _, .of_nodes rfl, hw.addRegistered (.inl ⟨rfl, rfl⟩)⟩

theorem settles_unregisterForeign (hw : w.Inherits s i e pushed) (r : RegistryId) (name : String) :
    (r.unregisterForeign name).Settles (.inheritance s i e pushed) w := by
  have hremoves : (r.remove name).Settles (.inheritance s i e pushed) w := by
    refine settles_world_bind ?_
    split
    · exact hw
    · refine ⟨.of_nodes rfl, hw.updateRegistry r fun {name' m} hlookup => ?_⟩
      rw [Std.ExtTreeMap.getElem?_erase] at hlookup
      split at hlookup
      · cases hlookup
      · exact hlookup
  refine hremoves.bind fun removed v hv _ => ?_
  split
  · exact hv
  · exact hv

theorem settles_teardown (hw : w.Inherits s i e pushed) (r : RegistryId) :
    r.teardown.Settles (.inheritance s i e pushed) w := by
  refine ⟨.of_nodes rfl, hw.updateRegistry r fun {name' m} hlookup => ?_⟩
  rw [Registry.withoutForeign, Std.ExtTreeMap.getElem?_filter'] at hlookup
  exact (Option.filter_eq_some_iff.mp hlookup).1

end Registries

/-- Whether the node of a name may be patched, and there is nothing to mend if there is none. -/
structure World.Adoptable (s : ResolverId) (i : ImporterId) (e : EnquirerId)
    (pushed : NodeId → Prop) (w : World) (r : RegistryId) (name : String) : Prop where
  absent : w.lookup r name = none → w.Inherits s i e pushed
  found : ∀ {m}, w.lookup r name = some m → w.Mendable s i e pushed m

theorem World.Inherits.adoptable (h : w.Inherits s i e pushed) (r : RegistryId) (name : String) :
    w.Adoptable s i e pushed r name where
  absent _ := h
  found hm := ⟨h.registered hm, h.link (h.registered hm)⟩

/-- A module that was just made is mended by the links. -/
theorem World.Inherits.adoptable_addRegistered (h : w.Inherits s i e pushed) (r : RegistryId)
    (name : String) (handle : ObjectId) :
    (w.addRegistered (.foreignBacked name r handle)).Adoptable s i e pushed r name := by
  have hlookup : (w.addRegistered (.foreignBacked name r handle)).lookup r name =
      some w.nextNode :=
    w.lookup_addRegistered_self (.foreignBacked name r handle)
  refine ⟨fun hnone => ?_, fun {m} hm => ?_⟩
  · cases hlookup.symm.trans hnone
  · obtain rfl := Option.some.inj (hlookup.symm.trans hm)
    refine ⟨Nat.lt_succ_self _, ?_⟩
    rw [World.link_addRegistered]
    exact h.addRegistered (.inl ⟨rfl, rfl⟩)

namespace NodeId

theorem restores_ensureLoaded (hw : w.Inherits s i e pushed) (r : RegistryId) (e' : EnquirerId)
    (name : String) :
    (ensureLoaded r e' name).Restores (.inheritance s i e pushed) w fun result v =>
      match result with
      | .ok () => v.Adoptable s i e pushed r name
      | .error _ => v.Inherits s i e pushed := by
  change Bridge.Restores _ (if (w.lookup r name).isSome then _ else _) w _
  split
  · exact hw.adoptable r name
  · refine ⟨hw, fun reply v hv _ => ?_⟩
    rcases reply with error | handle
    · exact hv
    · change Bridge.Restores _ (if !(v.lookup r name).isSome then _ else _) v _
      split
      · exact ⟨.addNode v _, .of_nodes rfl, hv.adoptable_addRegistered r name handle⟩
      · exact hv.adoptable r name

theorem settles_adopt (linked : w.Linked i e n) (adoptable : w.Adoptable s i e pushed r name)
    (attr : String) : (n.adopt r e attr name).Settles (.inheritance s i e pushed) w := by
  refine settles_get_bind ?_
  split
  · rename_i hnone
    exact adoptable.absent hnone
  · rename_i child hchild
    change Bridge.Settles _ (do
      r.patch child (w.node n).loader (some e)
      n.bindSubmodule attr name
      return .found (.node child) : Bridge Resolution) w
    rw [linked.2.1]
    refine (settles_patch (adoptable.found hchild) r).bind fun _ v hv _ => ?_
    exact ⟨.updateNode v n fun _ => id, hv.updateNode fun _ => ⟨rfl, rfl, rfl⟩⟩

theorem settles_foreignModule (hw : w.Inherits s i e pushed) (n : NodeId) (attr : String) :
    (n.foreignModule attr).Settles (.inheritance s i e pushed) w := by
  refine settles_world_bind ?_
  dsimp only
  split
  · exact hw
  · rename_i e' henquirer
    obtain ⟨rfl, hlinked⟩ := hw.linked henquirer
    refine ((obeys_knowsModule_inheriting e' _).inherits hw).bind fun known v hv hstep => ?_
    split
    · refine settles_world_bind ?_
      split
      · exact hv
      · rename_i r _
        refine settles_holding hv fun v' hv' hstep' => ?_
        refine (restores_ensureLoaded hv' r e' _).bind fun result u hmade hlater => ?_
        cases result with
        | error error => exact hmade
        | ok =>
            -- The parent's links are read again after the host's turns, which have kept them.
            have hthere := hlater.linked (hstep'.linked (hstep.linked hlinked))
            exact (settles_adopt hthere hmade attr).bind fun found x hx _ => settles_pure _ hx
    · exact hv

theorem settles_subPackage (hw : w.Inherits s i e pushed) (n : NodeId) (attr : String) :
    (n.subPackage attr).Settles (.inheritance s i e pushed) w := by
  refine settles_world_bind ?_
  dsimp only
  split
  · exact hw
  · rename_i e' henquirer
    obtain ⟨rfl, hlinked⟩ := hw.linked henquirer
    refine ⟨hw, fun reply v hv hstep => ?_⟩
    change Bridge.Settles _ (if _ then _ else _) v
    split
    · refine settles_world_bind ?_
      split
      · exact hv
      · rename_i r _
        have hbinds : ∀ child u, u.Inherits s i e' pushed → (do
            n.bindSubmodule attr (childName (w.node n).name attr)
            return .found (.node child) : Bridge Resolution).Settles
              (.inheritance s i e' pushed) u := fun child u hu =>
          ⟨.updateNode u n fun _ => id, hu.updateNode fun _ => ⟨rfl, rfl, rfl⟩⟩
        split
        · exact hbinds _ v hv
        · rw [(hstep.linked hlinked).2.1]
          exact (settles_makeLoaded hv r _).bind fun child u hu _ => hbinds child u hu
    · exact hv

theorem settles_apply (hw : w.Inherits s i e pushed) (n : NodeId) (attr : String)
    (strategy : Strategy) : (strategy.apply n attr).Settles (.inheritance s i e pushed) w := by
  by_cases hmodule : strategy = .foreignModule
  · subst hmodule
    exact settles_foreignModule hw n attr
  by_cases hpackage : strategy = .subPackage
  · subst hpackage
    exact (settles_subPackage hw n attr).bind fun _ v hv _ => settles_pure _ hv
  · exact (n.obeys_apply_of_looking attr allowsLooking_inheriting ⟨hmodule, hpackage⟩).inherits hw

theorem settles_resolveBy (hw : w.Inherits s i e pushed) (n : NodeId) (attr : String)
    (strategies : List Strategy) :
    (n.resolveBy attr strategies).Settles (.inheritance s i e pushed) w := by
  induction strategies generalizing w with
  | nil => exact hw
  | cons strategy others ih =>
      refine (settles_apply hw n attr strategy).bind fun reply v hv _ => ?_
      split
      · split
        · exact hv
        · exact hv
      · exact ih hv
      · split
        · exact ih hv
        · exact hv

theorem settles_getAttr (hw : w.Inherits s i e pushed) (n : NodeId) (attr : String) :
    (n.getAttr attr).Settles (.inheritance s i e pushed) w :=
  settles_resolveBy hw n attr Strategy.chain

theorem settles_hasAttr (hw : w.Inherits s i e pushed) (n : NodeId) (attr : String) :
    (n.hasAttr attr).Settles (.inheritance s i e pushed) w := by
  refine (settles_getAttr hw n attr).bind fun reply v hv _ => ?_
  split
  · exact hv
  · exact hv

end NodeId

theorem ImporterId.settles_load (hw : w.Inherits s i e pushed) (name : String) :
    (i.load name).Settles (.inheritance s i e pushed) w := by
  have hdecide : ∀ decision v, v.Inherits s i e pushed →
      (i.decide name decision).Settles (.inheritance s i e pushed) v := fun _ _ hv =>
    (i.obeys_decide allowsLooking_inheriting.toAllowsTelling name _).inherits hv
  refine settles_world_bind ?_
  dsimp only
  generalize (w.importer i).registry = r
  split
  · exact (hdecide _ w hw).bind fun _ v hv _ => settles_pure _ hv
  · refine ((obeys_knowsModule_inheriting _ name).inherits hw).bind fun known v hv _ => ?_
    split
    · refine (hdecide _ v hv).bind fun _ v hv _ => ⟨hv, fun reply u hu _ => ?_⟩
      rcases reply with error | handle
      · exact hu
      · rw [hw.enquirer]
        have hpatched : ∀ m x, x.Mendable s i e pushed m → (do
            r.patch m (some i) (some e)
            return .ok m : Bridge (Except ImportError NodeId)).Settles
              (.inheritance s i e pushed) x := fun m x hm =>
          (settles_patch hm r).bind fun _ y hy _ => settles_pure _ hy
        refine settles_get_bind ?_
        split
        · rename_i registered hregistered
          exact hpatched _ u ((hu.adoptable r name).found hregistered)
        · refine Restores.bind (restores_makeForeign ?_) fun m x hm _ => hpatched m x hm
          exact (hu.adoptable_addRegistered r name handle).found
            (u.lookup_addRegistered_self (.foreignBacked name r handle))
    · refine (hdecide _ v hv).bind fun _ v hv _ => ?_
      rw [hw.enquirer]
      exact (settles_makeLoaded hv r name).bind fun _ u hu _ => settles_pure _ hu

namespace ResolverId

theorem settles_importBy (hw : w.Inherits s i e pushed) (name : String) :
    (s.importBy name [.hook i]).Settles (.inheritance s i e pushed) w := by
  have hclaims : (i.claims name).Obeys (.inheriting s i e pushed) :=
    i.obeys_claims allowsLooking_inheriting.toAllowsTelling name
  refine (hclaims.inherits hw).bind fun claimed v hv _ => ?_
  split
  · refine (ImporterId.settles_load hv name).bind fun reply u hu _ => ?_
    split
    · exact hu
    · have hbinds : ∀ n, (s.bindOnParent name n).Obeys (.inheriting s i e pushed) :=
        obeys_bindOnParent allowsLooking_inheriting.submodule name s
      exact ((hbinds _).inherits hu).bind fun _ x hx _ => settles_pure _ hx
  · exact hv

theorem settles_importOne (hw : w.Inherits s i e pushed) (name : String) :
    (s.importOne name).Settles (.inheritance s i e pushed) w := by
  refine settles_lookup_bind ?_
  split
  · exact hw
  · change Bridge.Settles _ (s.importBy name (w.resolver s).metaPath) w
    rw [hw.path]
    exact settles_importBy hw name

theorem settles_importAll (hw : w.Inherits s i e pushed) (name : String) (names : List String) :
    (s.importAll name names).Settles (.inheritance s i e pushed) w := by
  induction names generalizing w with
  | nil => exact settles_importOne hw name
  | cons first names ih =>
      refine (settles_importOne hw first).bind fun reply v hv _ => ?_
      split
      · exact hv
      · exact ih hv

theorem settles_importName (hw : w.Inherits s i e pushed) (name : String) :
    (s.importName name).Settles (.inheritance s i e pushed) w := by
  refine settles_lookup_bind ?_
  split
  · exact hw
  · split
    · exact hw
    · exact settles_importAll hw _ _

theorem settles_importFrom (hw : w.Inherits s i e pushed) (n : NodeId) (name : String) :
    (s.importFrom n name).Settles (.inheritance s i e pushed) w := by
  refine (NodeId.settles_getAttr hw n name).bind fun reply v hv _ => ?_
  split
  · exact hv
  · split
    · refine settles_world_bind ((settles_importName hv _).bind fun child u hu _ => ?_)
      split
      · exact hu
      · exact hu
    · exact hv

theorem settles_importEach (hw : w.Inherits s i e pushed) (n : NodeId) (names : List String) :
    (s.importEach n names).Settles (.inheritance s i e pushed) w := by
  induction names generalizing w with
  | nil => exact hw
  | cons name names ih =>
      refine (settles_importFrom hw n name).bind fun reply v hv _ => ?_
      split
      · exact hv
      · refine (ih hv).bind fun rest u hu _ => ?_
        split
        · exact hu
        · exact hu

theorem settles_importStar (hw : w.Inherits s i e pushed) (n : NodeId) :
    (s.importStar n).Settles (.inheritance s i e pushed) w := by
  refine (NodeId.settles_getAttr hw n (w.config n).allMarker).bind fun reply v hv _ => ?_
  split
  · exact hv
  · split
    · exact hv
    · exact settles_importEach hv n _

end ResolverId

/-- Whether an operation imports by no other resolver or importer and makes no node by hand. -/
def Operation.Confined (s : ResolverId) (i : ImporterId) : Operation → Prop
  | .call (.importName s' _) | .call (.importFrom s' _ _) | .call (.importStar s' _) => s' = s
  | .call (.load i' _) => i' = i
  | .call (.getAttr ..) | .call (.setAttr ..) | .call (.delAttr ..) => True
  | .call (.register ..) | .call (.unregister ..) | .call (.teardown _) => True
  | .hasAttr .. | .tryStrategy .. | .listNames _ | .invoke .. | .claims .. => True
  | .hold _ | .release _ => True
  | _ => False

/-- What the host is told of a registration, if the name is well-formed. -/
theorem registerForeign_tells {handle : ObjectId} (wellFormed : ¬(DottedName.parse name).isNone) :
    ((Operation.call (.register r name handle)).carryOut.advance w).pause.told =
      .replied (.call (.register r name handle)) (.ok w.nextNode) := by
  have hmakes : r.registerForeign name handle = (do
      Bridge.report (.registering name)
      return .ok (← r.makeForeign name handle)) := if_neg wellFormed
  exact congrArg (fun b : Bridge (Operation.call (.register r name handle)).Result =>
    (b.advance w).pause.told) hmakes

/-- A module is registered like one that was pushed, if that is what its node will be. -/
theorem settles_registerForeign (hw : w.Inherits s i e pushed) {handle : ObjectId}
    (told : ((Operation.call (.register r name handle)).carryOut.advance w).pause.told =
      .replied (.call (.register r name handle)) (.ok w.nextNode) → pushed w.nextNode) :
    (r.registerForeign name handle).Settles (.inheritance s i e pushed) w := by
  unfold RegistryId.registerForeign
  split
  · exact hw
  · rename_i wellFormed
    have hpushed := told (registerForeign_tells wellFormed)
    exact ⟨.addNode w _, .of_nodes rfl, hw.addRegistered (.inr ⟨⟨rfl, rfl, rfl⟩, hpushed⟩)⟩

theorem Operation.settles_carryOut {operation : Operation} (confined : operation.Confined s i)
    (hw : w.Inherits s i e pushed)
    (told : ∀ r name handle, operation = .call (.register r name handle) →
      (operation.carryOut.advance w).pause.told =
        .replied (.call (.register r name handle)) (.ok w.nextNode) → pushed w.nextNode) :
    operation.carryOut.Settles (.inheritance s i e pushed) w := by
  have looking : (Rule.inheriting s i e pushed).AllowsLooking := allowsLooking_inheriting
  have telling := looking.toAllowsTelling
  cases operation with
  | call c =>
      cases c with
      | importName s' name =>
          obtain rfl : s' = s := confined
          exact ResolverId.settles_importName hw name
      | importFrom s' n name =>
          obtain rfl : s' = s := confined
          exact ResolverId.settles_importFrom hw n name
      | importStar s' n =>
          obtain rfl : s' = s := confined
          exact ResolverId.settles_importStar hw n
      | load i' name =>
          obtain rfl : i' = i := confined
          exact ImporterId.settles_load hw name
      | getAttr n attr => exact NodeId.settles_getAttr hw n attr
      | setAttr n attr value => exact (n.obeys_setAttr attr looking value).inherits hw
      | delAttr n attr => exact (n.obeys_delAttr attr looking).inherits hw
      | register r name handle =>
          exact settles_registerForeign hw (told r name handle rfl)
      | unregister r name => exact settles_unregisterForeign hw r name
      | teardown r => exact settles_teardown hw r
  | hasAttr n attr => exact NodeId.settles_hasAttr hw n attr
  | tryStrategy strategy n attr => exact NodeId.settles_apply hw n attr strategy
  | listNames n => exact (n.obeys_listNames telling).inherits hw
  | invoke n arguments => exact (n.obeys_invoke telling arguments).inherits hw
  | claims i' name => exact (i'.obeys_claims telling name).inherits hw
  | hold h => exact ⟨.of_nodes rfl, hw.of_nodes rfl rfl rfl hw.registered⟩
  | release h => exact ⟨.of_nodes rfl, hw.of_nodes rfl rfl rfl hw.registered⟩
  | _ => exact confined.elim

/-- Whether there are no nodes yet, and the meta path of a resolver is an importer with an
enquirer. -/
structure World.Ready (s : ResolverId) (i : ImporterId) (e : EnquirerId) (w : World) : Prop where
  path : (w.resolver s).metaPath = [.hook i]
  enquirer : (w.importer i).enquirer = e
  unregistered : ∀ r name, w.lookup r name = none
  nodes : w.nodes = {}

theorem World.Ready.inherits (h : w.Ready s i e) (pushed : NodeId → Prop) :
    w.Inherits s i e pushed where
  path := h.path
  enquirer := h.enquirer
  registered {r name m} hlookup := by
    cases (h.unregistered r name).symm.trans hlookup
  nodes {m} hm := by
    rw [h.nodes] at hm
    exact absurd hm (Nat.not_lt_zero _)
  absent {m} _ := by
    rw [World.node, h.nodes]
    rfl

/-- Whether a registration of a module has answered with a node. -/
def NodeId.RegisteredBy (heard : List Told) (m : NodeId) : Prop :=
  ∃ r name handle, .replied (.call (.register r name handle)) (.ok m) ∈ heard

/-- Behind every move of a host that imports by one resolver and its one importer only and makes no
nodes by hand, every node is linked to the importer and its enquirer, or is a foreign module with
neither that the host has registered.  Links are never lost. -/
theorem FreeHost.nodes_linked {host : FreeHost} (ready : w.Ready s i e)
    (confined : ∀ heard v operation, host heard v = .begins operation → operation.Confined s i)
    (n : Nat) :
    let p := host.play Operation.carryOut w
    (∀ m : NodeId, m.index < (p n).world.nodes.next →
      (p n).world.Linked i e m ∨
        ((p n).world.node m).IsPushed ∧ m.RegisteredBy (p n).heard) ∧
      (∀ m : NodeId, m.index < (p n).world.nodes.next →
        ((p n).world.node m).isForeignBacked = false → (p n).world.Linked i e m) ∧
      ∀ k ≤ n, ∀ m, (p k).world.Linked i e m → (p n).world.Linked i e m := by
  intro p
  -- What the host is told is never taken back, so all of the play can be held against its end.
  let pushed : NodeId → Prop := fun m => m.RegisteredBy (p n).heard
  have hfulfilled : ∀ k < n, ∀ operation, host.moveAt (p k) = .begins operation →
      (p k).world.Inherits s i e pushed →
        operation.carryOut.Settles (.inheritance s i e pushed) (p k).world := by
    intro k hk operation hmove hgood
    refine Operation.settles_carryOut (confined _ _ _ hmove) hgood ?_
    rintro r name handle rfl htold
    refine ⟨r, name, handle, host.heard_of_le _ w hk ?_⟩
    rw [play, hmove, ← htold, Play.take, Play.heard_go]
    exact List.mem_append_right _ (List.mem_singleton_self _)
  obtain ⟨hkept, hsteps⟩ : (p n).Kept (.inheritance s i e pushed) ∧
      ∀ k ≤ n, (p k).world.KeepsLinks i e (p n).world :=
    play_kept (ready.inherits pushed) n hfulfilled
  have hnodes : ∀ m : NodeId, m.index < (p n).world.nodes.next →
      (p n).world.Linked i e m ∨ ((p n).world.node m).IsPushed ∧ pushed m := by
    intro m hm
    exact (hkept.good.nodes hm).imp_left fun hlinked => ⟨hm, hlinked⟩
  refine ⟨hnodes, fun m hm hplain => ?_, fun k hk m hlinked => (hsteps k hk).linked hlinked⟩
  rcases hnodes m hm with hlinked | ⟨hpushed, -⟩
  · exact hlinked
  · rw [hpushed.backed] at hplain
    cases hplain

theorem World.lookup_fresh (r : RegistryId) (name : String) : fresh.lookup r name = none := by
  have hempty : fresh.registry r = {} := by
    change (({} : Arena Registry).push {}).get r.index = {}
    rw [Arena.get_push]
    split
    · rfl
    · rfl
  rw [lookup, hempty]
  exact Std.ExtTreeMap.getElem?_empty

/-- A module that the host registers and leaves alone, and one that it registers while an import is
about to load it. -/
theorem FreeHost.nodes_linked_reentrant :
    let w := ((ResolverId.processWide.setup (some ⟨5⟩)).run .ignorant .fresh).world
    let host : FreeHost := fun heard _ => match heard.length with
      | 0 => .begins (.call (.register .processWide "own" ⟨3⟩))
      | 1 => .begins (.call (.importName .processWide "mod"))
      | 7 => .begins (.call (.register .processWide "mod" ⟨8⟩))
      | _ => .answers (.knowing "mod" ⟨7⟩)
    let p := host.play Operation.carryOut w 10
    (w.Ready .processWide ⟨0⟩ ⟨5⟩ ∧ ∀ heard v operation, host heard v = .begins operation →
      operation.Confined .processWide ⟨0⟩) ∧
      p.world.nodes.next = 2 ∧ p.world.lookup .processWide "mod" = some ⟨1⟩ ∧
      p.world.Linked ⟨0⟩ ⟨5⟩ ⟨1⟩ ∧ (p.world.node ⟨0⟩).IsPushed ∧
      NodeId.RegisteredBy p.heard ⟨0⟩ := by
  intro w host p
  have ready : w.Ready .processWide ⟨0⟩ ⟨5⟩ :=
    ⟨by decide +kernel, by decide +kernel, World.lookup_fresh, rfl⟩
  have confined : ∀ heard v operation, host heard v = .begins operation →
      operation.Confined .processWide ⟨0⟩ := by
    intro heard v operation hbegins
    simp only [host] at hbegins
    split at hbegins <;> cases hbegins
    · trivial
    · rfl
    · trivial
  obtain ⟨hnodes, -, -⟩ := nodes_linked ready confined 10
  have hnext : p.world.nodes.next = 2 := by decide +kernel
  have hown : (p.world.node ⟨0⟩).loader = none := by decide +kernel
  have hmod : (p.world.node ⟨1⟩).loader = some ⟨0⟩ := by decide +kernel
  refine ⟨⟨ready, confined⟩, hnext, by decide +kernel, ?_, ?_⟩
  · refine (hnodes ⟨1⟩ (by rw [hnext]; decide)).resolve_right fun h => ?_
    cases hmod.symm.trans h.1.loader
  · refine (hnodes ⟨0⟩ (by rw [hnext]; decide)).resolve_left fun h => ?_
    cases hown.symm.trans h.2.1

end ForeignNamespace
