import ForeignNamespace.Proofs.DottedSegments
import ForeignNamespace.Proofs.Footprints

namespace ForeignNamespace

/-- Nothing that is registered is lost or replaced. -/
structure World.Grows (r : RegistryId) (w v : World) : Prop where
  keeps : ∀ {name m}, w.lookup r name = some m → v.lookup r name = some m
  importers : v.importers = w.importers
  resolvers : v.resolvers = w.resolvers

namespace World

variable {r : RegistryId} {w : World}

theorem Grows.refl (w : World) : w.Grows r w := ⟨id, rfl, rfl⟩

theorem Grows.trans {u v w : World} (first : u.Grows r v) (second : v.Grows r w) :
    u.Grows r w :=
  ⟨fun h => second.keeps (first.keeps h), second.importers.trans first.importers,
    second.resolvers.trans first.resolvers⟩

theorem grows_updateNode (hgood : w.KeyedByName r) (n : NodeId) {change : Node → Node}
    (hname : ∀ node, (change node).name = node.name) :
    (w.updateNode n change).KeyedByName r ∧ w.Grows r (w.updateNode n change) := by
  refine ⟨⟨hgood.lt_next, ?_⟩, ⟨id, rfl, rfl⟩⟩
  intro name m hlookup
  rw [node_updateNode]
  split
  · rw [hname]
    exact hgood.name_eq hlookup
  · exact hgood.name_eq hlookup

theorem grows_addNode (hgood : w.KeyedByName r) (node : Node) :
    (w.addNode node).KeyedByName r ∧ w.Grows r (w.addNode node) := by
  refine ⟨⟨?_, ?_⟩, ⟨id, rfl, rfl⟩⟩
  · intro name m hlookup
    exact Nat.lt_succ_of_lt (hgood.lt_next hlookup)
  · intro name m hlookup
    rw [node_addNode_of_lt w (hgood.lt_next hlookup)]
    exact hgood.name_eq hlookup

theorem keyedByName_register (hgood : w.KeyedByName r) {r' : RegistryId} {name : String}
    {n : NodeId} (hn : r' = r → n.index < w.nodes.next ∧ (w.node n).name = name) :
    (w.register r' name n).KeyedByName r := by
  constructor
  · intro name' m hlookup
    rw [lookup_register] at hlookup
    split at hlookup
    · rename_i heq
      obtain rfl := Option.some.inj hlookup
      exact (hn heq.1).1
    · exact hgood.lt_next hlookup
  · intro name' m hlookup
    rw [lookup_register] at hlookup
    split at hlookup
    · rename_i heq
      obtain rfl := Option.some.inj hlookup
      rw [← heq.2]
      exact (hn heq.1).2
    · exact hgood.name_eq hlookup

theorem grows_register {r' : RegistryId} {name : String} {n : NodeId}
    (hfree : r' = r → ∀ m, w.lookup r name = some m → m = n) :
    w.Grows r (w.register r' name n) := by
  refine ⟨?_, rfl, rfl⟩
  intro name' m hlookup
  rw [lookup_register]
  split
  · rename_i heq
    obtain ⟨rfl, rfl⟩ := heq
    rw [hfree rfl m hlookup]
  · exact hlookup

theorem grows_addRegistered (hgood : w.KeyedByName r) {node : Node}
    (hfree : node.registry = r → w.lookup r node.name = none) :
    ((w.addRegistered node).KeyedByName r) ∧
      (w.addNode node).Grows r (w.addRegistered node) := by
  refine ⟨hgood.addRegistered node, grows_register fun hr m hlookup => ?_⟩
  rw [lookup_addNode, hfree hr] at hlookup
  exact absurd hlookup (by simp)

theorem grows_hold (hgood : w.KeyedByName r) (h : Handle) :
    (w.hold h).KeyedByName r ∧ w.Grows r (w.hold h) :=
  ⟨⟨hgood.lt_next, hgood.name_eq⟩, ⟨id, rfl, rfl⟩⟩

theorem grows_release (hgood : w.KeyedByName r) (h : Handle) :
    (w.release h).KeyedByName r ∧ w.Grows r (w.release h) :=
  ⟨⟨hgood.lt_next, hgood.name_eq⟩, ⟨id, rfl, rfl⟩⟩

end World

/-- A host that removes nothing and registers unregistered names only.  It may call the bridge
whatever it is asked, unless it is asked whether it can load modules. -/
structure Conduct.AddsOnly (conduct : Conduct) : Prop where
  register : ∀ {w r name handle}, conduct.makes w (.register r name handle) →
    w.lookup r name = none
  not_unregister : ∀ {w r name}, ¬conduct.makes w (.unregister r name)
  not_teardown : ∀ {w r}, ¬conduct.makes w (.teardown r)
  capability : ∀ {w e loads v}, conduct.answers (.loadsModules e) w loads v → v = w

/-- A host that never denies a module whose name it has just registered, if it denies it to an
importer of the registry. -/
def Conduct.DeniesQuietly (conduct : Conduct) (r : RegistryId) : Prop :=
  ∀ {w i name turn v}, w.KeyedByName r → (w.importer i).registry = r →
    w.lookup r name = none → conduct.answers (.loadsModules (w.importer i).enquirer) w true w →
    Session conduct w turn v → conduct.answers (.isModule (w.importer i).enquirer name) w false v →
    v.lookup r name = none

/-- Whether a finder is an importer that makes nodes of a registry. -/
def Finder.WorksOn (w : World) (r : RegistryId) : Finder → Prop
  | .hook i => (w.importer i).registry = r
  | .host .. => False

/-- Whether a resolver and all of its finders make nodes of a registry. -/
def ResolverId.WorksOn (s : ResolverId) (w : World) (r : RegistryId) : Prop :=
  (w.resolver s).registry = r ∧ ∀ f ∈ (w.resolver s).metaPath, f.WorksOn w r

theorem World.Grows.worksOn_iff {r' : RegistryId} {w v : World} (h : w.Grows r' v)
    {r : RegistryId} (f : Finder) : f.WorksOn v r ↔ f.WorksOn w r := by
  cases f with
  | hook i => simp only [Finder.WorksOn, World.importer, h.importers]
  | host f _ => exact Iff.rfl

theorem World.Grows.resolverWorksOn_iff {r' : RegistryId} {w v : World} (h : w.Grows r' v)
    {r : RegistryId} (s : ResolverId) : s.WorksOn v r ↔ s.WorksOn w r := by
  simp only [ResolverId.WorksOn, World.resolver, h.resolvers, h.worksOn_iff]

/-- Whether a call yields the node of a name in a registry, if it yields one. -/
def Call.Yields (w : World) (r : RegistryId) (name : String) : Call → Prop
  | .importName s name' => name' = name ∧ s.WorksOn w r
  | .load i name' => name' = name ∧ (w.importer i).registry = r
  | .register r' name' _ => name' = name ∧ r' = r
  | _ => False

/-- What keeps the names of a registry stable. -/
def Discipline.identity (conduct : Conduct) (r : RegistryId) : Discipline where
  conduct
  good w := w.KeyedByName r
  step w v := w.Grows r v
  refl := World.Grows.refl
  trans := World.Grows.trans
  achieves call result w :=
    ∀ name m, call.Yields w r name → result = .ok (.node m) → w.lookup r name = some m

/-- The rule of writes that keep the names of a registry stable. -/
def Rule.growing (r : RegistryId) : Rule :=
  .ofWrites fun w v => w.KeyedByName r → v.KeyedByName r ∧ w.Grows r v

theorem Rule.allowsLooking_growing (r : RegistryId) : (Rule.growing r).AllowsLooking where
  bind _ n _ _ hgood := World.grows_updateNode hgood n fun _ => rfl
  unbind _ n _ hgood := World.grows_updateNode hgood n fun _ => rfl
  asks _ _ := trivial
  reports _ _ := trivial

def Bridge.Keeps (conduct : Conduct) (r : RegistryId) {α : Type} (p : Bridge α) : Prop :=
  ∀ w, w.KeyedByName r → p.Ensures (.identity conduct r) w fun _ _ => True

namespace Bridge

variable {α β : Type} {conduct : Conduct} {r : RegistryId} {w : World}

theorem keeps_pure (a : α) : (Pure.pure a : Bridge α).Keeps conduct r := fun _ _ => trivial

theorem Keeps.bind {p : Bridge α} {f : α → Bridge β} (hp : p.Keeps conduct r)
    (hf : ∀ a, (f a).Keeps conduct r) :
    (p >>= f).Keeps conduct r :=
  fun w hgood => (hp w hgood).bind hgood fun a v _ hv _ => hf a v hv

theorem keeps_world : Bridge.world.Keeps conduct r := fun _ _ => trivial

theorem keeps_report (event : Event) : (Bridge.report event).Keeps conduct r := fun _ _ => trivial

theorem keeps_ask (question : Query) : (Bridge.ask question .pure).Keeps conduct r :=
  fun _ _ _ _ _ => trivial

theorem keeps_modify {change : World → World}
    (h : ∀ w, w.KeyedByName r → (change w).KeyedByName r ∧ w.Grows r (change w)) :
    (Bridge.modify change).Keeps conduct r :=
  fun w hgood => ⟨h w hgood, trivial⟩

theorem keeps_holding {h : Handle} {body : Bridge α} (hbody : body.Keeps conduct r) :
    (Bridge.holding h body).Keeps conduct r := by
  refine (keeps_modify fun w hgood => World.grows_hold hgood h).bind fun _ => ?_
  refine hbody.bind fun result => ?_
  exact (keeps_modify fun w hgood => World.grows_release hgood h).bind fun _ => keeps_pure result

/-- What does nothing to nodes but bind and unbind on them keeps every name. -/
theorem Obeys.keeps {p : Bridge α} (hp : p.Obeys (.growing r)) : p.Keeps conduct r := by
  intro w hgood
  have hwrites : ∀ {u v : World}, u.KeyedByName r → (Rule.growing r).writes u v →
      v.KeyedByName r ∧ u.Grows r v := fun hu h => h hu
  exact (hp w).ensures hgood hwrites

theorem ensures_ask_bind_iff {d : Discipline} {question : Query} {f : question.Answer → Bridge β}
    {post : β → World → Prop} :
    (Bridge.ask question .pure >>= f).Ensures d w post ↔
      ∀ answer v, d.Relies question w answer v → (f answer).Ensures d v post :=
  Iff.rfl

@[simp] theorem ensures_get_bind_iff {d : Discipline} {r' : RegistryId} {name : String}
    {f : Option NodeId → Bridge β} {post : β → World → Prop} :
    (r'.get name >>= f).Ensures d w post ↔ (f (w.lookup r' name)).Ensures d w post :=
  Iff.rfl

@[simp] theorem ensures_lookup_bind_iff {d : Discipline} {s : ResolverId} {name : String}
    {f : Option NodeId → Bridge β} {post : β → World → Prop} :
    (s.lookup name >>= f).Ensures d w post ↔
      (f (w.lookup (w.resolver s).registry name)).Ensures d w post :=
  Iff.rfl

@[simp] theorem ensures_contains_bind_iff {d : Discipline} {r' : RegistryId} {name : String}
    {f : Bool → Bridge β} {post : β → World → Prop} :
    (r'.contains name >>= f).Ensures d w post ↔
      (f (w.lookup r' name).isSome).Ensures d w post :=
  Iff.rfl

theorem ensures_made (hgood : w.KeyedByName r) (node : Node)
    (hfree : node.registry = r → w.lookup r node.name = none) :
    (do let n ← Bridge.create node
        let _ ← node.registry.put node.name n
        return n : Bridge NodeId).Ensures (.identity conduct r) w
      fun n v => node.registry = r → v.lookup r node.name = some n := by
  refine ⟨World.grows_addNode hgood node, World.grows_addRegistered hgood hfree, ?_⟩
  rintro rfl
  exact w.lookup_addRegistered_self node

theorem ensures_makeLoaded (hgood : w.KeyedByName r) {r' : RegistryId} {name : String}
    (hfree : r' = r → w.lookup r name = none) (loader : Option ImporterId)
    (enquirer : Option EnquirerId) :
    (r'.makeLoaded name loader enquirer).Ensures (.identity conduct r) w
      fun n v => r' = r → v.lookup r name = some n :=
  ensures_made hgood (Node.bridge name r' loader enquirer) hfree

theorem ensures_makeForeign (hgood : w.KeyedByName r) {r' : RegistryId} {name : String}
    (hfree : r' = r → w.lookup r name = none) (handle : ObjectId) :
    (r'.makeForeign name handle).Ensures (.identity conduct r) w
      fun n v => r' = r → v.lookup r name = some n :=
  ensures_made hgood (Node.foreignBacked name r' handle) hfree

/-- Patching a node that is registered under its own name leaves the registry as it is. -/
theorem ensures_patch (hgood : w.KeyedByName r) {r' : RegistryId} {name : String} {n : NodeId}
    (hn : r' = r → w.lookup r name = some n) (loader : Option ImporterId)
    (enquirer : Option EnquirerId) :
    (r'.patch n loader enquirer).Ensures (.identity conduct r) w fun _ _ => True := by
  have hlink : (w.link n loader enquirer).KeyedByName r ∧ w.Grows r (w.link n loader enquirer) :=
    World.grows_updateNode hgood n fun _ => rfl
  have hname : ((w.link n loader enquirer).node n).name = (w.node n).name := by
    simp [World.link]
  refine ⟨hlink, ⟨?_, ?_⟩, trivial⟩
  · refine World.keyedByName_register hlink.1 fun hr => ⟨hgood.lt_next (hn hr), rfl⟩
  · refine World.grows_register fun hr m hlookup => ?_
    have hm : w.lookup r (w.node n).name = some m := hname ▸ hlookup
    rw [hgood.name_eq (hn hr), hn hr] at hm
    exact (Option.some.inj hm).symm

theorem ensures_patch_of_lookup (hgood : w.KeyedByName r) {r' : RegistryId} {name : String}
    {n : NodeId} (hn : w.lookup r' name = some n) (loader : Option ImporterId)
    (enquirer : Option EnquirerId) :
    (r'.patch n loader enquirer).Ensures (.identity conduct r) w fun _ _ => True :=
  ensures_patch hgood (fun hr => hr ▸ hn) loader enquirer

end Bridge

namespace NodeId

open Bridge

variable {conduct : Conduct} {r : RegistryId} (n : NodeId) (attr name : String)

theorem keeps_ensureLoaded (r' : RegistryId) (e : EnquirerId) :
    (ensureLoaded r' e name).Keeps conduct r := by
  refine (keeps_world.bind fun w => keeps_pure _).bind fun there => ?_
  split
  · exact keeps_pure _
  · refine (keeps_ask _).bind fun reply => ?_
    split
    · exact keeps_pure _
    · rename_i handle
      intro w hgood
      apply ensures_contains_bind_iff.mpr
      split
      · rename_i hfree
        have hfree : w.lookup r' name = none := by simpa using hfree
        refine (ensures_makeForeign hgood (fun hr => hr ▸ hfree) handle).bind hgood ?_
        exact fun _ _ _ _ _ => trivial
      · trivial

theorem keeps_adopt (r' : RegistryId) (e : EnquirerId) :
    (n.adopt r' e attr name).Keeps conduct r := by
  intro w hgood
  apply ensures_get_bind_iff.mpr
  split
  · trivial
  · rename_i child hlookup
    apply ensures_world_bind_iff.mpr
    refine (ensures_patch_of_lookup hgood hlookup (w.node n).loader (some e)).bind hgood ?_
    intro _ v _ hv _
    have keeping := (Rule.allowsLooking_growing r).allowsKeeping n attr
    have hbinds := n.obeys_bindSubmodule attr name keeping
    exact (hbinds.keeps.bind fun _ => keeps_pure _) v hv

theorem keeps_foreignModule : (n.foreignModule attr).Keeps conduct r := by
  refine keeps_world.bind fun w => ?_
  dsimp only
  split
  · exact keeps_pure _
  · rename_i e _
    have hknows := Host.obeys_knowsModule (Rule.allowsLooking_growing r).asks e
    refine (hknows _).keeps.bind fun known => ?_
    split
    · refine keeps_world.bind fun v => ?_
      split
      · exact keeps_pure _
      · rename_i r' _
        refine keeps_holding ((keeps_ensureLoaded _ r' e).bind fun loaded => ?_)
        split
        · exact keeps_pure _
        · exact (n.keeps_adopt attr _ r' e).bind fun _ => keeps_pure _
    · exact keeps_pure _

theorem keeps_subPackage : (n.subPackage attr).Keeps conduct r := by
  refine keeps_world.bind fun w => ?_
  dsimp only
  split
  · exact keeps_pure _
  · rename_i e _
    refine (keeps_ask _).bind fun subPackages => ?_
    split
    · intro v hgood
      apply ensures_world_bind_iff.mpr
      split
      · trivial
      · rename_i r' _
        have keeping := (Rule.allowsLooking_growing r).allowsKeeping n attr
        have hbinds : ∀ child : NodeId, (do
            n.bindSubmodule attr (childName (w.node n).name attr)
            return .found (.node child) : Bridge Resolution).Keeps conduct r := fun child =>
          (n.obeys_bindSubmodule attr _ keeping).keeps.bind fun _ => keeps_pure _
        split
        · rename_i child _
          exact hbinds child v hgood
        · rename_i hfree
          refine (ensures_makeLoaded hgood (fun hr => hr ▸ hfree) _ _).bind hgood ?_
          exact fun child u _ hu _ => hbinds child u hu
    · exact keeps_pure _

theorem keeps_apply (strategy : Strategy) : (strategy.apply n attr).Keeps conduct r := by
  by_cases hmodule : strategy = .foreignModule
  · subst hmodule
    exact n.keeps_foreignModule attr
  by_cases hpackage : strategy = .subPackage
  · subst hpackage
    exact (n.keeps_subPackage attr).bind fun _ => keeps_pure _
  have looking := Rule.allowsLooking_growing r
  exact (n.obeys_apply_of_looking attr looking ⟨hmodule, hpackage⟩).keeps

theorem keeps_resolveBy (strategies : List Strategy) :
    (n.resolveBy attr strategies).Keeps conduct r := by
  induction strategies with
  | nil =>
      refine keeps_world.bind fun w => ?_
      exact (keeps_report _).bind fun _ => keeps_pure _
  | cons strategy others ih =>
      refine (n.keeps_apply attr strategy).bind fun reply => ?_
      split
      · split
        · refine keeps_world.bind fun w => ?_
          exact (keeps_report _).bind fun _ => keeps_pure _
        · exact keeps_pure _
      · exact ih
      · split
        · refine keeps_world.bind fun w => ?_
          exact (keeps_report _).bind fun _ => ih
        · exact keeps_pure _

theorem keeps_getAttr : (n.getAttr attr).Keeps conduct r := n.keeps_resolveBy attr Strategy.chain

end NodeId

section Imports

open Bridge

variable {conduct : Conduct} {r : RegistryId} {w : World} (name : String)

theorem ensures_decide_bind_iff {d : Discipline} {β : Type} {i : ImporterId}
    {decision : HookDecision} {f : Unit → Bridge β} {post : β → World → Prop} :
    (i.decide name decision >>= f).Ensures d w post ↔ (f ()).Ensures d w post :=
  Iff.rfl

theorem ensures_registerForeign (hgood : w.KeyedByName r) {r' : RegistryId}
    (hfree : r' = r → w.lookup r name = none) (handle : ObjectId) :
    (r'.registerForeign name handle).Ensures (.identity conduct r) w fun result v =>
      r' = r → ∀ m, result = .ok m → v.lookup r name = some m := by
  unfold RegistryId.registerForeign
  split
  · intro _ _ hm
    cases hm
  · apply ensures_report_bind_iff.mpr
    refine (ensures_makeForeign hgood hfree handle).bind hgood ?_
    intro n v hn _ _ hr m hm
    obtain rfl := Except.ok.inj hm
    exact hn hr

theorem ensures_patched (hgood : w.KeyedByName r) {r' : RegistryId} {n : NodeId}
    (hn : r' = r → w.lookup r name = some n) (loader : Option ImporterId)
    (enquirer : Option EnquirerId) :
    (do r'.patch n loader enquirer
        return .ok n : Bridge (Except ImportError NodeId)).Ensures (.identity conduct r) w
      fun result v => r' = r → ∀ m, result = .ok m → v.lookup r name = some m := by
  refine (ensures_patch hgood hn loader enquirer).bind hgood ?_
  intro _ v _ _ hstep hr m hm
  obtain rfl := Except.ok.inj hm
  exact hstep.keeps (hn hr)

/-- A call that yields no node has nothing else to achieve. -/
theorem Bridge.Keeps.achieves {call : Call} {p : Bridge (Except ImportError Value)}
    (hp : p.Keeps conduct r) (hgood : w.KeyedByName r)
    (hyields : ∀ {v name}, ¬call.Yields v r name) :
    p.Ensures (.identity conduct r) w ((Discipline.identity conduct r).achieves call) :=
  (hp w hgood).mono fun _ _ _ _ _ h => absurd h hyields

theorem ensures_mapNode {p : Bridge (Except ImportError NodeId)} {name : String} {works : Prop}
    (hgood : w.KeyedByName r)
    (hp : p.Ensures (.identity conduct r) w fun result v =>
      works → ∀ m, result = .ok m → v.lookup r name = some m) :
    (do return (← p).map .node : Bridge (Except ImportError Value)).Ensures
      (.identity conduct r) w fun result v => w.Grows r v ∧
        (works → ∀ m, result = .ok (.node m) → v.lookup r name = some m) := by
  refine hp.bind hgood fun reply v hreply _ hstep => ⟨hstep, fun hworks m hm => ?_⟩
  cases reply with
  | error error => cases hm
  | ok n =>
      obtain rfl := Value.node.inj (Except.ok.inj hm)
      exact hreply hworks n rfl

variable (adds : conduct.AddsOnly) (quiet : conduct.DeniesQuietly r)

include adds quiet

/-- The enquirer of an importer that denies a module has not registered its name. -/
theorem ensures_knowsModule (hgood : w.KeyedByName r) {i : ImporterId}
    (hfree : (w.importer i).registry = r → w.lookup r name = none) :
    (Host.knowsModule (w.importer i).enquirer name).Ensures (.identity conduct r) w
      fun known v => known = false → (w.importer i).registry = r → v.lookup r name = none := by
  refine ensures_ask_bind_iff.mpr fun loads v hv => ?_
  obtain rfl := adds.capability hv.answers
  split
  · rename_i hloads
    obtain rfl := hloads
    intro known u hu hknown hr
    obtain rfl := hknown
    obtain ⟨turn, hturn⟩ := hu.session
    exact quiet hgood hr (hfree hr) hv.answers hturn hu.answers
  · exact fun _ => hfree

/-- What a load yields is registered under its name. -/
theorem ensures_load (hgood : w.KeyedByName r) (i : ImporterId) :
    (i.load name).Ensures (.identity conduct r) w fun result v =>
      (w.importer i).registry = r → ∀ m, result = .ok m → v.lookup r name = some m := by
  apply ensures_world_bind_iff.mpr
  dsimp only
  split
  · rename_i m hlookup
    refine (ensures_decide_bind_iff name).mpr fun hr m' hm => ?_
    obtain rfl := Except.ok.inj hm
    exact hr ▸ hlookup
  · rename_i hfree
    refine (ensures_knowsModule name adds quiet hgood fun hr => hr ▸ hfree).bind hgood ?_
    intro known v hknown hv _
    split
    · apply (ensures_decide_bind_iff name).mpr
      refine ensures_ask_bind_iff.mpr fun reply u hu => ?_
      split
      · intro _ _ hm
        cases hm
      · rename_i handle
        -- The name is looked up again, so nothing is needed of the host that loaded the module.
        apply ensures_get_bind_iff.mpr
        split
        · rename_i registered hlookup
          exact ensures_patched name hu.good (fun hr => hr ▸ hlookup) _ _
        · rename_i habsent
          refine (ensures_makeForeign hu.good (fun hr => hr ▸ habsent) handle).bind hu.good ?_
          exact fun n u' hn hu' _ => ensures_patched name hu' hn _ _
    · rename_i hdenied
      apply (ensures_decide_bind_iff name).mpr
      -- Nobody looks here: that the name is still free is what a quiet host grants.
      have habsent : (w.importer i).registry = r → v.lookup r name = none :=
        hknown (Bool.eq_false_iff.mpr hdenied)
      refine (ensures_makeLoaded hv habsent _ _).bind hv ?_
      intro n u hn _ _ hr m hm
      obtain rfl := Except.ok.inj hm
      exact hn hr

theorem ensures_finderLoad (hgood : w.KeyedByName r) (f : Finder) :
    (f.load name).Ensures (.identity conduct r) w fun result v =>
      f.WorksOn w r → ∀ m, result = .ok m → v.lookup r name = some m := by
  cases f with
  | hook i => exact ensures_load name adds quiet hgood i
  | host f _ => exact fun _ _ _ hf => absurd hf id

theorem ensures_importBy (hgood : w.KeyedByName r) (s : ResolverId) (finders : List Finder) :
    (s.importBy name finders).Ensures (.identity conduct r) w fun result v =>
      (∀ f ∈ finders, f.WorksOn w r) → ∀ m, result = .ok m → v.lookup r name = some m := by
  have looking := Rule.allowsLooking_growing r
  induction finders generalizing w with
  | nil =>
      intro _ _ hm
      cases hm
  | cons f others ih =>
      refine ((f.obeys_claims looking.toAllowsTelling name).keeps w hgood).bind hgood ?_
      intro claimed v _ hv hstep
      split
      · refine (ensures_finderLoad name adds quiet hv f).bind hv ?_
        intro reply u hreply hu _
        split
        · intro _ _ hm
          cases hm
        · rename_i m
          refine ((s.obeys_bindOnParent looking.submodule name m).keeps u hu).bind hu ?_
          intro _ u' _ _ hstep' hworks m' hm
          obtain rfl := Except.ok.inj hm
          have hf := (hstep.worksOn_iff f).mpr (hworks f (by simp))
          exact hstep'.keeps (hreply hf m rfl)
      · refine (ih hv).mono fun result u hresult hworks => ?_
        exact hresult fun g hg => (hstep.worksOn_iff g).mpr (hworks g (by simp [hg]))

/-- What a resolver over a registry yields is registered there, if all of its finders work on
it. -/
theorem ensures_importOne (hgood : w.KeyedByName r) (s : ResolverId) :
    (s.importOne name).Ensures (.identity conduct r) w fun result v =>
      s.WorksOn w r → ∀ m, result = .ok m → v.lookup r name = some m := by
  apply ensures_lookup_bind_iff.mpr
  split
  · rename_i m hlookup
    intro hworks m' hm
    obtain rfl := Except.ok.inj hm
    exact hworks.1 ▸ hlookup
  · apply ensures_world_bind_iff.mpr
    exact (ensures_importBy name adds quiet hgood s _).mono fun result v hresult hworks =>
      hresult hworks.2

theorem ensures_importAll (hgood : w.KeyedByName r) (s : ResolverId) (names : List String) :
    (s.importAll name names).Ensures (.identity conduct r) w fun result v =>
      s.WorksOn w r → ∀ m, result = .ok m → v.lookup r name = some m := by
  induction names generalizing w with
  | nil => exact ensures_importOne name adds quiet hgood s
  | cons first names ih =>
      refine (ensures_importOne first adds quiet hgood s).bind hgood ?_
      intro reply v _ hv hstep
      split
      · intro _ _ hm
        cases hm
      · exact (ih hv).mono fun result u hresult hworks =>
          hresult ((hstep.resolverWorksOn_iff s).mpr hworks)

theorem ensures_importName (hgood : w.KeyedByName r) (s : ResolverId) :
    (s.importName name).Ensures (.identity conduct r) w fun result v =>
      s.WorksOn w r → ∀ m, result = .ok m → v.lookup r name = some m := by
  apply ensures_lookup_bind_iff.mpr
  split
  · rename_i m hlookup
    intro hworks m' hm
    obtain rfl := Except.ok.inj hm
    exact hworks.1 ▸ hlookup
  · split
    · intro _ _ hm
      cases hm
    · rename_i dotted hparse
      rw [← DottedName.fullName_of_parse hparse]
      exact ensures_importAll _ adds quiet hgood s _

theorem keeps_importName (s : ResolverId) : (s.importName name).Keeps conduct r :=
  fun _ hgood => (ensures_importName name adds quiet hgood s).mono fun _ _ _ => trivial

theorem keeps_importFrom (s : ResolverId) (n : NodeId) :
    (s.importFrom n name).Keeps conduct r := by
  refine (n.keeps_getAttr name).bind fun reply => ?_
  split
  · exact keeps_pure _
  · split
    · refine keeps_world.bind fun w => ?_
      refine (keeps_importName _ adds quiet s).bind fun reply => ?_
      split
      · exact keeps_pure _
      · exact keeps_pure _
    · exact keeps_pure _

theorem keeps_importEach (s : ResolverId) (n : NodeId) (names : List String) :
    (s.importEach n names).Keeps conduct r := by
  induction names with
  | nil => exact keeps_pure _
  | cons name names ih =>
      refine (keeps_importFrom name adds quiet s n).bind fun reply => ?_
      split
      · exact keeps_pure _
      · refine ih.bind fun rest => ?_
        split
        · exact keeps_pure _
        · exact keeps_pure _

theorem keeps_importStar (s : ResolverId) (n : NodeId) :
    (s.importStar n).Keeps conduct r := by
  refine keeps_world.bind fun w => (n.keeps_getAttr _).bind fun reply => ?_
  split
  · exact keeps_pure _
  · split
    · exact keeps_pure _
    · exact keeps_importEach adds quiet s n _

/-- Every call of a quiet host keeps the names stable and yields what is registered. -/
theorem identity_fulfilled : (Discipline.identity conduct r).Fulfilled := by
  intro w call hgood hmakes
  have looking := Rule.allowsLooking_growing r
  cases call with
  | importName s name =>
      have himport := ensures_importName name adds quiet hgood s
      refine (ensures_mapNode hgood himport).mono fun result v hresult name' m hyields => ?_
      obtain ⟨rfl, hworks⟩ := hyields
      exact hresult.2 ((hresult.1.resolverWorksOn_iff s).mp hworks) m
  | load i name =>
      have hload := ensures_load name adds quiet hgood i
      refine (ensures_mapNode hgood hload).mono fun result v hresult name' m hyields => ?_
      obtain ⟨rfl, hworks⟩ := hyields
      exact hresult.2 ((hresult.1.worksOn_iff (.hook i)).mp hworks) m
  | register r' name handle =>
      have hfree := adds.register hmakes
      refine (ensures_mapNode hgood (ensures_registerForeign name hgood
        (fun hr => hr ▸ hfree) handle)).mono fun result v hresult name' m hyields => ?_
      obtain ⟨rfl, hr⟩ := hyields
      exact hresult.2 hr m
  | importFrom s n name =>
      rw [Call.perform_importFrom]
      exact (keeps_importFrom name adds quiet s n).achieves hgood nofun
  | importStar s n =>
      have hkeeps : (Call.importStar s n).perform.Keeps conduct r :=
        (keeps_importStar adds quiet s n).bind fun _ => keeps_pure _
      exact hkeeps.achieves hgood nofun
  | getAttr n attr =>
      rw [Call.perform_getAttr]
      exact (n.keeps_getAttr attr).achieves hgood nofun
  | setAttr n attr value =>
      have hkeeps : (Call.setAttr n attr value).perform.Keeps conduct r :=
        (n.obeys_setAttr attr looking value).keeps.bind fun _ => keeps_pure _
      exact hkeeps.achieves hgood nofun
  | delAttr n attr =>
      have hkeeps : (Call.delAttr n attr).perform.Keeps conduct r :=
        (n.obeys_delAttr attr looking).keeps.bind fun _ => keeps_pure _
      exact hkeeps.achieves hgood nofun
  | unregister r' name => exact absurd hmakes adds.not_unregister
  | teardown r' => exact absurd hmakes adds.not_teardown

end Imports

/-- Whether no name of a registry loses its node in any session of a host, and imports, loads and
registrations of one name yield one node, nested ones and enclosing ones alike. -/
def Conduct.Stable (conduct : Conduct) (r : RegistryId) : Prop :=
  ∀ {w moments w'}, w.KeyedByName r → Session conduct w moments w' →
    w'.KeyedByName r ∧ (w :: moments.map Moment.world ++ [w']).Pairwise (World.Grows r) ∧
      ∀ {name c₁ c₂ m₁ m₂ v₁ v₂}, c₁.Yields w r name → c₂.Yields w r name →
        .returned c₁ (.ok (.node m₁)) v₁ ∈ moments → .returned c₂ (.ok (.node m₂)) v₂ ∈ moments →
          m₁ = m₂

theorem World.Grows.yields {r r' : RegistryId} {w v : World} (h : w.Grows r v) {name : String}
    {call : Call} (hyields : call.Yields w r' name) : call.Yields v r' name := by
  cases call with
  | importName s name' => exact ⟨hyields.1, (h.resolverWorksOn_iff s).mpr hyields.2⟩
  | load i name' => exact ⟨hyields.1, (h.worksOn_iff (.hook i)).mpr hyields.2⟩
  | _ => exact hyields

section Stability

variable {conduct : Conduct} {r : RegistryId}

theorem stable_of_deniesQuietly (adds : conduct.AddsOnly) (quiet : conduct.DeniesQuietly r) :
    conduct.Stable r := by
  intro w moments w' hgood hsession
  obtain ⟨hkeyed, halong, hachieved⟩ := hsession.sound (identity_fulfilled adds quiet) hgood
  have hend : ∀ {name call m v}, call.Yields w r name →
      .returned call (.ok (.node m)) v ∈ moments → w'.lookup r name = some m := by
    intro name call m v hyields hmem
    have hbefore : w.Grows r v := halong.step_of_mem _ hmem
    have hafter : v.Grows r w' := halong.step_to_end _ hmem
    exact hafter.keeps (hachieved call _ v hmem name m (hbefore.yields hyields) rfl)
  refine ⟨hkeyed, halong.pairwise, fun h₁ h₂ hmem₁ hmem₂ => ?_⟩
  exact Option.some.inj ((hend h₁ hmem₁).symm.trans (hend h₂ hmem₂))

/-- A load that is denied for a name registered in the meantime puts a second node in the place of
the first. -/
theorem load_replaces {w v : World} {i : ImporterId} {name : String} {turn : List Moment}
    (hfree : w.lookup (w.importer i).registry name = none)
    (capable : conduct.answers (.loadsModules (w.importer i).enquirer) w true w)
    (hturn : Session conduct w turn v)
    (denied : conduct.answers (.isModule (w.importer i).enquirer name) w false v) :
    Bridge.Course conduct (i.load name) w
      (turn ++ [.wrote (v.addNode (w.packageOf i name)),
        .wrote (v.addRegistered (w.packageOf i name))])
      (.ok v.nextNode) (v.addRegistered (w.packageOf i name)) := by
  have hworld : Bridge.Course conduct Bridge.world w [] w w := .read (.pure w w)
  have hdenied : Bridge.Course conduct (Host.knowsModule (w.importer i).enquirer name) w turn
      false v := by
    rw [← List.append_nil turn, ← List.nil_append (turn ++ [])]
    exact .ask (.done w) capable (.ask hturn denied (.pure false v))
  refine hworld.bind ?_
  simp only [hfree]
  refine hdenied.bind (.read (.emit ?_))
  exact .read (.write (.read (.emit (.read (.write (.pure _ _))))))

theorem deniesQuietly_of_stable (loads : ∀ w i name, conduct.makes w (.load i name))
    (stable : conduct.Stable r) : conduct.DeniesQuietly r := by
  intro w i name turn v hgood hi hfree capable hturn denied
  obtain rfl := hi
  obtain ⟨hkeyed, -, -⟩ := stable hgood hturn
  have hload := load_replaces hfree capable hturn denied
  have hcall : Bridge.Course conduct (Call.load i name).perform w _ _ _ :=
    hload.bind (.pure _ _)
  obtain ⟨-, hpairwise, -⟩ := stable hgood (.call (loads w i name) hcall (.done _))
  have hgrows : (v.addNode (w.packageOf i name)).Grows (w.importer i).registry
      (v.addRegistered (w.packageOf i name)) := by
    refine (List.pairwise_append.mp hpairwise).2.2 _ ?_ _ (List.mem_singleton_self _)
    simp [Moment.world]
  cases hlookup : v.lookup (w.importer i).registry name with
  | none => rfl
  | some m =>
      have hreplaced : (v.addRegistered (w.packageOf i name)).lookup _ name = some m :=
        hgrows.keeps hlookup
      have hmade : (v.addRegistered (w.packageOf i name)).lookup _ name = some v.nextNode :=
        v.lookup_addRegistered_self (w.packageOf i name)
      obtain rfl := Option.some.inj (hmade.symm.trans hreplaced)
      exact absurd (hkeyed.lt_next hlookup) (Nat.lt_irrefl _)

/-- The names of a registry are stable if the host never registers a name in the course of denying
it to an importer of the registry; and only then, if the host may load. -/
theorem stable_iff_deniesQuietly (adds : conduct.AddsOnly)
    (loads : ∀ w i name, conduct.makes w (.load i name)) :
    conduct.Stable r ↔ conduct.DeniesQuietly r :=
  ⟨deniesQuietly_of_stable loads, stable_of_deniesQuietly adds⟩

end Stability

/-- The host that adds only and is bound by nothing else. -/
def Conduct.adding : Conduct where
  makes
    | w, .register r name _ => w.lookup r name = none
    | _, .unregister .. | _, .teardown _ => False
    | _, _ => True
  answers
    | .loadsModules _, w, _, v => v = w
    | _, _, _, _ => True

theorem addsOnly_adding : Conduct.adding.AddsOnly where
  register h := h
  not_unregister := id
  not_teardown := id
  capability h := h

/-- The same host, if it changes nothing in the course of denying a module. -/
def Conduct.addingQuietly : Conduct where
  makes := Conduct.adding.makes
  answers
    | .loadsModules _, w, _, v => v = w
    | .isModule .., w, false, v => v = w
    | _, _, _, _ => True

theorem addsOnly_addingQuietly : Conduct.addingQuietly.AddsOnly where
  register h := h
  not_unregister := id
  not_teardown := id
  capability h := h

theorem deniesQuietly_addingQuietly (r : RegistryId) : Conduct.addingQuietly.DeniesQuietly r := by
  intro w i name turn v _ _ hfree _ _ denied
  obtain rfl : v = w := denied
  exact hfree

theorem stable_iff_deniesQuietly_addingQuietly :
    (Conduct.addingQuietly.AddsOnly ∧ ∀ w i name, Conduct.addingQuietly.makes w (.load i name)) ∧
      Conduct.addingQuietly.Stable .processWide := by
  have loads : ∀ w i name, Conduct.addingQuietly.makes w (.load i name) := fun _ _ _ => trivial
  exact ⟨⟨addsOnly_addingQuietly, loads⟩,
    (stable_iff_deniesQuietly addsOnly_addingQuietly loads).mpr (deniesQuietly_addingQuietly _)⟩

/-- The start of a process with an importer over its registry. -/
def World.withImporter : World :=
  World.fresh.addImporter
    { registry := .processWide, enquirer := ⟨0⟩, classes := none, config := {} }

theorem registerForeign_course {conduct : Conduct} {name : String} (w : World) (r : RegistryId)
    (handle : ObjectId) (hname : (DottedName.parse name).isNone = false) :
    let node := Node.foreignBacked name r handle
    Bridge.Course conduct (r.registerForeign name handle) w
      [.wrote (w.addNode node), .wrote (w.addRegistered node)] (.ok w.nextNode)
      (w.addRegistered node) := by
  intro node
  simp only [RegistryId.registerForeign, hname, Bool.false_eq_true, if_false]
  exact .emit (.read (.write (.read (.emit (.read (.write (.pure _ _)))))))

/-- A host may do no more in a turn than register one module. -/
theorem exists_session_registering {conduct : Conduct} {w : World} {r : RegistryId} {name : String}
    {handle : ObjectId} (makes : conduct.makes w (.register r name handle))
    (hname : (DottedName.parse name).isNone = false) :
    ∃ moments, Session conduct w moments (w.addRegistered (.foreignBacked name r handle)) :=
  ⟨_, .call makes ((registerForeign_course w r handle hname).bind (.pure _ _)) (.done _)⟩

/-- The host registers `pkg` while it is asked whether `pkg` is a module, and says no. -/
theorem not_stable_adding : Conduct.adding.AddsOnly ∧ ¬Conduct.adding.Stable .processWide := by
  refine ⟨addsOnly_adding, fun stable => ?_⟩
  have makes : Conduct.adding.makes World.withImporter (.register .processWide "pkg" ⟨7⟩) := rfl
  have hi : (World.withImporter.importer ⟨0⟩).registry = .processWide := rfl
  have hfree : World.withImporter.lookup .processWide "pkg" = none := rfl
  have hkeyed : World.withImporter.KeyedByName .processWide := .of_empty fun _ => rfl
  obtain ⟨_, hturn⟩ := exists_session_registering makes (by decide)
  have habsent := deniesQuietly_of_stable (fun _ _ _ => trivial) stable hkeyed hi hfree rfl hturn
    trivial
  have hthere := World.withImporter.lookup_addRegistered_self
    (.foreignBacked "pkg" .processWide ⟨7⟩)
  cases habsent.symm.trans hthere

end ForeignNamespace
