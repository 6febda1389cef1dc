import ForeignNamespace.Proofs.Footprints
import ForeignNamespace.Proofs.ImportByPrefix

/-!
No module is loaded twice.

Two operations load modules, each for a name that it has just looked up in vain, and both register
what they have loaded.  As long as nothing is taken out of the registry, a name that was loaded once
is therefore never loaded again, however the operations on nodes, importers and resolvers over one
registry follow each other.
-/

namespace ForeignNamespace

/-- Whether every node is still there, every registered name is still registered, and importers and
resolvers are the same. -/
structure World.Extends (r : RegistryId) (w v : World) : Prop where
  evolves : w.Evolves v
  registered : ∀ {name}, (w.lookup r name).isSome → (v.lookup r name).isSome
  importers : v.importers = w.importers
  resolvers : v.resolvers = w.resolvers

namespace World.Extends

variable {r : RegistryId} {u v w : World}

theorem refl (r : RegistryId) (w : World) : w.Extends r w := ⟨.refl w, id, rfl, rfl⟩

theorem trans (first : u.Extends r v) (second : v.Extends r w) : u.Extends r w where
  evolves := first.evolves.trans second.evolves
  registered h := second.registered (first.registered h)
  importers := second.importers.trans first.importers
  resolvers := second.resolvers.trans first.resolvers

theorem absent {name : String} (h : w.Extends r v) (habsent : v.lookup r name = none) :
    w.lookup r name = none := by
  cases hlookup : w.lookup r name with
  | none => rfl
  | some m =>
      have hthere := h.registered (Option.isSome_of_eq_some hlookup)
      rw [habsent] at hthere
      cases hthere

end World.Extends

theorem World.extends_register (w : World) (r r' : RegistryId) (name : String) (n : NodeId) :
    w.Extends r (w.register r' name n) where
  evolves := .of_nodes rfl
  registered h := by
    rw [World.lookup_register]
    split
    · rfl
    · exact h
  importers := rfl
  resolvers := rfl

/-- The rule of what loads no module and takes nothing out of a registry. -/
def Rule.loadless (r : RegistryId) : Rule where
  asks question := question.isLoad = false
  reports _ := True
  writes w v := w.Extends r v

theorem Rule.allowsLooking_loadless (r : RegistryId) : (Rule.loadless r).AllowsLooking where
  bind w n _ _ := ⟨w.evolves_updateNode n fun _ => ⟨rfl, rfl, rfl⟩, id, rfl, rfl⟩
  unbind w n _ := ⟨w.evolves_updateNode n fun _ => ⟨rfl, rfl, rfl⟩, id, rfl, rfl⟩
  asks _ h := h
  reports _ _ := trivial

theorem Rule.allowsMaking_loadless (r : RegistryId) : (Rule.loadless r).AllowsMaking where
  bridge w _ _ _ _ := ⟨w.evolves_addNode _, id, rfl, rfl⟩
  backed w _ _ _ := ⟨w.evolves_addNode _, id, rfl, rfl⟩
  register w r' name n := w.extends_register r r' name n
  link w n _ _ := ⟨w.evolves_link n _ _, id, rfl, rfl⟩
  reports _ _ := trivial

/-- The rule of what writes nothing and loads no module. -/
def Rule.still : Rule where
  asks question := question.isLoad = false
  reports _ := True
  writes _ _ := False

/-- The name of a module whose load has succeeded. -/
def Load.loaded? (load : Load) : Option String :=
  match load.answer with
  | .ok _ => some load.name
  | .error _ => none

/-- The names of the modules that are loaded by deeds. -/
def loaded (deeds : List Deed) : List String := (loads deeds).filterMap Load.loaded?

@[simp] theorem loaded_append (front back : List Deed) :
    loaded (front ++ back) = loaded front ++ loaded back := by
  rw [loaded, loads_append, List.filterMap_append]
  rfl

theorem exists_load_of_loaded {deeds : List Deed} {name : String} (h : name ∈ loaded deeds) :
    ∃ load ∈ loads deeds, load.name = name := by
  obtain ⟨load, hload, hname⟩ := List.mem_filterMap.mp h
  refine ⟨load, hload, ?_⟩
  rw [Load.loaded?] at hname
  split at hname
  · exact Option.some.inj hname
  · cases hname

/-- Whether deeds load modules only whose names are free, no module twice, and leave every name that
was loaded registered. -/
structure Careful (r : RegistryId) (w : World) (deeds : List Deed) (v : World) : Prop where
  grows : w.Extends r v
  since : ∀ load ∈ loads deeds, w.Extends r load.world
  free : ∀ load ∈ loads deeds, load.world.lookup r load.name = none
  kept : ∀ name ∈ loaded deeds, (v.lookup r name).isSome
  once : (loaded deeds).Nodup

namespace Careful

variable {r : RegistryId} {u v w : World} {front back deeds : List Deed}

theorem of_loads_eq_nil (grows : w.Extends r v) (h : loads deeds = []) : Careful r w deeds v where
  grows
  since := by simp [h]
  free := by simp [h]
  kept := by simp [loaded, h]
  once := by simp [loaded, h]

theorem of_loads_eq_singleton {load : Load} (h : loads deeds = [load]) (grows : w.Extends r v)
    (since : w.Extends r load.world) (free : load.world.lookup r load.name = none)
    (kept : ∀ handle, load.answer = .ok handle → (v.lookup r load.name).isSome) :
    Careful r w deeds v where
  grows
  since := by simpa [h] using since
  free := by simpa [h] using free
  kept name hname := by
    rw [loaded, h, List.mem_filterMap] at hname
    obtain ⟨other, hother, hname⟩ := hname
    obtain rfl := List.mem_singleton.mp hother
    rw [Load.loaded?] at hname
    split at hname
    · rename_i handle hanswer
      obtain rfl := Option.some.inj hname
      exact kept handle hanswer
    · cases hname
  once := by
    rw [loaded, h, List.filterMap_cons]
    split
    · exact List.nodup_nil
    · exact List.pairwise_singleton _ _

theorem append (first : Careful r u front v) (second : Careful r v back w) :
    Careful r u (front ++ back) w where
  grows := first.grows.trans second.grows
  since load hload := by
    rw [loads_append] at hload
    rcases List.mem_append.mp hload with hload | hload
    · exact first.since load hload
    · exact first.grows.trans (second.since load hload)
  free load hload := by
    rw [loads_append] at hload
    exact (List.mem_append.mp hload).elim (first.free load) (second.free load)
  kept name hname := by
    rw [loaded_append] at hname
    rcases List.mem_append.mp hname with hname | hname
    · exact second.grows.registered (first.kept name hname)
    · exact second.kept name hname
  once := by
    rw [loaded_append]
    refine List.nodup_append.mpr ⟨first.once, second.once, ?_⟩
    rintro name hfront _ hback rfl
    -- What is loaded in the end was free until then, and what was loaded before was not.
    obtain ⟨load, hload, rfl⟩ := exists_load_of_loaded hback
    have habsent := (second.since load hload).absent (second.free load hload)
    have hthere := first.kept _ hfront
    rw [habsent] at hthere
    cases hthere

end Careful

namespace Bridge

variable {α β : Type} {r : RegistryId} {w : World}

/-- Whether a computation loads with care, if the host does nothing but answer, and ends with the
error of a load that has failed, and with the name of the module free. -/
def Prudent (r : RegistryId) (fails : ForeignError → α → Prop) (p : Bridge α) (w : World) : Prop :=
  ∀ deeds a v, p.Does .quiet w deeds a v → Careful r w deeds v ∧
    ∀ load ∈ loads deeds, ∀ error, load.answer = .error error →
      fails error a ∧ v.lookup r load.name = none

variable {fails : ForeignError → α → Prop} {fails' : ForeignError → β → Prop}

theorem Does.extends_of_loadless {p : Bridge α} {deeds : List Deed} {a : α} {v : World}
    (h : p.Does .quiet w deeds a v) (hp : p.ObeysFrom (.loadless r) w) :
    w.Extends r v ∧ loads deeds = [] := by
  refine ⟨?_, h.loads_eq_nil hp fun _ _ hload => Bool.noConfusion hload⟩
  refine h.related (World.Extends r) (.refl r) .trans id ?_ hp
  rintro _ w _ v hturn
  obtain rfl : v = w := hturn
  exact .refl r v

theorem ObeysFrom.prudent {p : Bridge α} (hp : p.ObeysFrom (.loadless r) w) :
    p.Prudent r fails w := by
  intro deeds a v h
  obtain ⟨hgrows, hnone⟩ := h.extends_of_loadless hp
  exact ⟨.of_loads_eq_nil hgrows hnone, by simp [hnone]⟩

theorem Obeys.prudent {p : Bridge α} (hp : p.Obeys (.loadless r)) : p.Prudent r fails w :=
  (hp w).prudent

theorem prudent_pure (a : α) : (Pure.pure a : Bridge α).Prudent r fails w := (obeys_pure a).prudent

theorem prudent_world_bind_iff {f : World → Bridge α} :
    (Bridge.world >>= f).Prudent r fails w ↔ (f w).Prudent r fails w :=
  Iff.rfl

theorem prudent_contains_bind_iff {r' : RegistryId} {name : String} {f : Bool → Bridge α} :
    (r'.contains name >>= f).Prudent r fails w ↔ (f (w.lookup r' name).isSome).Prudent r fails w :=
  Iff.rfl

theorem prudent_lookup_bind_iff {s : ResolverId} {name : String} {f : Option NodeId → Bridge α} :
    (s.lookup name >>= f).Prudent r fails w ↔
      (f (w.lookup (w.resolver s).registry name)).Prudent r fails w :=
  Iff.rfl

/-- If a failed load ends the whole, the rest is only to be prudent where none has failed. -/
theorem Prudent.bind {p : Bridge α} {f : α → Bridge β} (hp : p.Prudent r fails w)
    (hf : ∀ a v, w.Extends r v → (∀ error, ¬fails error a) → (f a).Prudent r fails' v)
    (ends : ∀ error a, fails error a → ∃ b, f a = Pure.pure b ∧ fails' error b) :
    (p >>= f).Prudent r fails' w := by
  intro deeds b v h
  obtain ⟨front, back, a, u, rfl, hfront, hback⟩ := does_bind_iff.mp h
  obtain ⟨hcareful, hfailed⟩ := hp front a u hfront
  by_cases hend : ∃ error, fails error a
  · obtain ⟨error, herror⟩ := hend
    obtain ⟨b, hb, -⟩ := ends error a herror
    rw [hb] at hback
    obtain ⟨rfl, rfl, rfl⟩ := hback
    rw [List.append_nil]
    refine ⟨hcareful, fun load hload error' herror' => ?_⟩
    obtain ⟨hfails, hfree⟩ := hfailed load hload error' herror'
    obtain ⟨b', hb', hfails'⟩ := ends error' a hfails
    obtain rfl : b = b' := Bridge.pure.inj (hb.symm.trans hb')
    exact ⟨hfails', hfree⟩
  · have hgoes : ∀ error, ¬fails error a := fun error herror => hend ⟨error, herror⟩
    obtain ⟨hcareful', hfailed'⟩ := hf a u hcareful.grows hgoes back b v hback
    refine ⟨hcareful.append hcareful', fun load hload error herror => ?_⟩
    rw [loads_append] at hload
    rcases List.mem_append.mp hload with hload | hload
    · exact absurd (hfailed load hload error herror).1 (hgoes error)
    · exact hfailed' load hload error herror

theorem Obeys.bind_prudent {p : Bridge α} {f : α → Bridge β} (hp : p.Obeys (.loadless r))
    (hf : ∀ a v, w.Extends r v → (f a).Prudent r fails' v) : (p >>= f).Prudent r fails' w := by
  have hprudent : p.Prudent r (fun _ _ => False) w := hp.prudent
  exact hprudent.bind (fun a v hv _ => hf a v hv) fun _ _ h => h.elim

theorem bind_prudent_of_still {p : Bridge α} {f : α → Bridge β}
    (hp : p.Obeys .still) (hf : ∀ a, (f a).Prudent r fails' w) : (p >>= f).Prudent r fails' w := by
  intro deeds b v h
  obtain ⟨front, back, a, u, rfl, hfront, hback⟩ := does_bind_iff.mp h
  have hnone : loads front = [] :=
    hfront.loads_eq_nil (hp w) fun _ _ hload => Bool.noConfusion hload
  obtain rfl : u = w :=
    hfront.related (fun w v => v = w) (fun _ => rfl) (fun h h' => h'.trans h) False.elim id (hp w)
  obtain ⟨hcareful, hfailed⟩ := hf a back b v hback
  refine ⟨(Careful.of_loads_eq_nil (.refl r u) hnone).append hcareful, ?_⟩
  rw [loads_append, hnone]
  exact hfailed

theorem Prudent.holding {h : Handle} {body : Bridge α} (hbody : body.Prudent r fails (w.hold h)) :
    (Bridge.holding h body).Prudent r fails w := by
  intro deeds a v hdoes
  obtain ⟨inner, u, rfl, hinner, rfl⟩ := does_holding_iff.mp hdoes
  obtain ⟨hcareful, hfailed⟩ := hbody inner a u hinner
  have hheld : Careful r w [.wrote w (w.hold h)] (w.hold h) :=
    .of_loads_eq_nil ⟨.of_nodes rfl, id, rfl, rfl⟩ rfl
  have hreleased : Careful r u [.wrote u (u.release h)] (u.release h) :=
    .of_loads_eq_nil ⟨.of_nodes rfl, id, rfl, rfl⟩ rfl
  have hloads : loads (.wrote w (w.hold h) :: (inner ++ [.wrote u (u.release h)])) =
      loads inner := by simp
  refine ⟨hheld.append (hcareful.append hreleased), ?_⟩
  rw [hloads]
  exact hfailed

/-- A load of a free name, in front of what registers the module and loads nothing. -/
theorem prudent_loadModule_bind {e : EnquirerId} {name : String}
    {f : Except ForeignError ObjectId → Bridge α} (hfree : w.lookup r name = none)
    (ends : ∀ error, ∃ a, f (.error error) = Pure.pure a ∧ fails error a)
    (loadless : ∀ handle, (f (.ok handle)).ObeysFrom (.loadless r) w)
    (registers : ∀ handle deeds a v, (f (.ok handle)).Does .quiet w deeds a v →
      (v.lookup r name).isSome) :
    (Host.loadModule e name >>= f).Prudent r fails w := by
  intro deeds a v h
  obtain ⟨answer, u, rest, hturn, rfl, hrest⟩ := does_ask_bind_iff.mp h
  obtain rfl : u = w := hturn
  cases answer with
  | error error =>
      obtain ⟨b, hb, hfails⟩ := ends error
      replace hrest : (f (.error error)).Does .quiet u rest a v := hrest
      rw [hb] at hrest
      obtain ⟨rfl, rfl, rfl⟩ := hrest
      have hloads : loads [.asked (.loadModule e name) v (.error error) v] =
          [⟨v, name, .error error⟩] := rfl
      refine ⟨.of_loads_eq_singleton hloads (.refl r v) (.refl r v) hfree nofun, ?_⟩
      intro load hload error' herror'
      rw [hloads, List.mem_singleton] at hload
      subst hload
      obtain rfl := Except.error.inj herror'
      exact ⟨hfails, hfree⟩
  | ok handle =>
      obtain ⟨hgrows, hnone⟩ := hrest.extends_of_loadless (loadless handle)
      have hthere := registers handle rest a v hrest
      have hloads : loads (.asked (.loadModule e name) u (.ok handle) u :: rest) =
          [⟨u, name, .ok handle⟩] := by
        change (⟨u, name, .ok handle⟩ : Load) :: loads rest = _
        rw [hnone]
      refine ⟨.of_loads_eq_singleton hloads hgrows (.refl r u) hfree fun _ _ => hthere, ?_⟩
      intro load hload error herror
      rw [hloads, List.mem_singleton] at hload
      subst hload
      cases herror

end Bridge

/-- Whether an operation has ended with the error of a load. -/
def Raises {β : Type} (error : ForeignError) (result : Except ImportError β) : Prop :=
  result = .error (.foreign error)

def NodeId.On (n : NodeId) (r : RegistryId) (w : World) : Prop :=
  n.index < w.nodes.next ∧ (w.node n).registry = r

/-- Whether a finder makes no nodes on other registries. -/
def Finder.On (r : RegistryId) (w : World) : Finder → Prop
  | .hook i => (w.importer i).registry = r
  | .host .. => True

/-- Whether a resolver and its finders share a registry. -/
def ResolverId.On (s : ResolverId) (r : RegistryId) (w : World) : Prop :=
  (w.resolver s).registry = r ∧ ∀ f ∈ (w.resolver s).metaPath, f.On r w

namespace World.Extends

variable {r : RegistryId} {w v : World} (h : w.Extends r v)

include h

theorem nodeOn {n : NodeId} (hn : n.On r w) : n.On r v :=
  ⟨Nat.lt_of_lt_of_le hn.1 h.evolves.next, (h.evolves.registry hn.1).trans hn.2⟩

theorem finderOn {f : Finder} (hf : f.On r w) : f.On r v := by
  cases f with
  | hook i =>
      rw [Finder.On, World.importer, h.importers]
      exact hf
  | host f keeps => trivial

theorem resolverOn {s : ResolverId} (hs : s.On r w) : s.On r v := by
  have hresolver : v.resolver s = w.resolver s := by
    rw [World.resolver, World.resolver, h.resolvers]
  rw [ResolverId.On, hresolver]
  exact ⟨hs.1, fun f hf => h.finderOn (hs.2 f hf)⟩

end World.Extends

section Operations

open Bridge

variable {r : RegistryId} {w : World}

/-- An operation that passes on the error of a load. -/
theorem Bridge.Prudent.andThen {α β : Type} {p : Bridge (Except ImportError α)}
    {f : Except ImportError α → Bridge (Except ImportError β)} (hp : p.Prudent r Raises w)
    (passes : ∀ error, f (.error (.foreign error)) = Pure.pure (.error (.foreign error)))
    (hf : ∀ reply v, w.Extends r v → (f reply).Prudent r Raises v) :
    (p >>= f).Prudent r Raises w := by
  refine hp.bind (fun reply v hv _ => hf reply v hv) ?_
  rintro error _ rfl
  exact ⟨_, passes _, rfl⟩

theorem registered_makeForeign {name : String} {handle : ObjectId} {deeds : List Deed} {n : NodeId}
    {v : World} (h : (r.makeForeign name handle).Does .quiet w deeds n v) :
    v.lookup r name = some n := by
  obtain ⟨-, rfl, rfl⟩ := makeForeign_does h
  exact w.lookup_addRegistered_self (.foreignBacked name r handle)

theorem prudent_ensureLoaded (e : EnquirerId) (name : String) :
    (NodeId.ensureLoaded r e name).Prudent r (fun error result => result = .error error) w := by
  apply prudent_contains_bind_iff.mpr
  split
  · exact prudent_pure _
  · rename_i habsent
    have hfree : w.lookup r name = none := by simpa using habsent
    refine prudent_loadModule_bind hfree (fun error => ⟨.error error, rfl, rfl⟩) ?_ ?_
    · intro handle
      refine ((obeys_world.bind fun w => obeys_pure _).bind fun there => ?_) w
      split
      · refine (r.obeys_makeForeign name (Rule.allowsMaking_loadless r) handle).bind fun _ => ?_
        exact obeys_pure _
      · exact obeys_pure _
    · intro handle deeds result v h
      replace h := does_contains_bind_iff.mp h
      rw [hfree] at h
      obtain ⟨_, _, n, _, -, hmade, -, -, rfl⟩ := does_bind_iff.mp h
      rw [registered_makeForeign hmade]
      rfl

theorem prudent_foreignModule {n : NodeId} (hn : n.On r w) (attr : String) :
    (n.foreignModule attr).Prudent r Raises w := by
  apply prudent_world_bind_iff.mpr
  dsimp only
  split
  · exact prudent_pure _
  · rename_i e _
    have hknows : (Host.knowsModule e (childName (w.node n).name attr)).Obeys .still :=
      Host.obeys_knowsModule (fun _ h => h) e _
    refine bind_prudent_of_still hknows fun known => ?_
    split
    · apply prudent_world_bind_iff.mpr
      split
      · exact prudent_pure _
      · rename_i r' hr'
        obtain rfl : r = r' := hn.2.symm.trans (World.registry_of_registryOf hr')
        refine Prudent.holding ((prudent_ensureLoaded e _).bind ?_ ?_)
        · intro loaded v _ hgoes
          split
          · exact absurd rfl (hgoes _)
          · have keeping := (Rule.allowsLooking_loadless r).allowsKeeping n attr
            have hadopt := n.obeys_adopt attr (childName (w.node n).name attr) keeping
              (Rule.allowsMaking_loadless r) r e
            exact (hadopt.bind fun _ => obeys_pure _).prudent
        · rintro error _ rfl
          exact ⟨_, rfl, rfl⟩
    · exact prudent_pure _

theorem prudent_apply {n : NodeId} (hn : n.On r w) (attr : String) (strategy : Strategy) :
    (strategy.apply n attr).Prudent r Raises w := by
  have looking := Rule.allowsLooking_loadless r
  by_cases hmodule : strategy = .foreignModule
  · subst hmodule
    exact prudent_foreignModule hn attr
  by_cases hpackage : strategy = .subPackage
  · subst hpackage
    have hobeys := n.obeys_subPackage attr (looking.allowsKeeping n attr)
      (Rule.allowsMaking_loadless r)
    exact (hobeys.bind fun _ => obeys_pure _).prudent
  exact (n.obeys_apply_of_looking attr looking ⟨hmodule, hpackage⟩).prudent

theorem prudent_resolveBy {n : NodeId} (hn : n.On r w) (attr : String)
    (strategies : List Strategy) : (n.resolveBy attr strategies).Prudent r Raises w := by
  have looking := Rule.allowsLooking_loadless r
  induction strategies generalizing w with
  | nil =>
      refine Obeys.prudent (obeys_world.bind fun v => ?_)
      exact (obeys_report (looking.reports _ rfl)).bind fun _ => obeys_pure _
  | cons strategy others ih =>
      refine (prudent_apply hn attr strategy).andThen (fun _ => rfl) fun reply v hv => ?_
      split
      · split
        · refine Obeys.prudent (obeys_world.bind fun v => ?_)
          exact (obeys_report trivial).bind fun _ => obeys_pure _
        · exact prudent_pure _
      · exact ih (hv.nodeOn hn)
      · split
        · refine obeys_world.bind_prudent fun u u' hu => ?_
          refine (obeys_report (looking.reports _ rfl)).bind_prudent fun _ v' hv' => ?_
          exact ih (hv'.nodeOn (hu.nodeOn (hv.nodeOn hn)))
        · exact prudent_pure _

theorem prudent_getAttr {n : NodeId} (hn : n.On r w) (attr : String) :
    (n.getAttr attr).Prudent r Raises w :=
  prudent_resolveBy hn attr Strategy.chain

theorem prudent_hasAttr {n : NodeId} (hn : n.On r w) (attr : String) :
    (n.hasAttr attr).Prudent r Raises w := by
  refine (prudent_getAttr hn attr).andThen (fun _ => rfl) fun reply v _ => ?_
  split
  · exact prudent_pure _
  · exact prudent_pure _

theorem prudent_load {i : ImporterId} (hi : (w.importer i).registry = r) (name : String) :
    (i.load name).Prudent r Raises w := by
  have looking := Rule.allowsLooking_loadless r
  have making := Rule.allowsMaking_loadless r
  apply prudent_world_bind_iff.mpr
  dsimp only
  rw [hi]
  split
  · exact ((i.obeys_decide looking.toAllowsTelling name _).bind fun _ => obeys_pure _).prudent
  · rename_i hfree
    -- Nothing is written between the lookup and the load, so the name is still free there.
    have hknows : (Host.knowsModule (w.importer i).enquirer name).Obeys .still :=
      Host.obeys_knowsModule (fun _ h => h) _ name
    refine bind_prudent_of_still hknows fun known => ?_
    split
    · have hdecide : (i.decide name .loadingModule).Obeys .still :=
        obeys_world.bind fun _ => obeys_report trivial
      refine bind_prudent_of_still hdecide fun _ => ?_
      refine prudent_loadModule_bind hfree (fun error => ⟨_, rfl, rfl⟩) ?_ ?_
      · exact fun handle => r.obeys_settle name making handle _ _ w
      · intro handle deeds result v h
        replace h := does_get_bind_iff.mp h
        rw [hfree] at h
        obtain ⟨_, _, n, u, -, hmade, hpatched⟩ := does_bind_iff.mp h
        obtain ⟨_, _, _, _, -, hpatch, -, -, rfl⟩ := does_bind_iff.mp hpatched
        have hobeys := r.obeys_patch making n (some i) (some (w.importer i).enquirer)
        have hgrows := (hpatch.extends_of_loadless (hobeys u)).1
        exact hgrows.registered (Option.isSome_of_eq_some (registered_makeForeign hmade))
    · refine Obeys.prudent ((i.obeys_decide looking.toAllowsTelling name _).bind fun _ => ?_)
      exact (r.obeys_makeLoaded name making _ _).bind fun _ => obeys_pure _

theorem prudent_finderLoad {f : Finder} (hf : f.On r w) (name : String) :
    (f.load name).Prudent r Raises w := by
  cases f with
  | hook i => exact prudent_load hf name
  | host f keeps =>
      have hobeys : (Host.finderLoads f name).Obeys (.loadless r) :=
        obeys_ask ((Rule.allowsLooking_loadless r).asks (.finderLoads f name) rfl)
      exact hobeys.prudent

theorem prudent_importBy (s : ResolverId) (name : String) {finders : List Finder}
    (hfinders : ∀ f ∈ finders, f.On r w) : (s.importBy name finders).Prudent r Raises w := by
  have looking := Rule.allowsLooking_loadless r
  induction finders generalizing w with
  | nil =>
      refine Obeys.prudent ((obeys_report (looking.reports _ rfl)).bind fun _ => ?_)
      exact obeys_pure _
  | cons f others ih =>
      refine (f.obeys_claims looking.toAllowsTelling name).bind_prudent fun claimed v hv => ?_
      split
      · have hload := prudent_finderLoad (hv.finderOn (hfinders f (by simp))) name
        refine hload.andThen (fun _ => rfl) fun reply u _ => ?_
        split
        · exact prudent_pure _
        · exact ((s.obeys_bindOnParent looking.submodule name _).bind fun _ => obeys_pure _).prudent
      · exact ih fun g hg => hv.finderOn (hfinders g (by simp [hg]))

theorem prudent_importOne {s : ResolverId} (hs : s.On r w) (name : String) :
    (s.importOne name).Prudent r Raises w := by
  apply prudent_lookup_bind_iff.mpr
  split
  · exact prudent_pure _
  · apply prudent_world_bind_iff.mpr
    exact prudent_importBy s name hs.2

theorem prudent_importAll {s : ResolverId} (hs : s.On r w) (last : String) (names : List String) :
    (s.importAll last names).Prudent r Raises w := by
  induction names generalizing w with
  | nil => exact prudent_importOne hs last
  | cons first names ih =>
      refine (prudent_importOne hs first).andThen (fun _ => rfl) fun reply v hv => ?_
      split
      · exact prudent_pure _
      · exact ih (hv.resolverOn hs)

theorem prudent_importName {s : ResolverId} (hs : s.On r w) (name : String) :
    (s.importName name).Prudent r Raises w := by
  apply prudent_lookup_bind_iff.mpr
  split
  · exact prudent_pure _
  · split
    · exact prudent_pure _
    · exact prudent_importAll hs _ _

theorem prudent_importFrom {s : ResolverId} {n : NodeId} (hs : s.On r w) (hn : n.On r w)
    (name : String) : (s.importFrom n name).Prudent r Raises w := by
  refine (prudent_getAttr hn name).andThen (fun _ => rfl) fun reply v hv => ?_
  split
  · exact prudent_pure _
  · split
    · apply prudent_world_bind_iff.mpr
      refine (prudent_importName (hv.resolverOn hs) _).andThen (fun _ => rfl) fun reply u _ => ?_
      split
      · exact prudent_pure _
      · exact prudent_pure _
    · exact prudent_pure _

theorem prudent_importEach {s : ResolverId} {n : NodeId} (hs : s.On r w) (hn : n.On r w)
    (names : List String) : (s.importEach n names).Prudent r Raises w := by
  induction names generalizing w with
  | nil => exact prudent_pure _
  | cons name names ih =>
      refine (prudent_importFrom hs hn name).andThen (fun _ => rfl) fun reply v hv => ?_
      split
      · exact prudent_pure _
      · have hrest := ih (hv.resolverOn hs) (hv.nodeOn hn)
        refine hrest.andThen (fun _ => rfl) fun rest u _ => ?_
        split
        · exact prudent_pure _
        · exact prudent_pure _

theorem prudent_importStar {s : ResolverId} {n : NodeId} (hs : s.On r w) (hn : n.On r w) :
    (s.importStar n).Prudent r Raises w := by
  apply prudent_world_bind_iff.mpr
  refine (prudent_getAttr hn _).andThen (fun _ => rfl) fun reply v hv => ?_
  split
  · exact prudent_pure _
  · split
    · exact prudent_pure _
    · exact prudent_importEach (hv.resolverOn hs) (hv.nodeOn hn) _

theorem Bridge.Prudent.map {α β : Type} {p : Bridge (Except ImportError α)} {f : α → β}
    (hp : p.Prudent r Raises w) :
    (do return (← p).map f : Bridge (Except ImportError β)).Prudent r Raises w :=
  hp.andThen (fun _ => rfl) fun _ _ _ => prudent_pure _

end Operations

/-- An operation: a call, or the question whether a node has an attribute. -/
inductive Access where
  | call (c : Call)
  | hasAttr (n : NodeId) (attr : String)

def Access.perform : Access → Bridge (Except ImportError Value)
  | .call c => c.perform
  | .hasAttr n attr => return (← n.hasAttr attr).map .bool

/-- Whether an operation works on one registry and takes nothing out of it. -/
def Access.On (r : RegistryId) (w : World) : Access → Prop
  | .call (.importName s _) => s.On r w
  | .call (.importFrom s n _) | .call (.importStar s n) => s.On r w ∧ n.On r w
  | .call (.load i _) => (w.importer i).registry = r
  | .call (.getAttr n _) | .call (.setAttr n _ _) | .call (.delAttr n _) => n.On r w
  | .call (.register r' _ _) => r' = r
  | .call (.unregister ..) | .call (.teardown _) => False
  | .hasAttr n _ => n.On r w

theorem Access.prudent_perform {r : RegistryId} {w : World} {access : Access} (h : access.On r w) :
    access.perform.Prudent r Raises w := by
  have looking := Rule.allowsLooking_loadless r
  cases access with
  | hasAttr n attr => exact (prudent_hasAttr h attr).map
  | call call =>
      cases call with
      | importName s name => exact (prudent_importName h name).map
      | importFrom s n name =>
          rw [Access.perform, Call.perform_importFrom]
          exact prudent_importFrom h.1 h.2 name
      | importStar s n => exact (prudent_importStar h.1 h.2).map
      | load i name => exact (prudent_load h name).map
      | getAttr n attr =>
          rw [Access.perform, Call.perform_getAttr]
          exact prudent_getAttr h attr
      | setAttr n attr value => exact ((n.obeys_setAttr attr looking value).map _).prudent
      | delAttr n attr => exact ((n.obeys_delAttr attr looking).map _).prudent
      | register r' name handle =>
          have hobeys := r'.obeys_registerForeign name (Rule.allowsMaking_loadless r) handle
          exact (hobeys.map _).prudent
      | unregister r' name => exact h.elim
      | teardown r' => exact h.elim

/-- One operation in a run, with what it did, its result and the world it left. -/
structure Episode where
  access : Access
  deeds : List Deed
  result : Except ImportError Value
  world : World

/-- The runs of operations on one registry, against a host that does nothing but answer. -/
inductive Usage (r : RegistryId) : World → List Episode → World → Prop
  | nil (w : World) : Usage r w [] w
  | cons {episode : Episode} {episodes : List Episode} {w w' : World} (on : episode.access.On r w)
      (does : episode.access.perform.Does .quiet w episode.deeds episode.result episode.world)
      (rest : Usage r episode.world episodes w') : Usage r w (episode :: episodes) w'

namespace Usage

variable {r : RegistryId} {w w' : World} {episodes : List Episode}

theorem careful (h : Usage r w episodes w') : Careful r w (episodes.flatMap Episode.deeds) w' := by
  induction h with
  | nil w => exact .of_loads_eq_nil (.refl r w) rfl
  | cons on does _ ih => exact (Access.prudent_perform on _ _ _ does).1.append ih

/-- In a run of any length, no module is loaded while its name is registered, none is loaded twice,
and an operation whose load fails ends with the error and with the name free. -/
theorem loads_once (h : Usage r w episodes w') :
    (∀ load ∈ loads (episodes.flatMap Episode.deeds), load.world.lookup r load.name = none) ∧
      (loaded (episodes.flatMap Episode.deeds)).Nodup ∧
      ∀ episode ∈ episodes, ∀ load ∈ loads episode.deeds, ∀ error, load.answer = .error error →
        episode.result = .error (.foreign error) ∧
          episode.world.lookup r load.name = none := by
  refine ⟨h.careful.free, h.careful.once, ?_⟩
  induction h with
  | nil w => simp
  | cons on does _ ih =>
      intro episode hepisode
      rcases List.mem_cons.mp hepisode with rfl | hepisode
      · exact (Access.prudent_perform on _ _ _ does).2
      · exact ih episode hepisode

theorem cons_run (host : FixedHost) {access : Access} (on : access.On r w)
    (rest : Usage r (access.perform.run host w).world episodes w') :
    ∃ episode, episode.access = access ∧ episode.result = (access.perform.run host w).result ∧
      Usage r w (episode :: episodes) w' := by
  obtain ⟨deeds, hdoes⟩ := Bridge.exists_does_run host access.perform w
  have hquiet : access.perform.Does .quiet w deeds _ _ := hdoes.mono fun h => h.2
  exact ⟨⟨access, deeds, _, _⟩, rfl, rfl, .cons on hquiet rest⟩

/-- A module is imported, loaded by its importer and asked for an attribute. -/
theorem loads_once_mod :
    let imports : Access := .call (.importName .processWide "mod")
    let reloads : Access := .call (.load ⟨0⟩ "mod")
    let asks : Access := .hasAttr ⟨0⟩ "x"
    ∃ episodes w', episodes.map Episode.access = [imports, reloads, asks] ∧
      Usage .processWide World.withHook episodes w' ∧
      (∀ load ∈ loads (episodes.flatMap Episode.deeds),
        load.world.lookup .processWide load.name = none) ∧
      (loaded (episodes.flatMap Episode.deeds)).Nodup ∧
      ∀ episode ∈ episodes, ∀ load ∈ loads episode.deeds, ∀ error, load.answer = .error error →
        episode.result = .error (.foreign error) ∧
          episode.world.lookup .processWide load.name = none := by
  intro imports reloads asks
  let host := FixedHost.knowing "mod" ⟨7⟩
  let v := (imports.perform.run host .withHook).world
  let u := (reloads.perform.run host v).world
  have hasks : asks.On .processWide u := by
    refine ⟨?_, ?_⟩
    · decide +kernel
    · decide +kernel
  have hloads : reloads.On .processWide v := by
    change (v.importer ⟨0⟩).registry = .processWide
    decide +kernel
  have only : (World.withHook.resolver .processWide).metaPath = [.hook ⟨0⟩] := by decide
  have himports : imports.On .processWide World.withHook := by
    refine ⟨by decide, fun f hf => ?_⟩
    rw [only] at hf
    obtain rfl := List.mem_singleton.mp hf
    change (World.withHook.importer ⟨0⟩).registry = .processWide
    decide
  obtain ⟨third, hthird, -, rest⟩ := cons_run host hasks (.nil _)
  obtain ⟨second, hsecond, -, rest⟩ := cons_run host hloads rest
  obtain ⟨first, hfirst, -, rest⟩ := cons_run host himports rest
  refine ⟨[first, second, third], _, ?_, rest, loads_once rest⟩
  simp [hfirst, hsecond, hthird]

end Usage

end ForeignNamespace
