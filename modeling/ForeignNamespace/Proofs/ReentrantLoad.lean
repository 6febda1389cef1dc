import ForeignNamespace.Proofs.AttributeWalk
import ForeignNamespace.Proofs.ReactingRuns
import ForeignNamespace.Proofs.Reentrancy

namespace ForeignNamespace

namespace Call

def performAll : List Call → Bridge (List (Except ImportError Value))
  | [] => return []
  | call :: calls => do
    let result ← call.perform
    return result :: (← performAll calls)

end Call

/-- A load of a module, which is a child of a node, in which the host registers the module with a
handle, then makes calls and at last returns a handle as its answer. -/
structure Reentry where
  resolver : ResolverId
  importer : ImporterId
  registry : RegistryId
  enquirer : EnquirerId
  parent : NodeId
  attr : String
  name : String
  handle : ObjectId
  calls : List Call
  answer : ObjectId

namespace Reentry

/-- The calls that ask for the module. -/
inductive Asks (t : Reentry) : Call → Prop
  | importName : t.Asks (.importName t.resolver t.name)
  | load : t.Asks (.load t.importer t.name)
  | getAttr : t.Asks (.getAttr t.parent t.attr)

/-- What the host does when it is asked to load the module. -/
def turn (t : Reentry) : Bridge (Except ForeignError ObjectId) := do
  let _ ← Call.performAll (.register t.registry t.name t.handle :: t.calls)
  return .ok t.answer

/-- Whether a host always reports the module and calls back when it is to load it.  It may also
report a package of that name, now and then. -/
structure Drives (t : Reentry) (reaction : Reaction) : Prop where
  capable : ∀ turn, reaction (.loadsModules t.enquirer) turn ↔ turn = .pure true
  reports : ∀ turn, reaction (.isModule t.enquirer t.name) turn ↔ turn = .pure true
  answers : ∃ package, reaction (.isPackage t.enquirer t.name) (.pure package)
  atOnce : ∀ turn, reaction (.isPackage t.enquirer t.name) turn → ∃ package, turn = .pure package
  loads : ∀ turn, reaction (.loadModule t.enquirer t.name) turn ↔ turn = t.turn
  nested : ∀ call ∈ t.calls, t.Asks call

/-- Whether the module is not registered yet, but everything around it is, on one registry, whose
nodes have the names they are registered under: the packages in front of the module and the node
above it, which the resolver's only importer has made without a handle. -/
structure Starts (t : Reentry) (w : World) : Prop where
  home : (w.importer t.importer).registry = t.registry
  asks : (w.importer t.importer).enquirer = t.enquirer
  only : w.resolver t.resolver = { registry := t.registry, metaPath := [.hook t.importer] }
  live : w.isAlive (.registry t.registry)
  named : w.KeyedByName t.registry
  there : w.lookup t.registry (w.node t.parent).name = some t.parent
  bridgeOnly : (w.node t.parent).handle = none
  registry : (w.node t.parent).registry = t.registry
  loader : (w.node t.parent).loader = some t.importer
  enquirer : (w.node t.parent).enquirer = some t.enquirer
  unbound : (w.node t.parent).cache[t.attr]? = none
  dotless : '.' ∉ t.attr.toList
  plain : t.attr ∉ Node.metadataNames
  child : t.name = childName (w.node t.parent).name t.attr
  filled : "" ∉ segments t.name
  absent : w.lookup t.registry t.name = none
  ancestors : ∀ q ∈ prefixes t.name, q ≠ t.name → (w.lookup t.registry q).isSome

/-- The world in which the host has just registered the module. -/
def pushed (t : Reentry) (w : World) : World :=
  w.addRegistered (.foreignBacked t.name t.registry t.handle)

/-- The world in which the importer has taken the module over. -/
def taken (t : Reentry) (w : World) : World :=
  w.addRegistered (w.moduleOf t.importer t.name t.handle)

/-- The world in which the module is bound on the node above as well. -/
def bound (t : Reentry) (w : World) : World :=
  (t.taken w).bindSubmodule t.parent t.attr t.name

section Worlds

variable {t : Reentry} {w : World}

theorem Starts.lt_next (h : t.Starts w) : t.parent.index < w.nodes.next := h.named.lt_next h.there

theorem Starts.parent_ne (h : t.Starts w) : t.parent ≠ w.nextNode := by
  intro heq
  have hlt := h.lt_next
  rw [heq] at hlt
  exact Nat.lt_irrefl _ hlt

theorem Starts.hold (h : t.Starts w) (a : Handle) : t.Starts (w.hold a) := by
  refine { h with live := ?_, named := ⟨h.named.lt_next, h.named.name_eq⟩ }
  obtain ⟨kept, hkept, halive⟩ := List.any_eq_true.mp h.live
  exact List.any_eq_true.mpr ⟨kept, List.mem_cons_of_mem _ hkept, halive⟩

theorem Starts.link_pushed (h : t.Starts w) :
    (t.pushed w).link w.nextNode (some t.importer) (some t.enquirer) = t.taken w := by
  rw [pushed, World.link_addRegistered, taken, World.moduleOf, h.home, h.asks]

theorem Starts.link_taken (h : t.Starts w) :
    (t.taken w).link w.nextNode (some t.importer) (some t.enquirer) = t.taken w := by
  rw [taken, World.link_addRegistered, World.moduleOf, h.asks]

theorem Starts.link_bound (h : t.Starts w) :
    (t.bound w).link w.nextNode (some t.importer) (some t.enquirer) = t.bound w := by
  rw [bound, World.link_bindSubmodule _ h.parent_ne, h.link_taken]

theorem bind_bound (t : Reentry) (w : World) :
    (t.bound w).bindSubmodule t.parent t.attr t.name = t.bound w :=
  World.bindSubmodule_bindSubmodule _ _ _ _

theorem node_taken (t : Reentry) (w : World) :
    (t.taken w).node w.nextNode = w.moduleOf t.importer t.name t.handle :=
  World.node_addRegistered_self _ _

theorem Starts.node_bound (h : t.Starts w) :
    (t.bound w).node w.nextNode = w.moduleOf t.importer t.name t.handle := by
  rw [bound, World.bindSubmodule, World.node_updateNode_of_ne _ h.parent_ne, node_taken]

theorem Starts.lookup_taken (h : t.Starts w) (name : String) :
    (t.taken w).lookup t.registry name =
      if t.name = name then some w.nextNode else w.lookup t.registry name := by
  have hregistry : (w.moduleOf t.importer t.name t.handle).registry = t.registry := h.home
  rw [taken, World.lookup_addRegistered, hregistry]
  simp only [true_and]
  rfl

/-- What holds of a world in which the module is registered, whether it is bound or not. -/
structure Registered (t : Reentry) (w v : World) : Prop where
  home : (v.importer t.importer).registry = t.registry
  only : v.resolver t.resolver = { registry := t.registry, metaPath := [.hook t.importer] }
  live : v.isAlive (.registry t.registry)
  lookup : ∀ name, v.lookup t.registry name =
    if t.name = name then some w.nextNode else w.lookup t.registry name
  named : (v.node w.nextNode).name = t.name
  parent : ∃ cache, v.node t.parent = { w.node t.parent with cache }

theorem Starts.registered_pushed (h : t.Starts w) : t.Registered w (t.pushed w) where
  home := h.home
  only := h.only
  live := h.live
  lookup name := by
    rw [pushed, World.lookup_addRegistered]
    simp only [Node.foreignBacked, true_and]
  named := by
    rw [pushed, World.node_addRegistered_self]
    rfl
  parent := ⟨(w.node t.parent).cache, World.node_addRegistered_of_lt w h.lt_next _⟩

theorem Starts.registered_taken (h : t.Starts w) : t.Registered w (t.taken w) where
  home := h.home
  only := h.only
  live := h.live
  lookup := h.lookup_taken
  named := by
    rw [node_taken]
    rfl
  parent := ⟨(w.node t.parent).cache, World.node_addRegistered_of_lt w h.lt_next _⟩

theorem Starts.registered_bound (h : t.Starts w) : t.Registered w (t.bound w) where
  home := h.home
  only := h.only
  live := h.live
  lookup := h.lookup_taken
  named := by
    rw [h.node_bound]
    rfl
  parent := by
    rw [bound, World.node_bindSubmodule_self, taken, World.node_addRegistered_of_lt w h.lt_next]
    exact ⟨_, rfl⟩

theorem Starts.registered_of_called {v : World} (h : t.Starts w)
    (hv : v = t.pushed w ∨ v = t.bound w) : t.Registered w v := by
  rcases hv with rfl | rfl
  · exact h.registered_pushed
  · exact h.registered_bound

theorem Starts.registered_of_loaded {v : World} (h : t.Starts w)
    (hv : v = t.taken w ∨ v = t.bound w) : t.Registered w v := by
  rcases hv with rfl | rfl
  · exact h.registered_taken
  · exact h.registered_bound

theorem Registered.there {v : World} (h : t.Registered w v) :
    v.lookup t.registry t.name = some w.nextNode := by
  rw [h.lookup, if_pos rfl]

end Worlds

section Answers

variable {t : Reentry} {reaction : Reaction}

/-- The fixed host that only reports modules. -/
def quietHost : FixedHost
  | .loadsModules _ | .isModule .. => true
  | question => FixedHost.ignorant question

theorem knowsModule_attains (drives : t.Drives reaction) (w : World) :
    (Host.knowsModule t.enquirer t.name).Attains reaction t.enquirer t.name w [] true w := by
  have hknown : (Host.knowsModule t.enquirer t.name).Gives quietHost w
      [.loadsModules t.enquirer, .isModule t.enquirer t.name] true w :=
    knowsModule_gives quietHost _ _ w
  exact hknown.attains
    (List.forall_mem_cons.mpr ⟨drives.capable, List.forall_mem_singleton.mpr drives.reports⟩)
    (List.forall_mem_cons.mpr ⟨rfl, List.forall_mem_singleton.mpr rfl⟩)

end Answers

section Nested

variable {t : Reentry} {reaction : Reaction} {w v : World} {e : EnquirerId} {name : String}
  {n : NodeId} {attr : String} {turns : List (List Mark → Prop)}

theorem resolveBy_attains_found {strategy : Strategy} {others : List Strategy} {value : Value}
    (h : (strategy.apply n attr).Attains reaction e name w turns (.ok (.found value)) v) :
    (n.resolveBy attr (strategy :: others)).Attains reaction e name w turns (.ok value) v := by
  refine h.before ?_
  change Bridge.Attains reaction e name (if strategy ≠ .cache then _ else _) v [] _ v
  split
  · exact (Bridge.attains_world v).then ((Bridge.attains_report _ v).then (Bridge.attains_pure _ v))
  · exact Bridge.attains_pure _ v

theorem getAttr_attains_foreignModule {value : Value} (unbound : (w.node n).cache[attr]? = none)
    (bridgeOnly : (w.node n).handle = none) (plain : attr ∉ Node.metadataNames)
    (found : (n.foreignModule attr).Attains reaction e name w turns (.ok (.found value)) v) :
    (n.getAttr attr).Attains reaction e name w turns (.ok value) v := by
  have hcache : (Strategy.cache.apply n attr).Gives quietHost w [] (.ok .notFound) w :=
    (cached_gives_none _ unbound).then (Bridge.gives_pure _ w)
  have hdelegate : (Strategy.foreignDelegate.apply n attr).Gives quietHost w []
      (.ok .notFound) w := delegate_gives_passed _ attr bridgeOnly
  have hnative : (Strategy.native.apply n attr).Gives quietHost w [] (.ok .notFound) w :=
    (native_gives_passed _ plain).then (Bridge.gives_pure _ w)
  have hmodule : (n.resolveBy attr [.foreignModule, .subPackage, .exportMarker, .terminal]).Attains
      reaction e name w turns (.ok value) v := resolveBy_attains_found found
  exact hcache.silent.then (hdelegate.silent.then (hnative.silent.then hmodule))

theorem Starts.adopt_gives (h : t.Starts w) (host : FixedHost)
    (hv : v = t.pushed w ∨ v = t.bound w) :
    (t.parent.adopt t.registry t.enquirer t.attr t.name).Gives host v []
      (.found (.node w.nextNode)) (t.bound w) := by
  have hregistered := h.registered_of_called hv
  obtain ⟨cache, hparent⟩ := hregistered.parent
  have hadopt := ForeignNamespace.adopt_gives host t.parent t.attr t.enquirer hregistered.there
    hregistered.named
  rw [hparent, h.loader] at hadopt
  rcases hv with rfl | rfl
  · rwa [h.link_pushed] at hadopt
  · rwa [h.link_bound, bind_bound] at hadopt

theorem foreignModule_attains (drives : t.Drives reaction) (h : t.Starts w)
    (has : (v.node t.parent).enquirer = some t.enquirer)
    (named : childName (v.node t.parent).name t.attr = t.name)
    (home : (v.node t.parent).registry = t.registry) (live : v.isAlive (.registry t.registry))
    {x : World} (hx : x = t.pushed w ∨ x = t.bound w)
    (loaded : (NodeId.ensureLoaded t.registry t.enquirer t.name).Attains reaction t.enquirer t.name
      (v.hold (.registry t.registry)) turns (.ok ()) (x.hold (.registry t.registry))) :
    (t.parent.foreignModule t.attr).Attains reaction t.enquirer t.name v turns
      (.ok (.found (.node w.nextNode))) (t.bound w) := by
  refine (Bridge.attains_world v).then ?_
  simp only [has, named]
  refine (knowsModule_attains drives v).then ?_
  simp only [if_true]
  refine (Bridge.attains_world v).then ?_
  simp only [World.registryOf?, home, live, if_true]
  -- The node is looked up behind the load, where the registry is still held.
  refine Bridge.Attains.holding (loaded.before ?_)
  have hx' : x.hold (.registry t.registry) = t.pushed (w.hold (.registry t.registry)) ∨
      x.hold (.registry t.registry) = t.bound (w.hold (.registry t.registry)) := by
    rcases hx with rfl | rfl
    · exact .inl rfl
    · exact .inr rfl
  have hadopt := (h.hold (.registry t.registry)).adopt_gives quietHost hx'
  exact hadopt.silent.then (Bridge.attains_pure _ _)

theorem Registered.importName_attains (h : t.Registered w v) :
    (t.resolver.importName t.name).Attains reaction e name v [] (.ok w.nextNode) v := by
  have hthere : v.lookup (v.resolver t.resolver).registry t.name = some w.nextNode := by
    rw [h.only]
    exact h.there
  have hrun := importName_run_of_some quietHost hthere
  have hgives : (t.resolver.importName t.name).Gives quietHost v [] (.ok w.nextNode) v := by
    constructor <;> rw [hrun]
    rfl
  exact hgives.silent

theorem Registered.load_attains (h : t.Registered w v) :
    (t.importer.load t.name).Attains reaction e name v [] (.ok w.nextNode) v := by
  have hthere : v.lookup (v.importer t.importer).registry t.name = some w.nextNode := by
    rw [h.home]
    exact h.there
  refine (Bridge.attains_world v).then ?_
  simp only [hthere]
  exact (decide_gives quietHost t.importer t.name .cached v).silent.then
    (Bridge.attains_pure _ v)

theorem Starts.getAttr_attains_pushed (h : t.Starts w) (drives : t.Drives reaction) :
    (t.parent.getAttr t.attr).Attains reaction t.enquirer t.name (t.pushed w) []
      (.ok (.node w.nextNode)) (t.bound w) := by
  have hnode : (t.pushed w).node t.parent = w.node t.parent :=
    World.node_addRegistered_of_lt w h.lt_next _
  refine getAttr_attains_foreignModule (hnode ▸ h.unbound) (hnode ▸ h.bridgeOnly) h.plain ?_
  refine foreignModule_attains drives h (hnode ▸ h.enquirer) (hnode ▸ h.child.symm)
    (hnode ▸ h.registry) h.live (.inl rfl) ?_
  refine ((Bridge.attains_world _).then (Bridge.attains_pure _ _)).then ?_
  simp only [World.lookup_hold, h.registered_pushed.there, Option.isSome_some, if_true]
  exact Bridge.attains_pure _ _

theorem Starts.getAttr_attains_bound (h : t.Starts w) :
    (t.parent.getAttr t.attr).Attains reaction e name (t.bound w) []
      (.ok (.node w.nextNode)) (t.bound w) := by
  have hregistered := h.registered_bound
  obtain ⟨cache, hparent⟩ := hregistered.parent
  have hhome : ((t.bound w).node t.parent).registry = t.registry := by
    rw [hparent]
    exact h.registry
  have hcached : ((t.bound w).node t.parent).cache[t.attr]? = some (.submodule t.name) := by
    rw [bound, World.cache_bindSubmodule, if_pos ⟨rfl, rfl⟩]
  have hfound := getAttr_gives_bound quietHost (hhome ▸ hregistered.live) hcached
    (hhome ▸ hregistered.there)
  exact hfound.silent

/-- A nested call yields the node; an access binds it, and what is bound stays bound. -/
theorem Starts.call_attains (h : t.Starts w) (drives : t.Drives reaction) {call : Call}
    (asks : t.Asks call) (hv : v = t.pushed w ∨ v = t.bound w) :
    ∃ v', call.perform.Attains reaction t.enquirer t.name v [] (.ok (.node w.nextNode)) v' ∧
      (v' = t.bound w ∨ v' = v ∧ call ≠ .getAttr t.parent t.attr) := by
  have hregistered := h.registered_of_called hv
  cases asks with
  | importName =>
      exact ⟨v, hregistered.importName_attains.then (Bridge.attains_pure _ v), .inr ⟨rfl, by simp⟩⟩
  | load =>
      exact ⟨v, hregistered.load_attains.then (Bridge.attains_pure _ v), .inr ⟨rfl, by simp⟩⟩
  | getAttr =>
      rw [Call.perform_getAttr]
      rcases hv with rfl | rfl
      · exact ⟨t.bound w, h.getAttr_attains_pushed drives, .inl rfl⟩
      · exact ⟨t.bound w, h.getAttr_attains_bound, .inl rfl⟩

theorem Starts.performAll_attains (h : t.Starts w) (drives : t.Drives reaction) {calls : List Call}
    (asks : ∀ call ∈ calls, t.Asks call) (hv : v = t.pushed w ∨ v = t.bound w) :
    ∃ v', (Call.performAll calls).Attains reaction t.enquirer t.name v []
        (List.replicate calls.length (.ok (.node w.nextNode))) v' ∧
      (v' = t.bound w ∨ v' = v ∧ .getAttr t.parent t.attr ∉ calls) := by
  induction calls generalizing v with
  | nil => exact ⟨v, Bridge.attains_pure _ v, .inr ⟨rfl, List.not_mem_nil⟩⟩
  | cons call calls ih =>
      obtain ⟨hcall, hcalls⟩ := List.forall_mem_cons.mp asks
      obtain ⟨x, hfirst, hx⟩ := h.call_attains drives hcall hv
      have hx' : x = t.pushed w ∨ x = t.bound w := by
        rcases hx with rfl | ⟨rfl, -⟩
        · exact .inr rfl
        · exact hv
      obtain ⟨v', hrest, hv'⟩ := ih hcalls hx'
      refine ⟨v', hfirst.then (hrest.then (Bridge.attains_pure _ v')), ?_⟩
      rcases hv' with rfl | ⟨rfl, hnone⟩
      · exact .inl rfl
      · rcases hx with rfl | ⟨rfl, hne⟩
        · exact .inl rfl
        · exact .inr ⟨rfl, fun hmem => (List.mem_cons.mp hmem).elim (fun heq => hne heq.symm) hnone⟩

theorem Starts.register_attains (h : t.Starts w) :
    (Call.register t.registry t.name t.handle).perform.Attains reaction e name w []
      (.ok (.node w.nextNode)) (t.pushed w) := by
  have hparse : (DottedName.parse t.name).isNone = false := by
    rw [DottedName.parse_eq, if_neg h.filled, Option.isNone_some]
  have hmade := makeForeign_gives quietHost t.registry t.name t.handle w
  have hregister : (t.registry.registerForeign t.name t.handle).Attains reaction e name w []
      (.ok w.nextNode) (t.pushed w) := by
    rw [RegistryId.registerForeign, hparse]
    exact (Bridge.attains_report _ w).then (hmade.silent.then (Bridge.attains_pure _ _))
  exact hregister.then (Bridge.attains_pure _ _)

theorem Starts.turn_attains (h : t.Starts w) (drives : t.Drives reaction) :
    ∃ x, (Call.performAll (.register t.registry t.name t.handle :: t.calls)).Attains reaction
        t.enquirer t.name w []
        (List.replicate (t.calls.length + 1) (.ok (.node w.nextNode))) x ∧
      (x = t.bound w ∨ x = t.pushed w ∧ .getAttr t.parent t.attr ∉ t.calls) := by
  obtain ⟨x, hcalls, hx⟩ := h.performAll_attains drives drives.nested (.inl rfl)
  exact ⟨x, h.register_attains.then (hcalls.then (Bridge.attains_pure _ x)), hx⟩

end Nested

/-- Whether marks are those of the host's turn in a load. -/
def Turn (t : Reentry) (reaction : Reaction) (v x : World) (between : List Mark) : Prop :=
  Bridge.Runs reaction t.turn v between (.ok t.answer) x

section Outer

variable {t : Reentry} {reaction : Reaction} {w : World}

theorem Starts.ask_attains (h : t.Starts w) (drives : t.Drives reaction) :
    ∃ x, (Host.loadModule t.enquirer t.name).Attains reaction t.enquirer t.name w
        [t.Turn reaction w x] (.ok t.answer) x ∧
      (x = t.bound w ∨ x = t.pushed w ∧ .getAttr t.parent t.attr ∉ t.calls) := by
  obtain ⟨x, hcalls, hx⟩ := h.turn_attains drives
  have hturn : t.turn.Attains reaction t.enquirer t.name w [] (.ok t.answer) x :=
    hcalls.then (Bridge.attains_pure _ x)
  exact ⟨x, Bridge.attains_load drives.loads hturn, hx⟩

theorem Starts.load_attains (h : t.Starts w) (drives : t.Drives reaction) :
    ∃ x y, (t.importer.load t.name).Attains reaction t.enquirer t.name w [t.Turn reaction w x]
        (.ok w.nextNode) y ∧
      (y = t.bound w ∨ y = t.taken w ∧ .getAttr t.parent t.attr ∉ t.calls) := by
  obtain ⟨x, hask, hx⟩ := h.ask_attains drives
  have hregistered := h.registered_of_called (hx.imp_right And.left).symm
  refine ⟨x, x.link w.nextNode (some t.importer) (some t.enquirer), ?_, ?_⟩
  · refine (Bridge.attains_world w).then ?_
    simp only [h.home, h.asks, h.absent]
    refine (knowsModule_attains drives w).then ?_
    simp only [if_true]
    refine (decide_gives quietHost t.importer t.name .loadingModule w).silent.then ?_
    refine hask.before ?_
    refine (Bridge.attains_world x).then ?_
    simp only [hregistered.there]
    have hthere : x.lookup t.registry (x.node w.nextNode).name = some w.nextNode := by
      rw [hregistered.named]
      exact hregistered.there
    have hpatch := patch_gives quietHost hthere (some t.importer) (some t.enquirer)
    exact hpatch.silent.then (Bridge.attains_pure _ _)
  -- A module that a nested access has bound is taken over already.
  · rcases hx with rfl | ⟨rfl, hnone⟩
    · exact .inl h.link_bound
    · exact .inr ⟨h.link_pushed, hnone⟩

theorem Starts.claims_attains (h : t.Starts w) (drives : t.Drives reaction) :
    (t.importer.claims t.name).Attains reaction t.enquirer t.name w [] true w := by
  have hclaimed : (do
      t.importer.decide t.name .claimed
      return true : Bridge Bool).Attains reaction t.enquirer t.name w [] true w :=
    (decide_gives quietHost t.importer t.name .claimed w).silent.then (Bridge.attains_pure true w)
  refine (Bridge.attains_world w).then ?_
  rw [h.asks]
  refine Bridge.attains_answer rfl drives.answers drives.atOnce fun package => ?_
  cases package with
  | true => exact hclaimed
  | false => exact (knowsModule_attains drives w).then hclaimed

/-- Where an import binds a registered module: on the node above, unless the module has none. -/
theorem Starts.bindOnParent_eq (h : t.Starts w) {y : World}
    (hy : y = t.taken w ∨ y = t.bound w) :
    y.bindOnParent t.registry t.name = t.bound w ∨
      y.bindOnParent t.registry t.name = y ∧ (w.node t.parent).name = "" := by
  have hregistered := h.registered_of_loaded hy
  by_cases hroot : (w.node t.parent).name = ""
  · refine .inr ⟨?_, hroot⟩
    have hnone : parentPackage? t.name = none := by
      rw [h.child, hroot, childName_empty]
      exact parentPackage_of_not_mem h.dotless
    rw [World.bindOnParent, hnone]
    rfl
  · have habove : parentPackage? t.name = some (w.node t.parent).name := by
      rw [h.child, parentPackage_childName hroot h.dotless]
    have hthere : y.lookup t.registry (w.node t.parent).name = some t.parent := by
      rw [hregistered.lookup, if_neg (Ne.symm (parent_ne_self habove)), h.there]
    have hleaf : leafName t.name = t.attr := by rw [h.child, leafName_childName h.dotless]
    refine .inl ?_
    rw [World.bindOnParent, habove, Option.bind_some, hthere, hleaf]
    rcases hy with rfl | rfl
    · rfl
    · exact bind_bound t w

theorem Starts.importOne_attains (h : t.Starts w) (drives : t.Drives reaction) :
    ∃ x y, (t.resolver.importOne t.name).Attains reaction t.enquirer t.name w
        [t.Turn reaction w x] (.ok w.nextNode) y ∧
      (y = t.bound w ∨ y = t.taken w ∧ .getAttr t.parent t.attr ∉ t.calls ∧
        (w.node t.parent).name = "") := by
  obtain ⟨x, y, hload, hy⟩ := h.load_attains drives
  have hcases : y = t.taken w ∨ y = t.bound w := (hy.imp_right And.left).symm
  have hregistered := h.registered_of_loaded hcases
  refine ⟨x, y.bindOnParent t.registry t.name, ?_, ?_⟩
  · refine ((Bridge.attains_world w).then (Bridge.attains_pure _ w)).then ?_
    simp only [h.only, h.absent]
    refine (Bridge.attains_world w).then ?_
    rw [h.only]
    refine (h.claims_attains drives).then ?_
    simp only [if_true]
    refine hload.before ?_
    have hbind := bindOnParent_gives quietHost t.resolver hregistered.named
    rw [hregistered.only] at hbind
    exact hbind.silent.then (Bridge.attains_pure _ _)
  · rcases h.bindOnParent_eq hcases with heq | ⟨heq, hroot⟩
    · exact .inl heq
    · rcases hy with rfl | ⟨rfl, hnone⟩
      · exact .inl heq
      · exact .inr ⟨heq, hnone, hroot⟩

theorem importAll_attains {s : ResolverId} {last : String} {names : List String} {e : EnquirerId}
    {name : String} {turns : List (List Mark → Prop)} {result : Except ImportError NodeId}
    {w' : World} (there : ∀ q ∈ names, (w.lookup (w.resolver s).registry q).isSome)
    (h : (s.importOne last).Attains reaction e name w turns result w') :
    (s.importAll last names).Attains reaction e name w turns result w' := by
  induction names with
  | nil => exact h
  | cons q names ih =>
      obtain ⟨hq, hnames⟩ := List.forall_mem_cons.mp there
      obtain ⟨n, hn⟩ := Option.isSome_iff_exists.mp hq
      exact (importOne_gives_present quietHost hn).silent.then (ih hnames)

theorem Starts.importName_attains (h : t.Starts w) (drives : t.Drives reaction) :
    ∃ x y, (t.resolver.importName t.name).Attains reaction t.enquirer t.name w
        [t.Turn reaction w x] (.ok w.nextNode) y ∧
      (y = t.bound w ∨ y = t.taken w ∧ .getAttr t.parent t.attr ∉ t.calls ∧
        (w.node t.parent).name = "") := by
  obtain ⟨x, y, hone, hy⟩ := h.importOne_attains drives
  refine ⟨x, y, ?_, hy⟩
  have hparse : DottedName.parse t.name = some ⟨t.name, DottedName.dotsFrom 0 t.name.toList⟩ := by
    rw [DottedName.parse_eq, if_neg h.filled]
  have hprefixes := ancestors_append_fullName hparse
  refine ((Bridge.attains_world w).then (Bridge.attains_pure _ w)).then ?_
  simp only [h.only, h.absent, hparse]
  refine importAll_attains (fun q hq => ?_) hone
  rw [h.only]
  -- A name is no ancestor of itself, so all that is imported first is registered.
  have hnodup : ((DottedName.ancestors ⟨t.name, DottedName.dotsFrom 0 t.name.toList⟩) ++
      [t.name]).Nodup := hprefixes ▸ nodup_pathFrom "" h.filled
  refine h.ancestors q (hprefixes ▸ List.mem_append_left _ hq) ?_
  rintro rfl
  exact (List.nodup_append.mp hnodup).2.2 _ hq _ List.mem_cons_self rfl

theorem Starts.getAttr_attains (h : t.Starts w) (drives : t.Drives reaction) :
    ∃ x, (t.parent.getAttr t.attr).Attains reaction t.enquirer t.name w
      [t.Turn reaction (w.hold (.registry t.registry)) x] (.ok (.node w.nextNode)) (t.bound w) := by
  have hheld := h.hold (.registry t.registry)
  obtain ⟨x, hask, hx⟩ := hheld.ask_attains drives
  have hregistered := hheld.registered_of_called (hx.imp_right And.left).symm
  obtain ⟨y, hy, rfl⟩ : ∃ y, (y = t.pushed w ∨ y = t.bound w) ∧
      x = y.hold (.registry t.registry) := by
    rcases hx with rfl | ⟨rfl, -⟩
    · exact ⟨t.bound w, .inr rfl, rfl⟩
    · exact ⟨t.pushed w, .inl rfl, rfl⟩
  refine ⟨y.hold (.registry t.registry),
    getAttr_attains_foreignModule h.unbound h.bridgeOnly h.plain ?_⟩
  refine foreignModule_attains drives h h.enquirer h.child.symm h.registry h.live hy ?_
  refine ((Bridge.attains_world _).then (Bridge.attains_pure _ _)).then ?_
  simp only [hheld.absent, Option.isSome_none, Bool.false_eq_true, if_false]
  refine hask.before ?_
  refine ((Bridge.attains_world _).then (Bridge.attains_pure _ _)).then ?_
  simp only [hregistered.there, Option.isSome_some, Bool.not_true, Bool.false_eq_true, if_false]
  exact Bridge.attains_pure _ _

/-- What a call that asks for the module has led to when it returns. -/
structure Ends (t : Reentry) (reaction : Reaction) (w : World) (outer : Call) (marks : List Mark)
    (result : Except ImportError Value) (w' : World) : Prop where
  result_eq : result = .ok (.node w.nextNode)
  loads : marks.filterMap Mark.load? = [(t.enquirer, t.name)]
  nested : ∃ front between back v results x,
    marks = front ++ .question (.loadModule t.enquirer t.name) :: (between ++ back) ∧
      (v = w ∨ v = w.hold (.registry t.registry)) ∧
      Bridge.Runs reaction
        (Call.performAll (.register t.registry t.name t.handle :: t.calls)) v between results x ∧
      results = List.replicate (t.calls.length + 1) (.ok (.node w.nextNode))
  registered : w'.lookup t.registry t.name = some w.nextNode
  node : w'.node w.nextNode = w.moduleOf t.importer t.name t.handle
  world : w' = t.taken w ∨ w' = t.bound w
  binds : .getAttr t.parent t.attr ∈ outer :: t.calls → w' = t.bound w
  bindsImport : outer = .importName t.resolver t.name → (w.node t.parent).name ≠ "" →
    w' = t.bound w

theorem Starts.nested_of_shows (h : t.Starts w) (drives : t.Drives reaction) {v x : World}
    (hv : v = w ∨ v = w.hold (.registry t.registry)) {marks : List Mark}
    (shown : Shows t.enquirer t.name [t.Turn reaction v x] marks) :
    ∃ front between back v results x,
      marks = front ++ .question (.loadModule t.enquirer t.name) :: (between ++ back) ∧
        (v = w ∨ v = w.hold (.registry t.registry)) ∧
        Bridge.Runs reaction
          (Call.performAll (.register t.registry t.name t.handle :: t.calls)) v between results x ∧
        results = List.replicate (t.calls.length + 1) (.ok (.node w.nextNode)) := by
  obtain ⟨front, between, back, hmarks, -, -, hturn, -⟩ := shown
  obtain ⟨inner, last, results, u, hcalls, hlast, rfl⟩ := Bridge.runs_bind_iff.mp hturn
  have hresults : results = List.replicate (t.calls.length + 1) (.ok (.node w.nextNode)) := by
    rcases hv with rfl | rfl
    · obtain ⟨x', hattains, -⟩ := h.turn_attains drives
      exact (hattains.all hcalls).1
    · obtain ⟨x', hattains, -⟩ := (h.hold _).turn_attains drives
      exact (hattains.all hcalls).1
  cases hlast
  rw [List.append_nil] at hmarks
  exact ⟨front, inner, back, v, results, _, hmarks, hv, hcalls, hresults⟩

theorem Starts.ends_of_attains (h : t.Starts w) (drives : t.Drives reaction) {outer : Call}
    {v x y : World} (hv : v = w ∨ v = w.hold (.registry t.registry))
    (attains : outer.perform.Attains reaction t.enquirer t.name w [t.Turn reaction v x]
      (.ok (.node w.nextNode)) y)
    (hy : y = t.taken w ∨ y = t.bound w)
    (binds : .getAttr t.parent t.attr ∈ outer :: t.calls → y = t.bound w)
    (bindsImport : outer = .importName t.resolver t.name → (w.node t.parent).name ≠ "" →
      y = t.bound w) {marks : List Mark} {result : Except ImportError Value} {w' : World}
    (runs : Bridge.Runs reaction outer.perform w marks result w') :
    t.Ends reaction w outer marks result w' := by
  obtain ⟨rfl, rfl, shown⟩ := attains.all runs
  constructor
  · rfl
  · exact shown.loads
  · exact h.nested_of_shows drives hv shown
  · exact (h.registered_of_loaded hy).there
  · rcases hy with rfl | rfl
    · exact node_taken t w
    · exact h.node_bound
  · exact hy
  · exact binds
  · exact bindsImport

end Outer

/-- Whichever call asks for the module, it comes to an end; the module is loaded once in all, and
the call and all calls nested in it yield the node that the host has registered. -/
theorem load_once (t : Reentry) {reaction : Reaction} {w : World} {outer : Call}
    (starts : t.Starts w) (drives : t.Drives reaction) (asks : t.Asks outer) :
    (∃ marks result w', Bridge.Runs reaction outer.perform w marks result w') ∧
      ∀ marks result w', Bridge.Runs reaction outer.perform w marks result w' →
        t.Ends reaction w outer marks result w' := by
  cases asks with
  | importName =>
      obtain ⟨x, y, himport, hy⟩ := starts.importName_attains drives
      have hperform : (Call.importName t.resolver t.name).perform.Attains reaction t.enquirer t.name
          w [t.Turn reaction w x] (.ok (.node w.nextNode)) y :=
        himport.before (Bridge.attains_pure _ y)
      refine ⟨hperform.ends.imp fun marks hruns => ⟨_, _, hruns⟩, fun marks result w' hruns =>
        starts.ends_of_attains drives (.inl rfl) hperform ?_ ?_ ?_ hruns⟩
      · exact hy.symm.imp_left And.left
      · intro hmem
        rcases hy with hy | ⟨-, hnone, -⟩
        · exact hy
        · exact absurd ((List.mem_cons.mp hmem).resolve_left (by simp)) hnone
      · intro _ hroot
        exact hy.resolve_right fun hy => hroot hy.2.2
  | load =>
      obtain ⟨x, y, hload, hy⟩ := starts.load_attains drives
      have hperform : (Call.load t.importer t.name).perform.Attains reaction t.enquirer t.name
          w [t.Turn reaction w x] (.ok (.node w.nextNode)) y :=
        hload.before (Bridge.attains_pure _ y)
      refine ⟨hperform.ends.imp fun marks hruns => ⟨_, _, hruns⟩, fun marks result w' hruns =>
        starts.ends_of_attains drives (.inl rfl) hperform ?_ ?_ ?_ hruns⟩
      · exact hy.symm.imp_left And.left
      · intro hmem
        rcases hy with hy | ⟨-, hnone⟩
        · exact hy
        · exact absurd ((List.mem_cons.mp hmem).resolve_left (by simp)) hnone
      · intro himport
        cases himport
  | getAttr =>
      obtain ⟨x, hgetAttr⟩ := starts.getAttr_attains drives
      have hperform : (Call.getAttr t.parent t.attr).perform.Attains reaction t.enquirer t.name w
          [t.Turn reaction (w.hold (.registry t.registry)) x] (.ok (.node w.nextNode))
          (t.bound w) := by
        rw [Call.perform_getAttr]
        exact hgetAttr
      exact ⟨hperform.ends.imp fun marks hruns => ⟨_, _, hruns⟩, fun marks result w' hruns =>
        starts.ends_of_attains drives (.inr rfl) hperform (.inr rfl) (fun _ => rfl)
          (fun _ _ => rfl) hruns⟩

/-- A host that calls back in its load and answers everything else at once. -/
def reaction (t : Reentry) : Reaction
  | .isPackage .., turn => turn = .pure false
  | .loadsModules _, turn => turn = .pure true
  | .isModule _ name, turn => turn = .pure (name == t.name)
  | .loadModule _ name, turn =>
    turn = if name = t.name then t.turn
      else .pure (.error { kind := "ImportError", message := name })
  | question, turn => turn = .pure (FixedHost.ignorant question)

end Reentry

theorem Reentry.load_once_pkg :
    let parent : NodeId := ⟨0⟩
    let t : Reentry :=
      { resolver := .processWide, importer := ⟨0⟩, registry := .processWide, enquirer := ⟨0⟩
        parent, attr := "mod", name := "pkg.mod", handle := ⟨7⟩, answer := ⟨8⟩
        calls := [.importName .processWide "pkg.mod", .getAttr parent "mod", .load ⟨0⟩ "pkg.mod"] }
    let w := World.withImported
    (t.Starts w ∧ t.Drives t.reaction ∧ t.Asks (.getAttr parent "mod")) ∧
      ∃ marks result w',
        Bridge.Runs t.reaction (Call.getAttr parent "mod").perform w marks result w' ∧
          t.Ends t.reaction w (.getAttr parent "mod") marks result w' := by
  intro parent t w
  have starts : t.Starts w :=
    { home := by decide
      asks := by decide
      only := by decide
      live := by decide
      named := (World.KeyedByName.of_empty fun _ => rfl).addRegistered _
      there := by decide +kernel
      bridgeOnly := by decide
      registry := by decide
      loader := by decide
      enquirer := by decide
      unbound := by rfl
      dotless := by decide
      plain := by decide
      child := by decide
      filled := by decide
      absent := by decide +kernel
      ancestors := by decide +kernel }
  have drives : t.Drives t.reaction :=
    { capable := fun _ => Iff.rfl
      reports := fun _ => Iff.rfl
      answers := ⟨false, rfl⟩
      atOnce := fun _ hturn => ⟨false, hturn⟩
      loads := fun _ => Iff.rfl
      nested := fun call hcall => by
        simp only [t, List.mem_cons, List.not_mem_nil, or_false] at hcall
        rcases hcall with rfl | rfl | rfl
        · exact .importName
        · exact .getAttr
        · exact .load }
  obtain ⟨⟨marks, result, w', hruns⟩, hends⟩ := t.load_once starts drives .getAttr
  exact ⟨⟨starts, drives, .getAttr⟩, marks, result, w', hruns, hends marks result w' hruns⟩

end ForeignNamespace
