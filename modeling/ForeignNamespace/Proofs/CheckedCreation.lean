import ForeignNamespace.Proofs.Footprints
import ForeignNamespace.Proofs.IdentityStability
import ForeignNamespace.Proofs.ReentrantLoad

/-!
Looking up before making.

A host may do anything to the bridge while it is asked, so what was looked up before a question is
worth nothing behind it.  The strategies that make nodes look again: whatever is registered in the
meantime, they replace nothing, and what they yield is registered when they yield it.
-/

namespace ForeignNamespace

/-- Whether no registry loses a node or has it replaced. -/
def World.KeepsRegistered (w v : World) : Prop :=
  ∀ r name m, w.lookup r name = some m → v.lookup r name = some m

theorem World.KeepsRegistered.of_registries {w v : World} (h : v.registries = w.registries) :
    w.KeepsRegistered v := by
  intro r name m hlookup
  rwa [World.lookup_of_registries h]

theorem World.keepsRegistered_addRegistered (w : World) {node : Node}
    (hfree : w.lookup node.registry node.name = none) :
    (w.addNode node).KeepsRegistered (w.addRegistered node) := by
  intro r name m hlookup
  rw [World.lookup_addRegistered]
  split
  · rename_i hnode
    obtain ⟨rfl, rfl⟩ := hnode
    rw [World.lookup_addNode, hfree] at hlookup
    cases hlookup
  · exact hlookup

theorem World.KeyedByName.of_registries {w v : World} {r : RegistryId} (h : w.KeyedByName r)
    (evolves : w.Evolves v) (same : v.registries = w.registries) : v.KeyedByName r := by
  have hlookup := World.lookup_of_registries same r
  constructor
  · intro name m hm
    rw [hlookup] at hm
    exact Nat.lt_of_lt_of_le (h.lt_next hm) evolves.next
  · intro name m hm
    rw [hlookup] at hm
    rw [evolves.name (h.lt_next hm), h.name_eq hm]

/-- A host that may do whatever leaves the names of a registry the names of its nodes.  What is made
stays what it is anyhow. -/
structure Turn.KeepsKeys (turn : Turn) (r : RegistryId) : Prop where
  evolves : ∀ {question w answer v}, turn question w answer v → w.Evolves v
  keyed : ∀ {question w answer v}, turn question w answer v → w.KeyedByName r → v.KeyedByName r

theorem Conduct.keepsKeys {conduct : Conduct} {r : RegistryId}
    (keyed : ∀ {w moments v}, Session conduct w moments v → w.KeyedByName r → v.KeyedByName r) :
    conduct.turn.KeepsKeys r where
  evolves := fun ⟨⟨_, hsession⟩, _⟩ => hsession.evolves
  keyed := fun ⟨⟨_, hsession⟩, _⟩ => keyed hsession

/-- Whether deeds replace nothing and load nothing but a name that is not registered. -/
structure Checks (r : RegistryId) (name : String) (w : World) (deeds : List Deed) (v : World) :
    Prop where
  evolves : w.Evolves v
  keyed : v.KeyedByName r
  keeps : ∀ {before after}, .wrote before after ∈ deeds → before.KeepsRegistered after
  free : ∀ {load}, load ∈ loads deeds → load.name = name ∧ load.world.lookup r name = none

namespace Checks

variable {r : RegistryId} {name : String} {u v w : World} {front back deeds : List Deed}

theorem nil (keyed : w.KeyedByName r) : Checks r name w [] w where
  evolves := .refl w
  keyed
  keeps := by simp
  free := by simp

theorem append (first : Checks r name u front v) (second : Checks r name v back w) :
    Checks r name u (front ++ back) w where
  evolves := first.evolves.trans second.evolves
  keyed := second.keyed
  keeps h := (List.mem_append.mp h).elim first.keeps second.keeps
  free h := by
    rw [loads_append] at h
    exact (List.mem_append.mp h).elim first.free second.free

theorem wrote (evolves : u.Evolves v) (keyed : v.KeyedByName r) (keeps : u.KeepsRegistered v)
    (rest : Checks r name v deeds w) : Checks r name u (.wrote u v :: deeds) w where
  evolves := evolves.trans rest.evolves
  keyed := rest.keyed
  keeps h := by
    rcases List.mem_cons.mp h with heq | h
    · obtain ⟨rfl, rfl⟩ := Deed.wrote.inj heq
      exact keeps
    · exact rest.keeps h
  free h := rest.free h

/-- A write that no registry is changed by. -/
theorem wroteElsewhere (keyed : u.KeyedByName r) (evolves : u.Evolves v)
    (same : v.registries = u.registries) (rest : Checks r name v deeds w) :
    Checks r name u (.wrote u v :: deeds) w :=
  wrote evolves (keyed.of_registries evolves same) (.of_registries same) rest

theorem reported {event : Event} (rest : Checks r name u deeds w) :
    Checks r name u (.reported event :: deeds) w where
  evolves := rest.evolves
  keyed := rest.keyed
  keeps h := rest.keeps (by simpa using h)
  free h := rest.free h

theorem making (keyed : w.KeyedByName r) {node : Node}
    (hfree : w.lookup node.registry node.name = none) :
    Checks r name w (w.making node) (w.addRegistered node) := by
  have hadded : w.Evolves (w.addNode node) := w.evolves_addNode node
  have hkeeps := w.keepsRegistered_addRegistered hfree
  have hlast : Checks r name (w.addNode node)
      [.wrote (w.addNode node) (w.addRegistered node)] (w.addRegistered node) :=
    wrote (.of_nodes rfl) (keyed.addRegistered node) hkeeps (nil (keyed.addRegistered node))
  exact wroteElsewhere keyed hadded rfl (reported hlast)

end Checks

/-- The rule of what makes no node and loads no module. -/
def Rule.looking : Rule where
  asks question := question.isLoad = false
  reports event := event.strategy? = none
  writes w v := w.Evolves v ∧ v.registries = w.registries

theorem Rule.allowsLooking_looking : Rule.looking.AllowsLooking where
  bind w n _ _ := ⟨w.evolves_updateNode n fun _ => ⟨rfl, rfl, rfl⟩, rfl⟩
  unbind w n _ := ⟨w.evolves_updateNode n fun _ => ⟨rfl, rfl, rfl⟩, rfl⟩
  asks _ h := h
  reports _ h := h

section Access

variable {turn : Turn} {r : RegistryId} (respects : turn.KeepsKeys r)
  {name : String} {w v : World} {deeds : List Deed}

include respects

theorem Bridge.Does.checks_of_looking {α : Type} {p : Bridge α} {result : α}
    (h : p.Does turn w deeds result v) (hp : p.ObeysFrom .looking w) (keyed : w.KeyedByName r) :
    Checks r name w deeds v ∧ loads deeds = [] := by
  have hloads : loads deeds = [] := h.loads_eq_nil hp fun _ _ hload => Bool.noConfusion hload
  have hsteady : w.Evolves v ∧ (w.KeyedByName r → v.KeyedByName r) := by
    refine h.related (fun w v => w.Evolves v ∧ (w.KeyedByName r → v.KeyedByName r))
      (fun w => ⟨.refl w, id⟩) ?_ ?_ ?_ hp
    · intro u v w first second
      exact ⟨first.1.trans second.1, second.2 ∘ first.2⟩
    · intro w v hwrote
      exact ⟨hwrote.1, fun hkeyed => hkeyed.of_registries hwrote.1 hwrote.2⟩
    · intro question w answer v hturn
      exact ⟨respects.evolves hturn, respects.keyed hturn⟩
  refine ⟨⟨hsteady.1, hsteady.2 keyed, ?_, ?_⟩, hloads⟩
  · intro before after hwrote
    exact .of_registries (h.allowed hp _ hwrote).2
  · simp [hloads]

theorem Checks.loaded {e : EnquirerId} {answer : Except ForeignError ObjectId}
    (keyed : w.KeyedByName r) (hfree : w.lookup r name = none)
    (hturn : turn (.loadModule e name) w answer v) :
    Checks r name w [.asked (.loadModule e name) w answer v] v where
  evolves := respects.evolves hturn
  keyed := respects.keyed hturn keyed
  keeps h := by simp at h
  free h := by
    obtain rfl := List.mem_singleton.mp h
    exact ⟨rfl, hfree⟩

theorem ensureLoaded_checks {e : EnquirerId} {result : Except ForeignError Unit}
    (keyed : w.KeyedByName r)
    (h : (NodeId.ensureLoaded r e name).Does turn w deeds result v) :
    Checks r name w deeds v ∧ (loads deeds).length ≤ 1 := by
  replace h := Bridge.does_contains_bind_iff.mp h
  split at h
  · obtain ⟨rfl, rfl, rfl⟩ := h
    exact ⟨.nil keyed, Nat.zero_le _⟩
  · rename_i habsent
    obtain ⟨answer, u, rest, hturn, rfl, hback⟩ := Bridge.does_ask_bind_iff.mp h
    have hfree : w.lookup r name = none := by simpa using habsent
    have hloaded := Checks.loaded respects keyed hfree hturn
    suffices hrest : Checks r name u rest v ∧ loads rest = [] by
      refine ⟨hloaded.append hrest.1, ?_⟩
      change (loads ([.asked (.loadModule e name) w answer u] ++ rest)).length ≤ 1
      rw [loads_append, hrest.2]
      exact Nat.le_refl _
    cases answer with
    | error error =>
        obtain ⟨rfl, rfl, rfl⟩ := hback
        exact ⟨.nil hloaded.keyed, rfl⟩
    | ok handle =>
        replace hback := Bridge.does_contains_bind_iff.mp hback
        split at hback
        · rename_i habsent
          -- What the load has registered would be found here.
          have hfree : u.lookup r name = none := by simpa using habsent
          obtain ⟨made, _, n, _, rfl, hmade, rfl, rfl, rfl⟩ := Bridge.does_bind_iff.mp hback
          obtain ⟨rfl, rfl, rfl⟩ := makeForeign_does hmade
          rw [List.append_nil]
          exact ⟨.making hloaded.keyed hfree, loads_making ..⟩
        · obtain ⟨rfl, rfl, rfl⟩ := hback
          exact ⟨.nil hloaded.keyed, rfl⟩

end Access

/-- A node that is there, with its registry and its name. -/
structure NodeId.Stands (n : NodeId) (r : RegistryId) (owner : String) (w : World) : Prop where
  here : n.index < w.nodes.next
  registry : (w.node n).registry = r
  name : (w.node n).name = owner

theorem NodeId.Stands.evolve {n : NodeId} {r : RegistryId} {owner : String} {w v : World}
    (h : n.Stands r owner w) (evolves : w.Evolves v) : n.Stands r owner v where
  here := Nat.lt_of_lt_of_le h.here evolves.next
  registry := (evolves.registry h.here).trans h.registry
  name := (evolves.name h.here).trans h.name

/-- Whether a value is the node that is registered under a name, and that name is bound. -/
def NodeId.Serves (n : NodeId) (r : RegistryId) (attr name : String) (value : Value)
    (w : World) : Prop :=
  ∃ m, value = .node m ∧ w.lookup r name = some m ∧
    (w.node n).cache[attr]? = some (.submodule name)

theorem NodeId.serves_bindSubmodule {n m : NodeId} {r : RegistryId} {attr name : String}
    {w : World} (hlookup : w.lookup r name = some m) :
    n.Serves r attr name (.node m) (w.bindSubmodule n attr name) := by
  refine ⟨m, rfl, hlookup, ?_⟩
  rw [World.node_bindSubmodule_self]
  exact Std.ExtTreeMap.getElem?_insert_self

section Strategies

variable {turn : Turn} {r : RegistryId} {n : NodeId} {attr owner name : String} {w v : World}
  {deeds : List Deed}

theorem serve_checks {m : NodeId} {result : Resolution} (keyed : w.KeyedByName r)
    (hlookup : w.lookup r name = some m)
    (h : (do n.bindSubmodule attr name
             return .found (.node m) : Bridge Resolution).Does turn w deeds result v) :
    Checks r name w deeds v ∧ loads deeds = [] ∧
      ∀ value, result = .found value → n.Serves r attr name value v := by
  have hbound := w.evolves_bindSubmodule n attr name
  obtain ⟨rfl, rfl, rfl⟩ : deeds = [.wrote w (w.bindSubmodule n attr name)] ∧
      result = .found (.node m) ∧ v = w.bindSubmodule n attr name := by
    obtain ⟨_, rfl, rfl, rfl, rfl⟩ := h
    exact ⟨rfl, rfl, rfl⟩
  refine ⟨.wroteElsewhere keyed hbound rfl (.nil (keyed.of_registries hbound rfl)), rfl, ?_⟩
  intro value hvalue
  obtain rfl := Resolution.found.inj hvalue
  exact NodeId.serves_bindSubmodule hlookup

theorem adopt_checks {e : EnquirerId} {result : Resolution} (keyed : w.KeyedByName r)
    (h : (n.adopt r e attr name).Does turn w deeds result v) :
    Checks r name w deeds v ∧ loads deeds = [] ∧
      ∀ value, result = .found value → n.Serves r attr name value v := by
  replace h := Bridge.does_get_bind_iff.mp h
  split at h
  · obtain ⟨rfl, rfl, rfl⟩ := h
    exact ⟨.nil keyed, rfl, nofun⟩
  · rename_i child hlookup
    replace h := Bridge.does_world_bind_iff.mp h
    obtain ⟨_, serving, _, _, rfl, hpatch, hserve⟩ := Bridge.does_bind_iff.mp h
    have hchild : w.lookup r (w.node child).name = some child := by
      rw [keyed.name_eq hlookup]
      exact hlookup
    obtain ⟨rfl, rfl⟩ := patch_does hchild hpatch
    have hlinked := w.evolves_link child (w.node n).loader (some e)
    have hkeyed := keyed.of_registries hlinked rfl
    obtain ⟨hserving, hnone, hserves⟩ := serve_checks hkeyed hlookup hserve
    refine ⟨?_, hnone, hserves⟩
    exact .wroteElsewhere keyed hlinked rfl
      (.reported (.wroteElsewhere hkeyed (.refl _) rfl hserving))

variable (respects : turn.KeepsKeys r)

include respects

theorem promote_checks {e : EnquirerId} {result : Except ImportError Resolution}
    (keyed : w.KeyedByName r)
    (h : (do match ← NodeId.ensureLoaded r e name with
             | .error error => return .error (.foreign error)
             | .ok () => return .ok (← n.adopt r e attr name) :
          Bridge (Except ImportError Resolution)).Does turn w deeds result v) :
    Checks r name w deeds v ∧ (loads deeds).length ≤ 1 ∧
      ∀ value, result = .ok (.found value) → n.Serves r attr name value v := by
  obtain ⟨front, back, reply, u, rfl, hload, hback⟩ := Bridge.does_bind_iff.mp h
  obtain ⟨hfront, hfew⟩ := ensureLoaded_checks respects keyed hload
  split at hback
  · obtain ⟨rfl, rfl, rfl⟩ := hback
    rw [List.append_nil]
    exact ⟨hfront, hfew, nofun⟩
  · obtain ⟨adopting, _, resolution, _, rfl, hadopt, rfl, rfl, rfl⟩ := Bridge.does_bind_iff.mp hback
    obtain ⟨hadopting, hnone, hserves⟩ := adopt_checks hfront.keyed hadopt
    rw [List.append_nil, loads_append, hnone, List.append_nil]
    refine ⟨hfront.append hadopting, hfew, fun value hvalue => hserves value ?_⟩
    exact Except.ok.inj hvalue

variable (stands : n.Stands r owner w) (keyed : w.KeyedByName r)

include stands keyed

theorem foreignModule_checks {result : Except ImportError Resolution}
    (h : (n.foreignModule attr).Does turn w deeds result v) :
    Checks r (childName owner attr) w deeds v ∧ (loads deeds).length ≤ 1 ∧
      ∀ value, result = .ok (.found value) → n.Serves r attr (childName owner attr) value v := by
  replace h := Bridge.does_world_bind_iff.mp h
  dsimp only at h
  rw [stands.name] at h
  split at h
  · obtain ⟨rfl, rfl, rfl⟩ := h
    exact ⟨.nil keyed, Nat.zero_le _, nofun⟩
  · rename_i e _
    obtain ⟨front, back, known, u, rfl, hknows, hback⟩ := Bridge.does_bind_iff.mp h
    have hobeys : (Host.knowsModule e (childName owner attr)).Obeys .looking :=
      Host.obeys_knowsModule Rule.allowsLooking_looking.asks e _
    obtain ⟨hfront, hnone⟩ := hknows.checks_of_looking respects (hobeys w) keyed
    suffices hrest : Checks r (childName owner attr) u back v ∧ (loads back).length ≤ 1 ∧
        ∀ value, result = .ok (.found value) →
          n.Serves r attr (childName owner attr) value v by
      refine ⟨hfront.append hrest.1, ?_, hrest.2.2⟩
      rw [loads_append, hnone]
      exact hrest.2.1
    split at hback
    · replace hback := Bridge.does_world_bind_iff.mp hback
      split at hback
      · obtain ⟨rfl, rfl, rfl⟩ := hback
        exact ⟨.nil hfront.keyed, Nat.zero_le _, nofun⟩
      · rename_i r' hr'
        obtain rfl : r = r' :=
          (stands.evolve hfront.evolves).registry.symm.trans (World.registry_of_registryOf hr')
        obtain ⟨inner, x, rfl, hbody, rfl⟩ := Bridge.does_holding_iff.mp hback
        have hheld : (u.hold (.registry r)).KeyedByName r :=
          hfront.keyed.of_registries (.of_nodes rfl) rfl
        obtain ⟨hinner, hfew, hserves⟩ := promote_checks respects hheld hbody
        have hreleased : Checks r (childName owner attr) x [.wrote x (x.release (.registry r))]
            (x.release (.registry r)) :=
          .wroteElsewhere hinner.keyed (.of_nodes rfl) rfl
            (.nil (hinner.keyed.of_registries (.of_nodes rfl) rfl))
        refine ⟨.wroteElsewhere hfront.keyed (.of_nodes rfl) rfl (hinner.append hreleased), ?_,
          hserves⟩
        simpa using hfew
    · obtain ⟨rfl, rfl, rfl⟩ := hback
      exact ⟨.nil hfront.keyed, Nat.zero_le _, nofun⟩

theorem subPackage_checks {result : Resolution}
    (h : (n.subPackage attr).Does turn w deeds result v) :
    Checks r (childName owner attr) w deeds v ∧ loads deeds = [] ∧
      ∀ value, result = .found value → n.Serves r attr (childName owner attr) value v := by
  replace h := Bridge.does_world_bind_iff.mp h
  dsimp only at h
  rw [stands.name] at h
  split at h
  · obtain ⟨rfl, rfl, rfl⟩ := h
    exact ⟨.nil keyed, rfl, nofun⟩
  · rename_i e _
    obtain ⟨front, back, known, u, rfl, hlists, hback⟩ := Bridge.does_bind_iff.mp h
    have hobeys : (Host.subPackages e owner).Obeys .looking :=
      Bridge.obeys_ask (Rule.allowsLooking_looking.asks (.subPackages e owner) rfl)
    obtain ⟨hfront, hnone⟩ := hlists.checks_of_looking respects (hobeys w) keyed
    suffices hrest : Checks r (childName owner attr) u back v ∧ loads back = [] ∧
        ∀ value, result = .found value → n.Serves r attr (childName owner attr) value v by
      refine ⟨hfront.append hrest.1, ?_, hrest.2.2⟩
      rw [loads_append, hnone]
      exact hrest.2.1
    split at hback
    · replace hback := Bridge.does_world_bind_iff.mp hback
      split at hback
      · obtain ⟨rfl, rfl, rfl⟩ := hback
        exact ⟨.nil hfront.keyed, rfl, nofun⟩
      · rename_i r' hr'
        obtain rfl : r = r' :=
          (stands.evolve hfront.evolves).registry.symm.trans (World.registry_of_registryOf hr')
        split at hback
        · rename_i child hlookup
          exact serve_checks hfront.keyed hlookup hback
        · rename_i hfree
          obtain ⟨_, serving, child, _, rfl, hmake, hserve⟩ := Bridge.does_bind_iff.mp hback
          obtain ⟨rfl, rfl, rfl⟩ := makeLoaded_does hmake
          let node := Node.bridge (childName owner attr) r (u.node n).loader (some e)
          have hmaking : Checks r (childName owner attr) u (u.making node) (u.addRegistered node) :=
            .making hfront.keyed hfree
          obtain ⟨hserving, hnone, hserves⟩ :=
            serve_checks hmaking.keyed (u.lookup_addRegistered_self _) hserve
          refine ⟨hmaking.append hserving, ?_, hserves⟩
          rw [loads_append, loads_making, hnone]
          rfl
    · obtain ⟨rfl, rfl, rfl⟩ := hback
      exact ⟨.nil hfront.keyed, rfl, nofun⟩

/-- Whether a strategy makes nodes. -/
def Strategy.Makes (strategy : Strategy) : Prop :=
  strategy = .foreignModule ∨ strategy = .subPackage

theorem apply_checks {strategy : Strategy} {result : Except ImportError Resolution}
    (h : (strategy.apply n attr).Does turn w deeds result v) :
    Checks r (childName owner attr) w deeds v ∧
      (loads deeds).length ≤ [strategy].count .foreignModule ∧
      (strategy.Makes → ∀ value, result = .ok (.found value) →
        n.Serves r attr (childName owner attr) value v) := by
  by_cases hmodule : strategy = .foreignModule
  · subst hmodule
    obtain ⟨hchecks, hfew, hserves⟩ := foreignModule_checks respects stands keyed h
    exact ⟨hchecks, hfew, fun _ => hserves⟩
  by_cases hpackage : strategy = .subPackage
  · subst hpackage
    obtain ⟨_, _, resolution, _, rfl, hsub, rfl, rfl, rfl⟩ := Bridge.does_bind_iff.mp h
    obtain ⟨hchecks, hnone, hserves⟩ := subPackage_checks respects stands keyed hsub
    rw [List.append_nil, hnone]
    exact ⟨hchecks, Nat.zero_le _, fun _ value hvalue => hserves value (Except.ok.inj hvalue)⟩
  have hobeys := n.obeys_apply_of_looking attr Rule.allowsLooking_looking ⟨hmodule, hpackage⟩
  obtain ⟨hchecks, hnone⟩ := h.checks_of_looking respects (hobeys w) keyed
  rw [hnone]
  exact ⟨hchecks, Nat.zero_le _, fun hmakes => absurd hmakes (by simp [Strategy.Makes, *])⟩

end Strategies

/-- The rule of what reports no attribute to be found. -/
def Rule.withoutFinding : Rule where
  asks _ := True
  reports event := event.strategy? = none
  writes _ _ := True

theorem Rule.allowsFinding_withoutFinding : Rule.withoutFinding.AllowsFinding where
  bind _ _ _ _ := trivial
  unbind _ _ _ := trivial
  bridge _ _ _ _ _ := trivial
  backed _ _ _ _ := trivial
  register _ _ _ _ := trivial
  link _ _ _ _ := trivial
  hold _ _ := trivial
  release _ _ := trivial
  asks _ _ := trivial
  reports _ h := h
  loads _ _ := trivial

section Resolution

variable {turn : Turn} {r : RegistryId} {n : NodeId} {attr owner : String} {w v : World}
  {deeds : List Deed}

/-- Only the resolution itself reports that a strategy has found something. -/
theorem not_reported_of_apply {strategy found : Strategy} {result : Except ImportError Resolution}
    {name name' : String} (h : (strategy.apply n attr).Does turn w deeds result v) :
    .reported (.attributeResolved name name' found) ∉ deeds := by
  intro hmem
  have hobeys := n.obeys_apply attr Rule.allowsFinding_withoutFinding strategy
  have hallowed : Event.strategy? (.attributeResolved name name' found) = none :=
    h.allowed (hobeys w) _ hmem
  cases hallowed

/-- The strategy that is reported to have found something. -/
def Deed.strategy? : Deed → Option Strategy
  | .reported event => event.strategy?
  | _ => none

theorem exists_reported_of_mem {strategy : Strategy}
    (hmem : strategy ∈ deeds.filterMap Deed.strategy?) :
    ∃ name name', .reported (.attributeResolved name name' strategy) ∈ deeds := by
  obtain ⟨deed, hdeed, hstrategy⟩ := List.mem_filterMap.mp hmem
  cases deed with
  | reported event =>
      cases event with
      | attributeResolved name name' found =>
          obtain rfl := Option.some.inj hstrategy
          exact ⟨name, name', hdeed⟩
      | _ => cases hstrategy
  | _ => cases hstrategy

theorem resolveBy_checks (respects : turn.KeepsKeys r) {strategies : List Strategy}
    {result : Except ImportError Value} (stands : n.Stands r owner w) (keyed : w.KeyedByName r)
    (h : (n.resolveBy attr strategies).Does turn w deeds result v) :
    Checks r (childName owner attr) w deeds v ∧
      (loads deeds).length ≤ strategies.count .foreignModule ∧
      ∀ name name' strategy, .reported (.attributeResolved name name' strategy) ∈ deeds →
        strategy.Makes → ∃ value, result = .ok value ∧
          n.Serves r attr (childName owner attr) value v := by
  induction strategies generalizing w deeds with
  | nil =>
      obtain ⟨_, rfl, rfl, rfl, rfl⟩ := h
      refine ⟨.reported (.nil keyed), Nat.zero_le _, ?_⟩
      simp
  | cons strategy others ih =>
      obtain ⟨front, back, reply, u, rfl, happly, hback⟩ := Bridge.does_bind_iff.mp h
      obtain ⟨hfront, hfew, hserves⟩ := apply_checks respects stands keyed happly
      suffices hrest : Checks r (childName owner attr) u back v ∧
          (loads back).length ≤ others.count .foreignModule ∧
          ∀ name name' strategy, .reported (.attributeResolved name name' strategy) ∈ back →
            strategy.Makes → ∃ value, result = .ok value ∧
              n.Serves r attr (childName owner attr) value v by
        obtain ⟨hchecks, hcount, hfound⟩ := hrest
        refine ⟨hfront.append hchecks, ?_, fun name name' found hmem => ?_⟩
        · rw [loads_append, List.length_append, ← List.singleton_append, List.count_append]
          exact Nat.add_le_add hfew hcount
        · rcases List.mem_append.mp hmem with hmem | hmem
          · exact absurd hmem (not_reported_of_apply happly)
          · exact hfound name name' found hmem
      split at hback
      · rename_i value
        split at hback
        · obtain ⟨_, rfl, rfl, rfl, rfl⟩ := hback
          refine ⟨.reported (.nil hfront.keyed), Nat.zero_le _, fun _ _ found hmem hmakes => ?_⟩
          obtain ⟨-, -, rfl⟩ := by simpa using hmem
          exact ⟨value, rfl, hserves hmakes value rfl⟩
        · obtain ⟨rfl, rfl, rfl⟩ := hback
          exact ⟨.nil hfront.keyed, Nat.zero_le _, by simp⟩
      · exact ih (stands.evolve hfront.evolves) hfront.keyed hback
      · split at hback
        · obtain ⟨rest, rfl, hothers⟩ := hback
          obtain ⟨hchecks, hcount, hfound⟩ :=
            ih (stands.evolve hfront.evolves) hfront.keyed hothers
          refine ⟨.reported hchecks, hcount, fun name name' found hmem => ?_⟩
          exact hfound name name' found (by simpa using hmem)
        · obtain ⟨rfl, rfl, rfl⟩ := hback
          exact ⟨.nil hfront.keyed, Nat.zero_le _, by simp⟩

/-- Whatever the host does in its turns, an access never puts a node in the place of another, loads
at most one module, and that one only while its name is free, and yields a child that it finds by
making nodes as the node that is registered by then, with its name bound. -/
theorem getAttr_checks_before_making {result : Except ImportError Value}
    (respects : turn.KeepsKeys (w.node n).registry) (here : n.index < w.nodes.next)
    (keyed : w.KeyedByName (w.node n).registry)
    (h : (n.getAttr attr).Does turn w deeds result v) :
    let r := (w.node n).registry
    let name := childName (w.node n).name attr
    (∀ before after, .wrote before after ∈ deeds → before.KeepsRegistered after) ∧
      (loads deeds).length ≤ 1 ∧
      (∀ load ∈ loads deeds, load.name = name ∧ load.world.lookup r name = none) ∧
      ∀ owner attr' strategy, .reported (.attributeResolved owner attr' strategy) ∈ deeds →
        strategy = .foreignModule ∨ strategy = .subPackage →
        ∃ m, result = .ok (.node m) ∧ v.lookup r name = some m ∧
          (v.node n).cache[attr]? = some (.submodule name) := by
  intro r name
  obtain ⟨hchecks, hfew, hfound⟩ := resolveBy_checks respects ⟨here, rfl, rfl⟩ keyed h
  refine ⟨fun _ _ => hchecks.keeps, hfew, fun _ => hchecks.free, ?_⟩
  intro owner attr' strategy hreported hmakes
  obtain ⟨_, hresult, m, rfl, hlookup, hcache⟩ := hfound owner attr' strategy hreported hmakes
  exact ⟨m, hresult, hlookup, hcache⟩

/-- The host that knows the module `pkg.mod`, and registers it by itself while it is asked to load
it. -/
def ActingHost.registering : ActingHost
  | _, w, .loadModule .. =>
    (.ok ⟨7⟩, if w.lookup .processWide "pkg.mod" = none then
      w.addRegistered (.foreignBacked "pkg.mod" .processWide ⟨8⟩) else w)
  | _, w, question => (FixedHost.knowing "pkg.mod" ⟨7⟩ question, w)

theorem turn_registering (said : List Exchange) (w : World) (question : Query) :
    Conduct.addingQuietly.turn question w (ActingHost.registering said w question).1
      (ActingHost.registering said w question).2 := by
  cases question with
  | loadModule e name =>
      refine ⟨?_, trivial⟩
      rw [ActingHost.registering]
      split
      · rename_i hfree
        exact exists_session_registering hfree (by decide)
      · exact ⟨[], .done w⟩
  | isModule e name =>
      refine ⟨⟨[], .done w⟩, ?_⟩
      change Conduct.addingQuietly.answers (.isModule e name) w (name == "pkg.mod") w
      cases name == "pkg.mod" with
      | true => trivial
      | false => rfl
  | loadsModules e => exact ⟨⟨[], .done w⟩, rfl⟩
  | _ => exact ⟨⟨[], .done w⟩, trivial⟩

theorem getAttr_checks_before_making_adding :
    let turn := Conduct.addingQuietly.turn
    let w := World.withImported
    let n : NodeId := ⟨0⟩
    let host := ActingHost.registering
    let deeds := (n.getAttr "mod").deedsWith host [] w
    let c := (n.getAttr "mod").attend host [] w
    (turn.KeepsKeys (w.node n).registry ∧ n.index < w.nodes.next ∧
        w.KeyedByName (w.node n).registry) ∧
      (n.getAttr "mod").Does turn w deeds c.result c.world ∧
      (∀ before after, .wrote before after ∈ deeds → before.KeepsRegistered after) ∧
      (loads deeds).map Load.name = ["pkg.mod"] ∧
      (∀ load ∈ loads deeds, load.world.lookup .processWide "pkg.mod" = none) ∧
      deeds.filterMap Deed.strategy? = [.foreignModule] ∧
      ∃ m, c.result = .ok (.node m) ∧ c.world.lookup .processWide "pkg.mod" = some m ∧
        (c.world.node m).handle = some ⟨8⟩ ∧
        (c.world.node n).cache["mod"]? = some (.submodule "pkg.mod") := by
  intro turn w n host deeds c
  have respects : turn.KeepsKeys .processWide :=
    Conduct.keepsKeys fun hsession hkeyed => (hsession.sound (identity_fulfilled
      addsOnly_addingQuietly (deniesQuietly_addingQuietly _)) hkeyed).1
  have here : n.index < w.nodes.next := by decide
  have keyed : w.KeyedByName .processWide :=
    (World.KeyedByName.of_empty fun _ => rfl).addRegistered _
  have hdoes : (n.getAttr "mod").Does turn w deeds c.result c.world :=
    Bridge.does_attend turn_registering (n.getAttr "mod") [] w
  have hstrategy : deeds.filterMap Deed.strategy? = [.foreignModule] := by decide +kernel
  obtain ⟨_, _, hreported⟩ := exists_reported_of_mem (hstrategy ▸ List.mem_singleton_self _)
  obtain ⟨hkeeps, -, hfree, hfound⟩ := getAttr_checks_before_making respects here keyed hdoes
  obtain ⟨m, hm, hthere, hbound⟩ := hfound _ _ _ hreported (.inl rfl)
  have hhandle : (c.world.lookup .processWide "pkg.mod").bind
      (fun m => (c.world.node m).handle) = some ⟨8⟩ := by decide +kernel
  rw [show c.world.lookup .processWide "pkg.mod" = some m from hthere] at hhandle
  refine ⟨⟨respects, here, keyed⟩, hdoes, hkeeps, by decide +kernel, fun load hload => ?_,
    hstrategy, m, hm, hthere, hhandle, hbound⟩
  exact (hfree load hload).2

end Resolution

end ForeignNamespace
