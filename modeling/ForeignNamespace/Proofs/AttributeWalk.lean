import ForeignNamespace.Proofs.ClassListIndex
import ForeignNamespace.Proofs.ImportByPrefix

namespace ForeignNamespace

section Strategies

variable {host : FixedHost} {w w' : World} {n : NodeId} {attr : String} {asked back : List Query}

theorem resolveBy_gives_found {strategy : Strategy} {others : List Strategy} {value : Value}
    (h : (strategy.apply n attr).Gives host w asked (.ok (.found value)) w') :
    (n.resolveBy attr (strategy :: others)).Gives host w asked (.ok value) w' := by
  refine h.before ?_
  change Bridge.Gives host (if strategy ≠ .cache then _ else _) w' [] _ w'
  split
  · exact (Bridge.gives_world w').then ((Bridge.gives_report _ w').then (Bridge.gives_pure _ w'))
  · exact Bridge.gives_pure _ w'

theorem resolveBy_gives_passed {strategy : Strategy} {others : List Strategy}
    {result : Except ImportError Value}
    (h : (strategy.apply n attr).Gives host w asked (.ok .notFound) w)
    (rest : (n.resolveBy attr others).Gives host w back result w') :
    (n.resolveBy attr (strategy :: others)).Gives host w (asked ++ back) result w' :=
  h.bind rest

/-- A strategy that asks nothing and has nothing to say. -/
theorem resolveBy_gives_skipped {strategy : Strategy} {others : List Strategy}
    {result : Except ImportError Value}
    (h : (strategy.apply n attr).Gives host w [] (.ok .notFound) w)
    (rest : (n.resolveBy attr others).Gives host w back result w') :
    (n.resolveBy attr (strategy :: others)).Gives host w back result w' :=
  h.then rest

theorem cached_gives_none (host : FixedHost) (unbound : (w.node n).cache[attr]? = none) :
    (n.cached? attr).Gives host w [] none w := by
  refine (Bridge.gives_world w).then ?_
  simp only [unbound]
  exact Bridge.gives_pure none w

theorem cached_gives_submodule (host : FixedHost) {name : String} {m : NodeId}
    (live : w.isAlive (.registry (w.node n).registry))
    (bound : (w.node n).cache[attr]? = some (.submodule name))
    (there : w.lookup (w.node n).registry name = some m) :
    (n.cached? attr).Gives host w [] (some (.node m)) w := by
  refine (Bridge.gives_world w).then ?_
  simp only [bound, World.registryOf?, live, if_true, Option.bind_some, there]
  exact Bridge.gives_pure _ w

theorem getAttr_gives_bound (host : FixedHost) {name : String} {m : NodeId}
    (live : w.isAlive (.registry (w.node n).registry))
    (bound : (w.node n).cache[attr]? = some (.submodule name))
    (there : w.lookup (w.node n).registry name = some m) :
    (n.getAttr attr).Gives host w [] (.ok (.node m)) w := by
  have hcached := cached_gives_submodule host live bound there
  exact resolveBy_gives_found (hcached.then (Bridge.gives_pure _ w))

theorem delegate_gives_passed (host : FixedHost) (attr : String)
    (bridgeOnly : (w.node n).handle = none) :
    (n.delegate attr).Gives host w [] (.ok .notFound) w := by
  refine (Bridge.gives_world w).then ?_
  simp only [bridgeOnly]
  exact Bridge.gives_pure _ w

theorem metadata_of_not_mem (h : attr ∉ Node.metadataNames) (name : String) (config : Config) :
    Node.metadata? name config attr = none := by
  simp only [Node.metadataNames, List.mem_cons, List.not_mem_nil, or_false, not_or] at h
  simp [Node.metadata?, h]

theorem native_gives_passed (host : FixedHost) (plain : attr ∉ Node.metadataNames) :
    (n.native attr).Gives host w [] .notFound w := by
  refine (Bridge.gives_world w).then ?_
  simp only [metadata_of_not_mem plain]
  split
  · exact Bridge.gives_pure _ w
  · exact Bridge.gives_pure _ w

/-- A node without a handle finds nothing before foreign modules are tried, if nothing is bound. -/
theorem getAttr_gives_behind_native {result : Except ImportError Value}
    (unbound : (w.node n).cache[attr]? = none) (bridgeOnly : (w.node n).handle = none)
    (plain : attr ∉ Node.metadataNames)
    (rest : (n.resolveBy attr [.foreignModule, .subPackage, .exportMarker, .terminal]).Gives host w
      asked result w') : (n.getAttr attr).Gives host w asked result w' := by
  have hcache : (Strategy.cache.apply n attr).Gives host w [] (.ok .notFound) w :=
    (cached_gives_none host unbound).then (Bridge.gives_pure _ w)
  have hnative : (Strategy.native.apply n attr).Gives host w [] (.ok .notFound) w :=
    (native_gives_passed host plain).then (Bridge.gives_pure _ w)
  exact resolveBy_gives_skipped hcache (resolveBy_gives_skipped
    (delegate_gives_passed host attr bridgeOnly) (resolveBy_gives_skipped hnative rest))

theorem foreignModule_gives_passed {e : EnquirerId} (has : (w.node n).enquirer = some e)
    (unknown : host.knowsModule e (childName (w.node n).name attr) = false) :
    (n.foreignModule attr).Gives host w
      (host.moduleQuestions e (childName (w.node n).name attr)) (.ok .notFound) w := by
  refine (Bridge.gives_world w).then ?_
  simp only [has]
  refine (knowsModule_gives host e _ w).before ?_
  rw [unknown]
  exact Bridge.gives_pure _ w

theorem ensureLoaded_gives {r : RegistryId} {e : EnquirerId} {name : String} {o : ObjectId}
    (absent : w.lookup r name = none) (loads : host.loadModule e name = .ok o) :
    (NodeId.ensureLoaded r e name).Gives host w [.loadModule e name] (.ok ())
      (w.addRegistered (.foreignBacked name r o)) := by
  refine ((Bridge.gives_world w).then (Bridge.gives_pure _ w)).then ?_
  simp only [absent, Option.isSome_none, Bool.false_eq_true, if_false]
  refine (Bridge.gives_answer loads w).before ?_
  refine ((Bridge.gives_world w).then (Bridge.gives_pure _ w)).then ?_
  simp only [absent, Option.isSome_none, Bool.not_false, if_true]
  exact (makeForeign_gives host r name o w).then (Bridge.gives_pure _ _)

theorem adopt_gives (host : FixedHost) (n : NodeId) (attr : String) {r : RegistryId}
    {name : String} {child : NodeId} (e : EnquirerId) (there : w.lookup r name = some child)
    (named : (w.node child).name = name) :
    (n.adopt r e attr name).Gives host w [] (.found (.node child))
      ((w.link child (w.node n).loader (some e)).bindSubmodule n attr name) := by
  refine ((Bridge.gives_world w).then (Bridge.gives_pure _ w)).then ?_
  simp only [there]
  refine (Bridge.gives_world w).then ?_
  refine (patch_gives host (by rw [named]; exact there) _ _).then ?_
  exact (bindSubmodule_gives host n attr name _).then (Bridge.gives_pure _ _)

/-- Loading a module that is not registered and taking its node over. -/
theorem promote_gives (n : NodeId) (attr : String) {r : RegistryId} {e : EnquirerId}
    {name : String} {o : ObjectId}
    (here : n.index < w.nodes.next) (absent : w.lookup r name = none)
    (loads : host.loadModule e name = .ok o) :
    (do match ← NodeId.ensureLoaded r e name with
        | .error error => return .error (.foreign error)
        | .ok () => return .ok (← n.adopt r e attr name) :
      Bridge (Except ImportError Resolution)).Gives host w [.loadModule e name]
      (.ok (.found (.node w.nextNode)))
      ((w.addRegistered { Node.foreignBacked name r o with
        loader := (w.node n).loader, enquirer := some e }).bindSubmodule n attr name) := by
  refine (ensureLoaded_gives absent loads).before ?_
  have hnew : ((w.addRegistered (.foreignBacked name r o)).node w.nextNode).name = name := by
    rw [World.node_addRegistered_self]
    rfl
  have hthere : (w.addRegistered (.foreignBacked name r o)).lookup r name = some w.nextNode :=
    w.lookup_addRegistered_self (.foreignBacked name r o)
  have hadopt := adopt_gives host n attr e hthere hnew
  rw [World.link_addRegistered, World.node_addRegistered_of_lt w here] at hadopt
  exact hadopt.then (Bridge.gives_pure _ _)

theorem foreignModule_gives_made {e : EnquirerId} {o : ObjectId}
    (live : w.isAlive (.registry (w.node n).registry)) (here : n.index < w.nodes.next)
    (has : (w.node n).enquirer = some e)
    (known : host.knowsModule e (childName (w.node n).name attr) = true)
    (loads : host.loadModule e (childName (w.node n).name attr) = .ok o)
    (absent : w.lookup (w.node n).registry (childName (w.node n).name attr) = none) :
    (n.foreignModule attr).Gives host w
      (host.moduleQuestions e (childName (w.node n).name attr) ++
        [.loadModule e (childName (w.node n).name attr)])
      (.ok (.found (.node w.nextNode)))
      ((w.addRegistered
        { Node.foreignBacked (childName (w.node n).name attr) (w.node n).registry o with
          loader := (w.node n).loader, enquirer := some e }).bindSubmodule n attr
            (childName (w.node n).name attr)) := by
  refine (Bridge.gives_world w).then ?_
  simp only [has]
  refine (knowsModule_gives host e _ w).bind ?_
  rw [known]
  refine (Bridge.gives_world w).then ?_
  simp only [World.registryOf?, live, if_true]
  have hpromote := promote_gives n attr
    (show n.index < (w.hold (.registry (w.node n).registry)).nodes.next from here) absent loads
  exact hpromote.holding

theorem subPackage_gives_made {e : EnquirerId}
    (live : w.isAlive (.registry (w.node n).registry)) (has : (w.node n).enquirer = some e)
    (listed : attr ∈ (host.subPackages e (w.node n).name).getD [])
    (absent : w.lookup (w.node n).registry (childName (w.node n).name attr) = none) :
    (n.subPackage attr).Gives host w [.subPackages e (w.node n).name]
      (.found (.node w.nextNode))
      ((w.addRegistered (.bridge (childName (w.node n).name attr) (w.node n).registry
        (w.node n).loader (some e))).bindSubmodule n attr
          (childName (w.node n).name attr)) := by
  refine (Bridge.gives_world w).then ?_
  simp only [has]
  refine (Bridge.gives_ask (.subPackages e (w.node n).name) w).before ?_
  change Bridge.Gives host (if ((host.subPackages e (w.node n).name).getD []).contains attr = true
    then _ else _) w [] _ _
  rw [if_pos (List.contains_iff_mem.mpr listed)]
  refine (Bridge.gives_world w).then ?_
  simp only [World.registryOf?, live, if_true, absent]
  refine (makeLoaded_gives host _ _ _ _ w).then ?_
  exact (bindSubmodule_gives host n attr _ _).then (Bridge.gives_pure _ _)

end Strategies

/-- Whether a host answers the questions to an enquirer from a list. -/
structure ClassList.Answers (l : ClassList) (host : FixedHost) (e : EnquirerId) : Prop where
  isPackage : ∀ name, host.isPackage e name = l.isPackage name
  subPackages : ∀ name, host.subPackages e name = l.subPackages? name
  classNames : ∀ name, host (.classNames e name) = l.classNames? name
  loadsModules : host.loadsModules e = l.loadsModules
  isModule : ∀ name, host.isModule e name = l.isModule name
  loadModule : ∀ name, host.loadModule e name = l.loadModule name

/-- A host that knows the names of a list and nothing else. -/
def ClassList.host (l : ClassList) : FixedHost
  | .isPackage _ name => l.isPackage name
  | .subPackages _ name => l.subPackages? name
  | .classNames _ name => l.classNames? name
  | .loadsModules _ => l.loadsModules
  | .isModule _ name => l.isModule name
  | .loadModule _ name => l.loadModule name
  | question => FixedHost.ignorant question

namespace ClassList

theorem answers_host (l : ClassList) (e : EnquirerId) : l.Answers l.host e where
  isPackage _ := rfl
  subPackages _ := rfl
  classNames _ := rfl
  loadsModules := rfl
  isModule _ := rfl
  loadModule _ := rfl

variable {l : ClassList} {host : FixedHost} {w : World} {i : ImporterId} {name : String}

theorem exists_loadModule (h : l.isModule name = true) : ∃ o, l.loadModule name = .ok o := by
  rw [isModule, Std.ExtTreeMap.contains_eq_isSome_getElem?] at h
  obtain ⟨o, ho⟩ := Option.isSome_iff_exists.mp h
  exact ⟨o, by rw [loadModule, ho]⟩

theorem loadsModules_of_isModule (h : l.isModule name = true) : l.loadsModules = true := by
  rw [loadsModules, Bool.not_eq_true', Std.ExtTreeMap.isEmpty_eq_false_iff]
  intro hempty
  rw [isModule, hempty] at h
  simp at h

theorem Answers.knowsModule {e : EnquirerId} (h : l.Answers host e) (name : String) :
    host.knowsModule e name = l.isModule name := by
  rw [FixedHost.knowsModule, h.loadsModules, h.isModule]
  cases hmodule : l.isModule name with
  | true => rw [loadsModules_of_isModule hmodule, Bool.and_self]
  | false => rw [Bool.and_false]

theorem Answers.makes (h : l.Answers host (w.importer i).enquirer)
    (known : l.isPackage name = true ∨ l.isModule name = true) :
    (∃ o, l.isModule name = true ∧ l.loadModule name = .ok o ∧
      w.makes host i name = .ok (w.moduleOf i name o)) ∨
      l.isModule name = false ∧ l.isPackage name = true ∧
        w.makes host i name = .ok (w.packageOf i name) := by
  rw [World.makes, h.knowsModule, h.loadModule, h.isPackage]
  cases hmodule : l.isModule name with
  | true =>
      obtain ⟨o, ho⟩ := exists_loadModule hmodule
      exact .inl ⟨o, rfl, ho, by rw [ho]; rfl⟩
  | false =>
      have hpackage := known.resolve_right (by simp [hmodule])
      exact .inr ⟨rfl, hpackage, by rw [hpackage]; rfl⟩

end ClassList

/-- Whether an importer has made the node of a package, which may keep something by now, and its
registry is there. -/
structure World.HoldsPackage (w : World) (i : ImporterId) (name : String) (n : NodeId) : Prop where
  registered : w.lookup (w.importer i).registry name = some n
  node : ∃ cache, w.node n = { w.packageOf i name with cache }
  live : w.isAlive (.registry (w.importer i).registry)
  named : w.KeyedByName (w.importer i).registry

namespace World.HoldsPackage

variable {w : World} {i : ImporterId} {name : String} {n : NodeId}

theorem name_eq (h : w.HoldsPackage i name n) : (w.node n).name = name :=
  h.named.name_eq h.registered

theorem lt_next (h : w.HoldsPackage i name n) : n.index < w.nodes.next :=
  h.named.lt_next h.registered

theorem handle (h : w.HoldsPackage i name n) : (w.node n).handle = none := by
  obtain ⟨cache, hnode⟩ := h.node
  rw [hnode]
  rfl

theorem registry (h : w.HoldsPackage i name n) :
    (w.node n).registry = (w.importer i).registry := by
  obtain ⟨cache, hnode⟩ := h.node
  rw [hnode]
  rfl

theorem loader (h : w.HoldsPackage i name n) : (w.node n).loader = some i := by
  obtain ⟨cache, hnode⟩ := h.node
  rw [hnode]
  rfl

theorem enquirer (h : w.HoldsPackage i name n) :
    (w.node n).enquirer = some (w.importer i).enquirer := by
  obtain ⟨cache, hnode⟩ := h.node
  rw [hnode]
  rfl

theorem live_node (h : w.HoldsPackage i name n) :
    w.isAlive (.registry (w.node n).registry) := by
  rw [h.registry]
  exact h.live

end World.HoldsPackage

/-- Whether an importer has made the node of a package, which keeps nothing so far, and its
registry is there. -/
structure World.HasPackage (w : World) (i : ImporterId) (name : String) (n : NodeId) : Prop where
  registered : w.lookup (w.importer i).registry name = some n
  node : w.node n = w.packageOf i name
  live : w.isAlive (.registry (w.importer i).registry)
  named : w.KeyedByName (w.importer i).registry

section Step

variable {host : FixedHost} {w : World} {i : ImporterId} {n : NodeId} {parent attr : String}

theorem World.HasPackage.holds (h : w.HasPackage i parent n) : w.HoldsPackage i parent n :=
  ⟨h.registered, ⟨_, h.node⟩, h.live, h.named⟩

theorem World.HasPackage.unbound (h : w.HasPackage i parent n) :
    (w.node n).cache[attr]? = none := by
  rw [h.node]
  exact Std.ExtTreeMap.getElem?_empty

/-- A load of a child binds it on the node of its parent. -/
theorem load_child {node : Node} (hparent : parent ≠ "") (hattr : '.' ∉ attr.toList)
    (there : w.lookup (w.importer i).registry parent = some n)
    (hmakes : w.makes host i (childName parent attr) = .ok node) :
    w.load host i (childName parent attr) =
      (w.addRegistered node).bindSubmodule n attr (childName parent attr) := by
  obtain ⟨hname, hregistry⟩ := name_of_makes hmakes
  have henclosing := parentPackage_childName hparent hattr
  rw [World.load_eq hmakes, World.bindOnParent, henclosing, Option.bind_some,
    World.lookup_parent_addRegistered _ hname henclosing, there, leafName_childName hattr]

/-- An access to a child that the list knows makes what an import of the child makes. -/
theorem getAttr_gives_made {names : List String} {modules : List (String × ObjectId)}
    (answers : (ClassList.build names modules).Answers host (w.importer i).enquirer)
    (h : w.HoldsPackage i parent n) (unbound : (w.node n).cache[attr]? = none)
    (hparent : parent ≠ "") (dotless : '.' ∉ attr.toList) (plain : attr ∉ Node.metadataNames)
    (absent : w.lookup (w.importer i).registry (childName parent attr) = none)
    (known : (ClassList.build names modules).isPackage (childName parent attr) = true ∨
      (ClassList.build names modules).isModule (childName parent attr) = true) :
    ∃ asked node, w.makes host i (childName parent attr) = .ok node ∧
      (n.getAttr attr).Gives host w asked (.ok (.node w.nextNode))
        (w.load host i (childName parent attr)) := by
  have absent' : w.lookup (w.node n).registry (childName (w.node n).name attr) = none := by
    rw [h.registry, h.name_eq]
    exact absent
  have hknows := answers.knowsModule (childName parent attr)
  rcases answers.makes known with ⟨o, hmodule, hloads, hmakes⟩ | ⟨hmodule, hpackage, hmakes⟩
  · have hstep := foreignModule_gives_made h.live_node h.lt_next h.enquirer
      (by rw [h.name_eq, hknows, hmodule]) (by rw [h.name_eq, answers.loadModule, hloads]) absent'
    rw [h.name_eq, h.registry, h.loader] at hstep
    rw [load_child hparent dotless h.registered hmakes]
    exact ⟨_, _, hmakes, getAttr_gives_behind_native unbound h.handle plain
      (resolveBy_gives_found hstep)⟩
  · have hpasses : (Strategy.foreignModule.apply n attr).Gives host w _ (.ok .notFound) w :=
      foreignModule_gives_passed h.enquirer (by rw [h.name_eq, hknows, hmodule])
    have hlisted : attr ∈ (host.subPackages (w.importer i).enquirer (w.node n).name).getD [] := by
      rw [h.name_eq, answers.subPackages]
      exact ClassList.mem_subPackages dotless hpackage
    have hstep := subPackage_gives_made h.live_node h.enquirer hlisted absent'
    rw [h.name_eq, h.registry, h.loader] at hstep
    rw [load_child hparent dotless h.registered hmakes]
    have hfound : (Strategy.subPackage.apply n attr).Gives host w _ (.ok (.found _)) _ :=
      hstep.before (Bridge.gives_pure _ _)
    exact ⟨_, _, hmakes, getAttr_gives_behind_native unbound h.handle plain
      (resolveBy_gives_passed hpasses (resolveBy_gives_found hfound))⟩

/-- The node of a name just loaded is the one that was made for it. -/
theorem node_load {name : String} {node : Node} (named : w.KeyedByName (w.importer i).registry)
    (hmakes : w.makes host i name = .ok node) :
    (w.load host i name).node w.nextNode = node := by
  obtain ⟨hname, hregistry⟩ := name_of_makes hmakes
  rw [World.load_eq hmakes]
  rcases (w.addRegistered node).bindOnParent_cases (w.importer i).registry name with
    heq | ⟨parent, m, hparent, hm, heq⟩
  · rw [heq, World.node_addRegistered_self]
  · rw [World.lookup_parent_addRegistered _ hname hparent] at hm
    have hother : m ≠ w.nextNode := by
      rintro rfl
      exact Nat.lt_irrefl _ (named.lt_next hm)
    rw [heq, World.bindSubmodule, World.node_updateNode_of_ne _ hother,
      World.node_addRegistered_self]

end Step

/-- Walks down from a node by attribute accesses; the answer is every node on the way. -/
def NodeId.walk (n : NodeId) : List String → Bridge (Except ImportError (List NodeId))
  | [] => return .ok [n]
  | attr :: attrs => do
    match ← n.getAttr attr with
    | .error error => return .error error
    | .ok (.node m) =>
      match ← m.walk attrs with
      | .error error => return .error error
      | .ok nodes => return .ok (n :: nodes)
    | .ok _ => return .error (.moduleNotFound attr)

section Walk

variable {host : FixedHost} {w w' : World} {n m : NodeId} {attr : String} {attrs : List String}

theorem walk_gives_step {asked back : List Query} {nodes : List NodeId} {v : World}
    (step : (n.getAttr attr).Gives host w asked (.ok (.node m)) v)
    (rest : (m.walk attrs).Gives host v back (.ok nodes) w') :
    (n.walk (attr :: attrs)).Gives host w (asked ++ back) (.ok (n :: nodes)) w' :=
  step.bind (rest.before (Bridge.gives_pure _ w'))

variable {i : ImporterId} {name : String}

theorem isAlive_load (h : Handle) : (w.load host i name).isAlive h = w.isAlive h := by
  rcases World.load_cases host i w name with h | ⟨node, h | ⟨n, h⟩⟩ <;> rw [h] <;> rfl

theorem lookup_foldl_load (host : FixedHost) {names : List String} (h : name ∉ names) :
    (names.foldl (World.load host i) w).lookup (w.importer i).registry name =
      w.lookup (w.importer i).registry name := by
  induction names generalizing w with
  | nil => rfl
  | cons first names ih =>
      rw [List.mem_cons, not_or] at h
      have hrest := ih (w := w.load host i first) h.2
      rw [World.importer_load] at hrest
      rw [List.foldl_cons, hrest]
      cases hmakes : w.makes host i first with
      | error error => rw [World.load, hmakes]
      | ok node => rw [World.lookup_load hmakes, if_neg (Ne.symm h.1)]

/-- The rest of the way to a name that can be reached through packages of a list. -/
structure ClassList.Way (l : ClassList) (name parent : String) (attrs : List String) : Prop where
  start : parent ≠ ""
  filled : "" ∉ attrs
  dotless : ∀ attr ∈ attrs, '.' ∉ attr.toList
  plain : ∀ attr ∈ attrs, attr ∉ Node.metadataNames
  last : (parent :: pathFrom parent attrs).getLast? = some name
  known : ∀ q ∈ pathFrom parent attrs, l.isPackage q = true ∨ l.isModule q = true
  proper : ∀ q ∈ pathFrom parent attrs, q ≠ name → l.isModule q = false

section Way

variable {l : ClassList} {parent : String}

theorem ClassList.Way.tail (h : l.Way name parent (attr :: attrs)) :
    l.Way name (childName parent attr) attrs where
  start := childName_ne_empty fun heq => h.filled (heq ▸ List.mem_cons_self)
  filled := fun hmem => h.filled (List.mem_cons_of_mem _ hmem)
  dotless := fun a ha => h.dotless a (List.mem_cons_of_mem _ ha)
  plain := fun a ha => h.plain a (List.mem_cons_of_mem _ ha)
  last := by
    have hlast := h.last
    rwa [pathFrom, List.getLast?_cons_cons] at hlast
  known := fun q hq => h.known q (List.mem_cons_of_mem _ hq)
  proper := fun q hq => h.proper q (List.mem_cons_of_mem _ hq)

theorem ClassList.Way.isModule_child (h : l.Way name parent (attr :: attrs)) (hattrs : attrs ≠ []) :
    l.isModule (childName parent attr) = false := by
  refine h.proper _ List.mem_cons_self fun heq => ?_
  obtain ⟨next, rest, rfl⟩ := List.exists_cons_of_ne_nil hattrs
  have hlast := h.tail.last
  rw [pathFrom, List.getLast?_cons_cons, ← heq] at hlast
  have hmem : childName parent attr ∈ pathFrom (childName parent attr) (next :: rest) :=
    List.mem_of_getLast? hlast
  exact not_mem_pathFrom h.tail.filled hmem

end Way

/-- A walk to names that the list knows, none of which is registered so far, makes what imports of
these names make. -/
theorem walk_gives_made {names : List String} {modules : List (String × ObjectId)} {parent : String}
    (answers : (ClassList.build names modules).Answers host (w.importer i).enquirer)
    (there : w.lookup (w.importer i).registry parent = some n)
    (package : attrs ≠ [] → w.node n = w.packageOf i parent)
    (live : w.isAlive (.registry (w.importer i).registry))
    (named : w.KeyedByName (w.importer i).registry)
    (way : (ClassList.build names modules).Way name parent attrs)
    (absent : ∀ q ∈ pathFrom parent attrs, w.lookup (w.importer i).registry q = none) :
    ∃ asked nodes, (n.walk attrs).Gives host w asked (.ok nodes)
        ((pathFrom parent attrs).foldl (World.load host i) w) ∧
      nodes.map some = (parent :: pathFrom parent attrs).map
        (((pathFrom parent attrs).foldl (World.load host i) w).lookup (w.importer i).registry) := by
  induction attrs generalizing w n parent with
  | nil => exact ⟨[], [n], Bridge.gives_pure _ w, by simp [pathFrom, there]⟩
  | cons attr attrs ih =>
      have hhere : w.HasPackage i parent n :=
        ⟨there, package (List.cons_ne_nil attr attrs), live, named⟩
      have habsent := absent _ List.mem_cons_self
      obtain ⟨asked, node, hmakes, hstep⟩ := getAttr_gives_made answers hhere.holds
        hhere.unbound way.start
        (way.dotless attr List.mem_cons_self) (way.plain attr List.mem_cons_self) habsent
        (way.known _ List.mem_cons_self)
      have hthere : (w.load host i (childName parent attr)).lookup (w.importer i).registry
          (childName parent attr) = some w.nextNode := by
        rw [World.lookup_load hmakes, if_pos rfl]
      have hpackage : attrs ≠ [] → (w.load host i (childName parent attr)).node w.nextNode =
          w.packageOf i (childName parent attr) := by
        intro hattrs
        rw [node_load named hmakes]
        rcases answers.makes (way.known _ List.mem_cons_self) with
          ⟨o, hmodule, -⟩ | ⟨-, -, hmakes'⟩
        · cases (way.isModule_child hattrs).symm.trans hmodule
        · exact Except.ok.inj (hmakes.symm.trans hmakes')
      have hlater : ∀ q ∈ pathFrom (childName parent attr) attrs,
          (w.load host i (childName parent attr)).lookup (w.importer i).registry q = none := by
        intro q hq
        have hne : childName parent attr ≠ q := by
          rintro rfl
          exact not_mem_pathFrom way.tail.filled hq
        rw [World.lookup_load hmakes, if_neg hne]
        exact absent q (List.mem_cons_of_mem _ hq)
      -- The step leaves the world that a load of the child leaves, and the walk goes on from there.
      have hrest := @ih (w.load host i (childName parent attr)) w.nextNode (childName parent attr)
      simp only [World.importer_load, isAlive_load, World.packageOf] at hrest
      obtain ⟨back, nodes, hwalk, hnodes⟩ :=
        hrest answers hthere hpackage live named.load way.tail hlater
      refine ⟨asked ++ back, n :: nodes, walk_gives_step hstep hwalk, ?_⟩
      have hkept := (lookup_foldl_load host (not_mem_pathFrom way.filled)).trans there
      rw [List.map_cons, List.map_cons, hkept, hnodes]
      rfl

end Walk

end ForeignNamespace
