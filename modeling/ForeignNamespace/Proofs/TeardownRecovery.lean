import ForeignNamespace.Proofs.AttributeWalk
import ForeignNamespace.Proofs.ImportWalkAgreement
import ForeignNamespace.Proofs.ReentrantLoad
import Mathlib.Data.List.Basic

namespace ForeignNamespace

/-- The registry without its foreign-backed nodes, and everything else as it is. -/
def World.tornDown (w : World) (r : RegistryId) : World :=
  w.updateRegistry r fun registry => registry.withoutForeign fun n => (w.node n).isForeignBacked

/-- The names that a teardown takes out. -/
def World.foreignNames (w : World) (r : RegistryId) : List String :=
  ((w.registry r).entries.toList.filter fun entry => (w.node entry.2).isForeignBacked).map Prod.fst

namespace World

variable (w : World) (r : RegistryId)

theorem lookup_tornDown (name : String) :
    (w.tornDown r).lookup r name =
      (w.lookup r name).filter fun m => !(w.node m).isForeignBacked := by
  rw [lookup, tornDown, registry_updateRegistry, if_pos rfl, Registry.withoutForeign,
    Std.ExtTreeMap.getElem?_filter']
  rfl

theorem lookup_tornDown_of_ne {r' : RegistryId} (hr : r' ≠ r) (name : String) :
    (w.tornDown r).lookup r' name = w.lookup r' name := by
  rw [lookup, tornDown, registry_updateRegistry, if_neg (Ne.symm hr)]
  rfl

theorem tornDown_tornDown : (w.tornDown r).tornDown r = w.tornDown r := by
  let isForeign := fun n => (w.node n).isForeignBacked
  have htwice : ∀ registry : Registry,
      (registry.withoutForeign isForeign).withoutForeign isForeign =
        registry.withoutForeign isForeign := by
    intro registry
    simp only [Registry.withoutForeign, Registry.mk.injEq]
    refine Std.ExtTreeMap.ext_getElem? fun name => ?_
    simp only [Std.ExtTreeMap.getElem?_filter', Option.filter_filter, Bool.and_self]
  have hregistry : (w.tornDown r).registry r = (w.registry r).withoutForeign isForeign := by
    rw [tornDown, registry_updateRegistry, if_pos rfl]
  calc (w.tornDown r).tornDown r
      = { w.tornDown r with
          registries := (w.tornDown r).registries.set r.index
            (((w.tornDown r).registry r).withoutForeign isForeign) } := rfl
    _ = { w.tornDown r with
          registries := (w.tornDown r).registries.set r.index
            ((w.registry r).withoutForeign isForeign) } := by rw [hregistry, htwice]
    _ = w.tornDown r := by
        simp only [tornDown, updateRegistry, Arena.set_set]
        rfl

theorem mem_foreignNames {name : String} :
    name ∈ w.foreignNames r ↔
      ∃ m, w.lookup r name = some m ∧ (w.node m).isForeignBacked = true := by
  simp only [foreignNames, List.mem_map, List.mem_filter, Prod.exists, exists_and_right,
    exists_eq_right, Std.ExtTreeMap.mem_toList_iff_getElem?_eq_some]
  rfl

/-- The names of foreign-backed nodes are gone, and every other name is kept. -/
theorem lookup_tornDown_eq_ite (name : String) :
    (w.tornDown r).lookup r name = if name ∈ w.foreignNames r then none else w.lookup r name := by
  simp only [lookup_tornDown, mem_foreignNames]
  cases hlookup : w.lookup r name with
  | none => simp
  | some m => cases hforeign : (w.node m).isForeignBacked <;> simp [hforeign, Option.filter_some]

theorem foreignNames_tornDown : (w.tornDown r).foreignNames r = [] := by
  refine List.eq_nil_iff_forall_not_mem.mpr fun name hmem => ?_
  obtain ⟨m, hlookup, hforeign⟩ := (mem_foreignNames ..).mp hmem
  rw [lookup_tornDown, Option.filter_eq_some_iff] at hlookup
  simpa using hlookup.2.symm.trans (congrArg not hforeign)

theorem nodup_foreignNames : (w.foreignNames r).Nodup := by
  have hkeys : ((w.registry r).entries.toList.map Prod.fst).Nodup := by
    rw [Std.ExtTreeMap.map_fst_toList_eq_keys]
    exact Std.ExtTreeMap.nodup_keys
  exact hkeys.sublist (List.filter_sublist.map Prod.fst)

end World

theorem teardown_gives (host : FixedHost) (r : RegistryId) (w : World) :
    r.teardown.Gives host w [] (w.foreignNames r).length (w.tornDown r) := by
  have hcount : (w.registry r).entries.size -
      ((w.registry r).withoutForeign fun n => (w.node n).isForeignBacked).entries.size =
        (w.foreignNames r).length := by
    rw [World.foreignNames, List.length_map, Registry.withoutForeign,
      ← Std.ExtTreeMap.length_toList, ← Std.ExtTreeMap.length_toList,
      Std.ExtTreeMap.toList_filter,
      List.length_eq_length_filter_add fun entry : String × NodeId =>
        (w.node entry.2).isForeignBacked]
    exact Nat.add_sub_cancel ..
  refine (Bridge.gives_world w).then ?_
  rw [← hcount]
  exact (Bridge.gives_modify _ w).then ((Bridge.gives_report _ _).then (Bridge.gives_pure _ _))

/-- Whether every node that a registry holds is there and was made on it, under whatever names the
registry holds it. -/
structure World.HoldsOwn (w : World) (r : RegistryId) : Prop where
  lt_next : ∀ {name m}, w.lookup r name = some m → m.index < w.nodes.next
  registry : ∀ {name m}, w.lookup r name = some m → (w.node m).registry = r

namespace World

variable {host : FixedHost} {i : ImporterId} {w : World} {name : String}

theorem holdsOwn_iff {r : RegistryId} :
    w.HoldsOwn r ↔ ∀ entry ∈ (w.registry r).entries.toList,
      entry.2.index < w.nodes.next ∧ (w.node entry.2).registry = r := by
  simp only [Prod.forall, Std.ExtTreeMap.mem_toList_iff_getElem?_eq_some]
  exact ⟨fun h name m hm => ⟨h.lt_next hm, h.registry hm⟩,
    fun h => ⟨fun hm => (h _ _ hm).1, fun hm => (h _ _ hm).2⟩⟩

instance (r : RegistryId) : Decidable (w.HoldsOwn r) := decidable_of_iff _ holdsOwn_iff.symm

theorem HoldsOwn.of_eq {v : World} {r : RegistryId} (h : w.HoldsOwn r) (hnodes : v.nodes = w.nodes)
    (hregistries : v.registries = w.registries) : v.HoldsOwn r := by
  constructor
  · intro name m hm
    rw [lookup_of_registries hregistries] at hm
    rw [hnodes]
    exact h.lt_next hm
  · intro name m hm
    rw [lookup_of_registries hregistries] at hm
    rw [node, hnodes]
    exact h.registry hm

theorem HoldsOwn.tornDown {r : RegistryId} (h : w.HoldsOwn r) : (w.tornDown r).HoldsOwn r := by
  have hthere : ∀ {name m}, (w.tornDown r).lookup r name = some m → w.lookup r name = some m := by
    intro name m hlookup
    rw [lookup_tornDown, Option.filter_eq_some_iff] at hlookup
    exact hlookup.1
  exact ⟨fun hlookup => h.lt_next (hthere hlookup), fun hlookup => h.registry (hthere hlookup)⟩

theorem next_le_load : w.nodes.next ≤ (w.load host i name).nodes.next := by
  cases hmakes : w.makes host i name with
  | error error =>
      have hsame : w.load host i name = w := by rw [load, hmakes]
      exact Nat.le_of_eq (by rw [hsame])
  | ok node =>
      rw [next_load hmakes]
      exact Nat.le_succ _

theorem next_le_foldl_load (names : List String) :
    w.nodes.next ≤ (names.foldl (World.load host i) w).nodes.next := by
  induction names generalizing w with
  | nil => exact Nat.le_refl _
  | cons name names ih => exact Nat.le_trans next_le_load ih

theorem HoldsOwn.load (h : w.HoldsOwn (w.importer i).registry) :
    (w.load host i name).HoldsOwn (w.importer i).registry := by
  cases hmakes : w.makes host i name with
  | error error =>
      rw [World.load, hmakes]
      exact h
  | ok node =>
      constructor
      · intro other m hlookup
        rw [lookup_load hmakes] at hlookup
        rw [next_load hmakes]
        split at hlookup
        · obtain rfl := Option.some.inj hlookup
          exact Nat.lt_succ_self _
        · exact Nat.lt_succ_of_lt (h.lt_next hlookup)
      · intro other m hlookup
        rw [lookup_load hmakes] at hlookup
        split at hlookup
        · obtain rfl := Option.some.inj hlookup
          obtain ⟨cache, hnode⟩ := node_load_self hmakes
          rw [hnode]
          exact (name_of_makes hmakes).2
        · obtain ⟨cache, hnode⟩ := node_load_of_lt hmakes (h.lt_next hlookup)
          rw [hnode]
          exact h.registry hlookup

theorem HoldsOwn.foldl_load (h : w.HoldsOwn (w.importer i).registry) (names : List String) :
    (names.foldl (World.load host i) w).HoldsOwn (w.importer i).registry := by
  induction names generalizing w with
  | nil => exact h
  | cons name names ih =>
      have hload : (w.load host i name).HoldsOwn ((w.load host i name).importer i).registry := by
        rw [importer_load]
        exact h.load
      have hrest := ih hload
      rw [importer_load] at hrest
      exact hrest

theorem isSome_lookup_foldl_load {names : List String} {other : String}
    (made : ∀ name ∈ names, ∃ node, w.makes host i name = .ok node)
    (h : other ∈ names ∨ (w.lookup (w.importer i).registry other).isSome) :
    ((names.foldl (World.load host i) w).lookup (w.importer i).registry other).isSome := by
  induction names generalizing w with
  | nil => simpa using h
  | cons name names ih =>
      obtain ⟨node, hmakes⟩ := made name List.mem_cons_self
      have hrest := ih (w := w.load host i name)
      simp only [makes_load, importer_load, lookup_load hmakes] at hrest
      refine hrest (fun name hname => made name (List.mem_cons_of_mem _ hname)) ?_
      rcases h with hmem | hthere
      · rcases List.mem_cons.mp hmem with rfl | hmem
        · simp
        · exact .inl hmem
      · right
        split
        · rfl
        · exact hthere

end World

/-- After a load, the node of the enclosing package leads to the new node. -/
theorem getAttr_gives_loaded {host : FixedHost} {i : ImporterId} {w : World} {name parent : String}
    {node : Node} {p : NodeId} (own : w.HoldsOwn (w.importer i).registry)
    (live : w.isAlive (.registry (w.importer i).registry) = true)
    (hmakes : w.makes host i name = .ok node) (hparent : parentPackage? name = some parent)
    (there : w.lookup (w.importer i).registry parent = some p) :
    (w.load host i name).lookup (w.importer i).registry parent = some p ∧
      (p.getAttr (leafName name)).Gives host (w.load host i name) [] (.ok (.node w.nextNode))
        (w.load host i name) := by
  have hlookup := World.lookup_load hmakes
  have hhome : ((w.load host i name).node p).registry = (w.importer i).registry := by
    obtain ⟨cache, hnode⟩ := World.node_load_of_lt hmakes (own.lt_next there)
    rw [hnode]
    exact own.registry there
  have hbound :
      ((w.load host i name).node p).cache[leafName name]? = some (.submodule name) := by
    rw [World.cache_load hmakes (own.lt_next there), hparent, Option.bind_some,
      if_pos ⟨there, rfl⟩]
  constructor
  · rw [hlookup, if_neg (parent_ne_self hparent).symm, there]
  · refine getAttr_gives_bound host ?_ hbound ?_
    · rw [hhome, isAlive_load]
      exact live
    · rw [hhome, hlookup, if_pos rfl]

/-- A resolver whose one finder is an importer over its registry, which is alive, and a host that
loads every module that it knows. -/
structure World.Serves (v : World) (host : FixedHost) (s : ResolverId) (i : ImporterId) : Prop where
  only : v.resolver s = { registry := (v.importer i).registry, metaPath := [.hook i] }
  live : v.isAlive (.registry (v.importer i).registry) = true
  loads : ∀ name, host.knowsModule (v.importer i).enquirer name = true →
    ∃ o, host.loadModule (v.importer i).enquirer name = .ok o

/-- A name that the enquirer of an importer reports as a module, and whose ancestors are registered
or claimed by the importer. -/
structure World.Offers (v : World) (host : FixedHost) (i : ImporterId) (f : String)
    (dotted : DottedName) : Prop where
  wellFormed : DottedName.parse f = some dotted
  isModule : host.knowsModule (v.importer i).enquirer f = true
  ancestors : ∀ p ∈ dotted.ancestors, (v.lookup (v.importer i).registry p).isSome ∨
    host.claims (v.importer i).enquirer p = true

/-- What the import of a name comes to when the name is loaded anew: a foreign-backed node that was
not there before, to which the enclosing package leads.  What was registered stays registered. -/
structure World.Renews (v : World) (host : FixedHost) (i : ImporterId) (f : String)
    (o : Outcome (Except ImportError NodeId)) (n : NodeId) : Prop where
  result : o.result = .ok n
  loaded : ∃ handle, host.loadModule (v.importer i).enquirer f = .ok handle ∧
    .loadModule (v.importer i).enquirer f ∈ o.questions ∧ (o.world.node n).handle = some handle
  fresh : v.nodes.next ≤ n.index
  registered : o.world.lookup (v.importer i).registry f = some n
  led : ∀ parent, parentPackage? f = some parent →
    ∃ p, o.world.lookup (v.importer i).registry parent = some p ∧
      (p.getAttr (leafName f)).Gives host o.world [] (.ok (.node n)) o.world
  kept : ∀ name m, v.lookup (v.importer i).registry name = some m →
    o.world.lookup (v.importer i).registry name = some m
  resolver : o.world.resolver = v.resolver

section Reimport

variable {host : FixedHost} {v : World} {s : ResolverId} {i : ImporterId} {f : String}
  {dotted : DottedName}

theorem prefixes_of_parse (wellFormed : DottedName.parse f = some dotted) :
    prefixes f = dotted.ancestors ++ [f] := by
  have hfull := DottedName.fullName_of_parse wellFormed
  rw [← ancestors_append_fullName wellFormed, hfull]

theorem World.Offers.claimed (offers : v.Offers host i f dotted) :
    host.claims (v.importer i).enquirer f = true := by
  rw [FixedHost.claims, offers.isModule, Bool.or_true]

theorem World.Offers.asks_load (offers : v.Offers host i f dotted) :
    .loadModule (v.importer i).enquirer f ∈ host.importQuestions (v.importer i).enquirer f := by
  rw [FixedHost.importQuestions, FixedHost.loadQuestions, if_pos offers.claimed,
    if_pos offers.isModule]
  simp

theorem World.Offers.filled (offers : v.Offers host i f dotted) : "" ∉ segments f :=
  DottedName.filled_of_parse offers.wellFormed

namespace World.Serves

variable (serves : v.Serves host s i)

include serves

theorem exists_makes {name : String} (claimed : host.claims (v.importer i).enquirer name = true) :
    ∃ node, v.makes host i name = .ok node := by
  cases hmakes : v.makes host i name with
  | ok node => exact ⟨node, rfl⟩
  | error error =>
      rcases makes_eq_error_iff.mp hmakes with ⟨hclaims, -⟩ | ⟨hmodule, cause, hload, -⟩
      · rw [claimed] at hclaims
        cases hclaims
      · obtain ⟨o, ho⟩ := serves.loads name hmodule
        rw [ho] at hload
        cases hload

variable (offers : v.Offers host i f dotted)

include offers

/-- The ancestors that are not registered can all be loaded. -/
theorem exists_makes_of_ancestor :
    ∀ name ∈ v.unregistered (v.importer i).registry dotted.ancestors,
      ∃ node, v.makes host i name = .ok node := by
  intro name hname
  obtain ⟨hmem, hnone⟩ := List.mem_filter.mp hname
  exact serves.exists_makes ((offers.ancestors name hmem).resolve_left (by simpa using hnone))

/-- A module whose ancestors are registered or claimed is imported by loading its unregistered
ancestors and then itself. -/
theorem importName_gives_module (absent : v.lookup (v.importer i).registry f = none) :
    let enclosing := v.unregistered (v.importer i).registry dotted.ancestors
    let u := enclosing.foldl (World.load host i) v
    (s.importName f).Gives host v
      ((enclosing ++ [f]).flatMap (host.importQuestions (v.importer i).enquirer))
      (.ok u.nextNode) (u.load host i f) := by
  intro enclosing u
  obtain ⟨node, hmakes⟩ := serves.exists_makes offers.claimed
  have hmade : ∀ name ∈ enclosing ++ [f], ∃ node, v.makes host i name = .ok node := by
    intro name hname
    rcases List.mem_append.mp hname with hname | hname
    · exact serves.exists_makes_of_ancestor offers name hname
    · obtain rfl := List.mem_singleton.mp hname
      exact ⟨node, hmakes⟩
  have hprefixes := prefixes_of_parse offers.wellFormed
  have hfresh : v.unregistered (v.importer i).registry (dotted.ancestors ++ [f]) =
      enclosing ++ [f] := by
    rw [World.unregistered, List.filter_append]
    simp [enclosing, World.unregistered, absent]
  have hnodup : (dotted.ancestors ++ [f]).Nodup := hprefixes ▸ nodup_pathFrom "" offers.filled
  have habsent : v.lookup (v.resolver s).registry f = none := by
    rw [serves.only]
    exact absent
  have hall := importAll_inOrder host serves.only hnodup
  rw [hfresh] at hall
  cases hall with
  | @stopped _ _ failed _ hsplit _ hfails _ =>
      obtain ⟨node, hnode⟩ := hmade failed (by rw [hsplit]; simp)
      rw [hnode] at hfails
      cases hfails
  | @finished n _ hn hgives =>
      have himport := importName_gives habsent offers.filled hprefixes hgives
      have hmakes' : u.makes host i f = .ok node := (makes_foldl_load enclosing f).trans hmakes
      rw [List.foldl_append] at hn himport
      have hnew := World.lookup_load hmakes' f
      rw [if_pos rfl, World.importer_foldl_load] at hnew
      obtain rfl : u.nextNode = n := Option.some.inj (hnew.symm.trans hn)
      exact himport

/-- After the import, the parent of the module is registered and leads to its new node. -/
theorem parent_leads (own : v.HoldsOwn (v.importer i).registry) (parent : String)
    (hparent : parentPackage? f = some parent) :
    let u := (v.unregistered (v.importer i).registry dotted.ancestors).foldl (World.load host i) v
    ∃ p, (u.load host i f).lookup (v.importer i).registry parent = some p ∧
      (p.getAttr (leafName f)).Gives host (u.load host i f) [] (.ok (.node u.nextNode))
        (u.load host i f) := by
  intro u
  obtain ⟨node, hmakes⟩ := serves.exists_makes offers.claimed
  have hregistry : (u.importer i).registry = (v.importer i).registry := by
    rw [World.importer_foldl_load]
  have hmakes' : u.makes host i f = .ok node := (makes_foldl_load _ f).trans hmakes
  have hfirst : parent ∈ dotted.ancestors ∨ (v.lookup (v.importer i).registry parent).isSome :=
    parentsFirst_prefixes v _ f (prefixes_of_parse offers.wellFormed) hparent
  -- If the parent was not registered before, it is among the names that are loaded first.
  have hpending : parent ∈ v.unregistered (v.importer i).registry dotted.ancestors ∨
      (v.lookup (v.importer i).registry parent).isSome := by
    cases hlookup : v.lookup (v.importer i).registry parent with
    | some p => exact .inr rfl
    | none =>
        have hmem := hfirst.resolve_right (by simp [hlookup])
        exact .inl (List.mem_filter.mpr ⟨hmem, by simp [hlookup]⟩)
  obtain ⟨p, hp⟩ := Option.isSome_iff_exists.mp
    (isSome_lookup_foldl_load (serves.exists_makes_of_ancestor offers) hpending)
  have hown : u.HoldsOwn (u.importer i).registry := by
    rw [hregistry]
    exact own.foldl_load _
  have hlive : u.isAlive (.registry (u.importer i).registry) = true := by
    rw [hregistry, isAlive_foldl_load]
    exact serves.live
  have hthere : u.lookup (u.importer i).registry parent = some p := by
    rw [hregistry]
    exact hp
  have hleads := getAttr_gives_loaded hown hlive hmakes' hparent hthere
  rw [hregistry] at hleads
  exact ⟨p, hleads⟩

theorem makes_module :
    ∃ handle, host.loadModule (v.importer i).enquirer f = .ok handle ∧
      v.makes host i f = .ok (v.moduleOf i f handle) := by
  obtain ⟨handle, hload⟩ := serves.loads f offers.isModule
  exact ⟨handle, hload, by rw [World.makes, if_pos offers.isModule, hload]⟩

theorem renews (own : v.HoldsOwn (v.importer i).registry)
    (absent : v.lookup (v.importer i).registry f = none) :
    ∃ n, v.Renews host i f ((s.importName f).run host v) n := by
  have hgives := serves.importName_gives_module offers absent
  have hleads := serves.parent_leads offers own
  generalize henclosing :
    v.unregistered (v.importer i).registry dotted.ancestors = enclosing at hgives hleads
  obtain ⟨handle, hload, hmakes⟩ := serves.makes_module offers
  have hmakes' := (makes_foldl_load enclosing f).trans hmakes
  have hregistered := World.lookup_load hmakes' f
  rw [if_pos rfl, World.importer_foldl_load] at hregistered
  refine ⟨(enclosing.foldl (World.load host i) v).nextNode, hgives.result, ?_, ?_, ?_, ?_, ?_, ?_⟩
  · refine ⟨handle, hload, ?_, ?_⟩
    · rw [hgives.questions, List.flatMap_append]
      exact List.mem_append_right _ (by simpa using offers.asks_load)
    · obtain ⟨cache, hnode⟩ := World.node_load_self hmakes'
      rw [hgives.world, hnode]
      rfl
  · exact World.next_le_foldl_load enclosing
  · rw [hgives.world]
    exact hregistered
  · rw [hgives.world]
    exact hleads
  · intro name m hm
    have hnew : name ∉ enclosing ++ [f] := by
      intro hmem
      rcases List.mem_append.mp hmem with hmem | hmem
      · rw [← henclosing, World.unregistered, List.mem_filter, hm] at hmem
        cases hmem.2
      · rw [List.mem_singleton.mp hmem, absent] at hm
        cases hm
    have hkept := lookup_foldl_load (w := v) (i := i) host hnew
    rw [List.foldl_append] at hkept
    rw [hgives.world]
    exact hkept.trans hm
  · rw [hgives.world, World.resolver_load, World.resolver_foldl_load]

end World.Serves

end Reimport

/-- A teardown takes out exactly the names of foreign-backed nodes and counts them, and a second one
takes out nothing.  Every module that the host still offers can then be imported again, as a new
node that is reached from its parent too, and no import disturbs a name that is left. -/
theorem teardown_recovers (host : FixedHost) {w : World} {r : RegistryId} (own : w.HoldsOwn r) :
    let o := r.teardown.run host w
    (∃ removed : List String, removed.Nodup ∧ o.result = removed.length ∧
      (∀ name, name ∈ removed ↔
        ∃ m, w.lookup r name = some m ∧ (w.node m).isForeignBacked = true) ∧
      ∀ name, o.world.lookup r name = if name ∈ removed then none else w.lookup r name) ∧
    o.world.nodes = w.nodes ∧
    (∀ r' name, r' ≠ r → o.world.lookup r' name = w.lookup r' name) ∧
    (r.teardown.run host o.world).result = 0 ∧ (r.teardown.run host o.world).world = o.world ∧
    ∀ (v : World) (host' : FixedHost) (s : ResolverId) (i : ImporterId),
      v.nodes = o.world.nodes → v.registries = o.world.registries → (v.importer i).registry = r →
      v.Serves host' s i →
      (∀ name n, o.world.lookup r name = some n →
        (s.importName name).run host' v = ⟨.ok n, v, []⟩) ∧
      ∀ f m dotted, w.lookup r f = some m → (w.node m).isForeignBacked = true →
        v.Offers host' i f dotted →
        let o' := (s.importName f).run host' v
        ∃ n, v.Renews host' i f o' n ∧ n ≠ m ∧
          ∀ name n', o.world.lookup r name = some n' →
            (s.importName name).run host' o'.world = ⟨.ok n', o'.world, []⟩ := by
  intro o
  have hgives := teardown_gives host r w
  have hagain := teardown_gives host r (w.tornDown r)
  have hworld : o.world = w.tornDown r := hgives.world
  rw [hworld]
  refine ⟨⟨w.foreignNames r, w.nodup_foreignNames r, hgives.result,
    fun _ => w.mem_foreignNames r, w.lookup_tornDown_eq_ite r⟩, rfl,
    fun r' name hr => w.lookup_tornDown_of_ne r hr name, ?_, ?_, ?_⟩
  · rw [hagain.result, w.foreignNames_tornDown, List.length_nil]
  · rw [hagain.world, w.tornDown_tornDown]
  intro v host' s i hnodes hregistries rfl serves
  have hlookup := World.lookup_of_registries hregistries (v.importer i).registry
  have hregistry : (v.resolver s).registry = (v.importer i).registry := by
    rw [serves.only]
  refine ⟨fun name n hn => importName_run_of_some host' ?_, ?_⟩
  · rw [hregistry, hlookup, hn]
  intro f m dotted hm hforeign offers o'
  have habsent : v.lookup (v.importer i).registry f = none := by
    rw [hlookup, World.lookup_tornDown, hm]
    simp [Option.filter_some, hforeign]
  obtain ⟨n, renews⟩ := serves.renews offers (own.tornDown.of_eq hnodes hregistries) habsent
  refine ⟨n, renews, ?_, fun name n' hn' => importName_run_of_some host' ?_⟩
  · rintro rfl
    have hlt := own.lt_next hm
    have hle := renews.fresh
    rw [hnodes] at hle
    exact absurd hlt (Nat.not_lt.mpr hle)
  · rw [renews.resolver, hregistry]
    exact renews.kept name n' ((hlookup name).trans hn')

theorem FixedHost.knowing_loads {known name : String} {handle : ObjectId} {e : EnquirerId}
    (h : (knowing known handle).knowsModule e name = true) :
    (knowing known handle).loadModule e name = .ok handle := by
  have hname : (name == known) = true := h
  exact if_pos (eq_of_beq hname)

/-- A package with a foreign module bound on it, which is registered under another name too. -/
def World.withSession : World :=
  ((World.withImported.addRegistered (.foreignBacked "pkg.mod" .processWide ⟨7⟩)).bindSubmodule
    ⟨0⟩ "mod" "pkg.mod").register .processWide "alias" ⟨1⟩

theorem teardown_recovers_mod :
    let w := World.withSession
    let host := FixedHost.knowing "pkg.mod" ⟨8⟩
    let o := RegistryId.processWide.teardown.run host w
    let v := o.world
    (w.HoldsOwn .processWide ∧ v.Serves host .processWide ⟨0⟩ ∧
        v.Offers host ⟨0⟩ "pkg.mod" ⟨"pkg.mod", [3]⟩) ∧
      o.result = 2 ∧ v.nodes = w.nodes ∧ v.lookup .processWide "pkg" = some ⟨0⟩ ∧
      ∃ n, n ≠ ⟨1⟩ ∧ v.Renews host ⟨0⟩ "pkg.mod"
        ((ResolverId.processWide.importName "pkg.mod").run host v) n := by
  intro w host o v
  have own : w.HoldsOwn .processWide := by decide +kernel
  have serves : v.Serves host .processWide ⟨0⟩ :=
    { only := by decide +kernel
      live := by decide +kernel
      loads := fun name hknows => ⟨⟨8⟩, FixedHost.knowing_loads hknows⟩ }
  have offers : v.Offers host ⟨0⟩ "pkg.mod" ⟨"pkg.mod", [3]⟩ :=
    { wellFormed := by decide +kernel
      isModule := by decide +kernel
      ancestors := by decide +kernel }
  obtain ⟨-, hnodes, -, -, -, hrecovers⟩ := teardown_recovers host own
  have hrenews := (hrecovers v host .processWide ⟨0⟩ rfl rfl (by decide +kernel) serves).2 "pkg.mod"
    ⟨1⟩ _ (by decide +kernel) (by decide +kernel) offers
  obtain ⟨n, renews, hne, -⟩ := hrenews
  exact ⟨⟨own, serves, offers⟩, by decide +kernel, hnodes, by decide +kernel, n, hne, renews⟩

end ForeignNamespace
