import ForeignNamespace.Proofs.AttributeWalk

namespace ForeignNamespace

/-- A resolver in the state in which it is set up: held, with one importer on its own registry, and
nothing registered. -/
structure World.Fresh (w : World) (s : ResolverId) (i : ImporterId) : Prop where
  only : w.resolver s = { registry := (w.importer i).registry, metaPath := [.hook i] }
  held : .resolver s ∈ w.holds
  empty : ∀ name, w.lookup (w.importer i).registry name = none

/-- Whether a name can be reached through packages of a list: only the name itself may be a module,
and no segment behind the first is metadata. -/
structure ClassList.Reaches (l : ClassList) (name : String) : Prop where
  filled : "" ∉ segments name
  proper : ∀ p ∈ prefixes name, p ≠ name → l.isPackage p = true ∧ l.isModule p = false
  full : l.isPackage name = true ∨ l.isModule name = true
  plain : ∀ attr ∈ (segments name).tail, attr ∉ Node.metadataNames

/-- Imports the first segment of a name and walks down the others; the answer is every node on the
way. -/
def ResolverId.walk (s : ResolverId) (name : String) : Bridge (Except ImportError (List NodeId)) :=
  match segments name with
  | [] => return .error (.invalidName name)
  | first :: attrs => do
    match ← s.importName first with
    | .error error => return .error error
    | .ok n => n.walk attrs

/-- Whether two nodes, made by two importers, differ only in which importer and registry is
theirs. -/
structure World.Twins (w v : World) (i j : ImporterId) (n m : NodeId) : Prop where
  name : (w.node n).name = (v.node m).name
  handle : (w.node n).handle = (v.node m).handle
  cache : (w.node n).cache = (v.node m).cache
  registries : (w.node n).registry = (w.importer i).registry ∧
    (v.node m).registry = (v.importer j).registry
  loaders : (w.node n).loader = some i ∧ (v.node m).loader = some j
  enquirers : (w.node n).enquirer = some (w.importer i).enquirer ∧
    (v.node m).enquirer = some (v.importer j).enquirer

/-- Whether the registries of two importers have the same keys, with alike nodes under each. -/
structure World.Agrees (i j : ImporterId) (w v : World) : Prop where
  keys : ∀ name, (w.lookup (w.importer i).registry name).isSome =
    (v.lookup (v.importer j).registry name).isSome
  twins : ∀ {name n m}, w.lookup (w.importer i).registry name = some n →
    v.lookup (v.importer j).registry name = some m → w.Twins v i j n m

section Agreement

variable {host : FixedHost} {w v : World} {i j : ImporterId} {name : String}

theorem World.Agrees.of_fresh {s t : ResolverId} (fresh : w.Fresh s i) (fresh' : v.Fresh t j) :
    w.Agrees i j v where
  keys name := by rw [fresh.empty, fresh'.empty]
  twins hn := by simp [fresh.empty] at hn

theorem linked_of_makes {node : Node} (h : w.makes host i name = .ok node) :
    node.loader = some i ∧ node.enquirer = some (w.importer i).enquirer := by
  simp only [World.makes] at h
  split at h
  · split at h
    · obtain rfl := Except.ok.inj h
      exact ⟨rfl, rfl⟩
    · cases h
  · split at h
    · obtain rfl := Except.ok.inj h
      exact ⟨rfl, rfl⟩
    · cases h

/-- Where a node is registered tells whether a load binds a name on it. -/
theorem bind_lookup_eq_some_iff {n : NodeId} {enclosing : String} {r : RegistryId}
    (named : w.KeyedByName r) (there : w.lookup r enclosing = some n) :
    (parentPackage? name).bind (w.lookup r) = some n ↔ parentPackage? name = some enclosing := by
  constructor
  · intro h
    obtain ⟨parent, hparent, hn⟩ := Option.bind_eq_some_iff.mp h
    rw [hparent, ← named.name_eq hn, named.name_eq there]
  · intro h
    rw [h, Option.bind_some, there]

/-- Two worlds that are alike stay so when one name is loaded on both. -/
theorem World.Agrees.load (h : w.Agrees i j v) (named : w.KeyedByName (w.importer i).registry)
    (named' : v.KeyedByName (v.importer j).registry) {a b : Node}
    (ha : w.makes host i name = .ok a) (hb : v.makes host j name = .ok b)
    (handle : a.handle = b.handle) (cache : a.cache = b.cache) :
    (w.load host i name).Agrees i j (v.load host j name) := by
  constructor
  · intro other
    rw [World.importer_load, World.importer_load, World.lookup_load ha, World.lookup_load hb]
    split
    · rfl
    · exact h.keys other
  · intro other n m hn hm
    rw [World.importer_load, World.lookup_load ha] at hn
    rw [World.importer_load, World.lookup_load hb] at hm
    by_cases heq : name = other
    · rw [if_pos heq] at hn hm
      obtain rfl := Option.some.inj hn
      obtain rfl := Option.some.inj hm
      obtain ⟨hloader, henquirer⟩ := linked_of_makes ha
      obtain ⟨hloader', henquirer'⟩ := linked_of_makes hb
      constructor <;> rw [node_load named ha, node_load named' hb]
      · rw [(name_of_makes ha).1, (name_of_makes hb).1]
      · exact handle
      · exact cache
      · rw [World.importer_load, World.importer_load]
        exact ⟨(name_of_makes ha).2, (name_of_makes hb).2⟩
      · exact ⟨hloader, hloader'⟩
      · rw [World.importer_load, World.importer_load]
        exact ⟨henquirer, henquirer'⟩
    · rw [if_neg heq] at hn hm
      have htwins := h.twins hn hm
      have hlt := named.lt_next hn
      have hlt' := named'.lt_next hm
      obtain ⟨c, hc⟩ := World.node_load_of_lt ha hlt
      obtain ⟨c', hc'⟩ := World.node_load_of_lt hb hlt'
      -- The name is bound on both nodes or on neither, since both have the name of its parent.
      have hcaches : ((w.load host i name).node n).cache = ((v.load host j name).node m).cache := by
        apply Std.ExtTreeMap.ext_getElem?
        intro attr
        simp only [World.cache_load ha hlt, World.cache_load hb hlt',
          bind_lookup_eq_some_iff named hn, bind_lookup_eq_some_iff named' hm, htwins.cache]
      refine ⟨?_, ?_, hcaches, ?_, ?_, ?_⟩ <;> rw [hc, hc']
      · exact htwins.name
      · exact htwins.handle
      · rw [World.importer_load, World.importer_load]
        exact htwins.registries
      · exact htwins.loaders
      · rw [World.importer_load, World.importer_load]
        exact htwins.enquirers

variable {l : ClassList}

theorem makes_twins (answers : l.Answers host (w.importer i).enquirer)
    (answers' : l.Answers host (v.importer j).enquirer)
    (known : l.isPackage name = true ∨ l.isModule name = true) :
    ∃ a b, w.makes host i name = .ok a ∧ v.makes host j name = .ok b ∧ a.handle = b.handle ∧
      a.cache = b.cache := by
  rcases answers.makes known with ⟨o, hmodule, hloads, ha⟩ | ⟨hmodule, hpackage, ha⟩
  · rcases answers'.makes known with ⟨o', -, hloads', hb⟩ | ⟨hnone, -, -⟩
    · obtain rfl := Except.ok.inj (hloads.symm.trans hloads')
      exact ⟨_, _, ha, hb, rfl, rfl⟩
    · cases hnone.symm.trans hmodule
  · rcases answers'.makes known with ⟨o', hmodule', -, -⟩ | ⟨-, -, hb⟩
    · cases hmodule.symm.trans hmodule'
    · exact ⟨_, _, ha, hb, rfl, rfl⟩

theorem World.Agrees.foldl_load (h : w.Agrees i j v) (named : w.KeyedByName (w.importer i).registry)
    (named' : v.KeyedByName (v.importer j).registry)
    (answers : l.Answers host (w.importer i).enquirer)
    (answers' : l.Answers host (v.importer j).enquirer) {names : List String}
    (known : ∀ name ∈ names, l.isPackage name = true ∨ l.isModule name = true) :
    (names.foldl (World.load host i) w).Agrees i j (names.foldl (World.load host j) v) := by
  induction names generalizing w v with
  | nil => exact h
  | cons name names ih =>
      obtain ⟨a, b, ha, hb, hhandle, hcache⟩ :=
        makes_twins answers answers' (known name List.mem_cons_self)
      have hload := h.load named named' ha hb hhandle hcache
      refine ih hload ?_ ?_ ?_ ?_ fun other hother => known other (List.mem_cons_of_mem _ hother)
      · rw [World.importer_load]
        exact named.load
      · rw [World.importer_load]
        exact named'.load
      · rwa [World.importer_load]
      · rwa [World.importer_load]

end Agreement

/-- Whether names are registered, each bound on the node of its parent. -/
structure World.Binds (w : World) (r : RegistryId) (names : List String) : Prop where
  live : w.isAlive (.registry r)
  home : ∀ {name n}, w.lookup r name = some n → (w.node n).registry = r
  registered : ∀ name ∈ names, (w.lookup r name).isSome
  bound : ∀ name ∈ names, ∀ parent n, parentPackage? name = some parent →
    w.lookup r parent = some n → (w.node n).cache[leafName name]? = some (.submodule name)

section Bound

variable {host : FixedHost} {w : World} {r : RegistryId} {n m : NodeId}

theorem World.Binds.mono {names names' : List String} (h : w.Binds r names)
    (hsubset : ∀ name ∈ names', name ∈ names) : w.Binds r names' where
  live := h.live
  home := h.home
  registered name hname := h.registered name (hsubset name hname)
  bound name hname := h.bound name (hsubset name hname)

theorem walk_gives_bound (host : FixedHost) {parent : String} {attrs : List String}
    (hparent : parent ≠ "") (filled : "" ∉ attrs) (dotless : ∀ attr ∈ attrs, '.' ∉ attr.toList)
    (there : w.lookup r parent = some n) (binds : w.Binds r (pathFrom parent attrs)) :
    ∃ nodes, (n.walk attrs).Gives host w [] (.ok nodes) w ∧
      nodes.map some = (parent :: pathFrom parent attrs).map (w.lookup r) := by
  induction attrs generalizing n parent with
  | nil => exact ⟨[n], Bridge.gives_pure _ w, by simp [pathFrom, there]⟩
  | cons attr attrs ih =>
      have hregistered := binds.registered _ List.mem_cons_self
      obtain ⟨child, hchild⟩ := Option.isSome_iff_exists.mp hregistered
      have hdotless := dotless attr List.mem_cons_self
      have hbound := binds.bound _ List.mem_cons_self parent n
        (parentPackage_childName hparent hdotless) there
      rw [leafName_childName hdotless] at hbound
      have hhome := binds.home there
      have hstep := getAttr_gives_bound host (hhome.symm ▸ binds.live) hbound
        (hhome.symm ▸ hchild)
      have hbinds := binds.mono fun q hq => List.mem_cons_of_mem (childName parent attr) hq
      rw [List.mem_cons, not_or] at filled
      obtain ⟨nodes, hwalk, hnodes⟩ := ih (childName_ne_empty (Ne.symm filled.1)) filled.2
        (fun other hother => dotless other (List.mem_cons_of_mem _ hother)) hchild hbinds
      refine ⟨n :: nodes, walk_gives_step hstep hwalk, ?_⟩
      rw [List.map_cons, List.map_cons, there, hnodes]
      rfl

end Bound

section Names

variable {l : ClassList} {name first : String} {attrs : List String}

theorem prefixes_of_segments (h : segments name = first :: attrs) :
    prefixes name = first :: pathFrom first attrs := by
  rw [prefixes, h, pathFrom, childName_empty]

theorem prefixes_of_dotless (h : '.' ∉ name.toList) : prefixes name = [name] :=
  prefixes_of_segments (segments_of_dotless h)

theorem getLast_prefixes (filled : "" ∉ segments name) :
    (prefixes name).getLast? = some name := by
  obtain ⟨names, hnames⟩ := prefixes_eq_append filled
  rw [hnames, List.getLast?_concat]

theorem ClassList.Reaches.known (h : l.Reaches name) :
    ∀ p ∈ prefixes name, l.isPackage p = true ∨ l.isModule p = true := by
  intro p hp
  by_cases hname : p = name
  · exact hname ▸ h.full
  · exact .inl (h.proper p hp hname).1

theorem ClassList.Reaches.way (h : l.Reaches name) (hsegments : segments name = first :: attrs) :
    l.Way name first attrs where
  start := fun heq => h.filled (hsegments ▸ heq ▸ List.mem_cons_self)
  filled := fun hmem => h.filled (hsegments ▸ List.mem_cons_of_mem _ hmem)
  dotless := fun attr hattr =>
    not_mem_of_mem_segments (hsegments ▸ List.mem_cons_of_mem first hattr)
  plain := by
    have hplain := h.plain
    rwa [hsegments] at hplain
  last := prefixes_of_segments hsegments ▸ getLast_prefixes h.filled
  known := fun q hq =>
    h.known q (prefixes_of_segments hsegments ▸ List.mem_cons_of_mem first hq)
  proper := fun q hq hne =>
    (h.proper q (prefixes_of_segments hsegments ▸ List.mem_cons_of_mem first hq) hne).2

theorem ClassList.Reaches.isModule_head (h : l.Reaches name)
    (hsegments : segments name = first :: attrs) (hattrs : attrs ≠ []) :
    l.isModule first = false := by
  refine (h.proper first ?_ fun heq => ?_).2
  · rw [prefixes_of_segments hsegments]
    exact List.mem_cons_self
  · obtain ⟨attr, rest, rfl⟩ := List.exists_cons_of_ne_nil hattrs
    have hdotless : '.' ∉ first.toList := not_mem_of_mem_segments (hsegments ▸ List.mem_cons_self)
    rw [← heq, segments_of_dotless hdotless] at hsegments
    cases hsegments

end Names

section Fresh

variable {host : FixedHost} {w : World} {s : ResolverId} {i : ImporterId} {l : ClassList}
  {name : String}

theorem unregistered_of_fresh (fresh : w.Fresh s i) (names : List String) :
    w.unregistered (w.importer i).registry names = names :=
  List.filter_eq_self.mpr fun other _ => by rw [fresh.empty, Option.isNone_none]

theorem World.Fresh.keyedByName (fresh : w.Fresh s i) :
    w.KeyedByName (w.importer i).registry :=
  .of_empty fresh.empty

theorem World.Fresh.live (fresh : w.Fresh s i) : w.isAlive (.registry (w.importer i).registry) := by
  refine List.any_eq_true.mpr ⟨.resolver s, fresh.held, ?_⟩
  simp [World.keeps, fresh.only]

/-- An import of a known name by a fresh resolver loads every prefix. -/
theorem importName_gives_loaded (fresh : w.Fresh s i)
    (answers : l.Answers host (w.importer i).enquirer) (filled : "" ∉ segments name)
    (known : ∀ p ∈ prefixes name, l.isPackage p = true ∨ l.isModule p = true) :
    ∃ asked n, (s.importName name).Gives host w asked (.ok n)
        ((prefixes name).foldl (World.load host i) w) ∧
      ((prefixes name).foldl (World.load host i) w).lookup (w.importer i).registry name = some n ∧
      w.Loaded host i (prefixes name) ((prefixes name).foldl (World.load host i) w) := by
  obtain ⟨names, hprefixes⟩ := prefixes_eq_append filled
  have hnodup : (names ++ [name]).Nodup := hprefixes ▸ nodup_pathFrom "" filled
  have hall := importAll_inOrder host fresh.only hnodup
  have hfresh := unregistered_of_fresh fresh (prefixes name)
  have habsent : w.lookup (w.resolver s).registry name = none := by
    rw [fresh.only]
    exact fresh.empty name
  rw [← hprefixes, hfresh] at hall
  cases hall with
  | @stopped loaded later failed error hsplit made hfails hgives =>
      have hmem : failed ∈ prefixes name := by simp [hsplit]
      rcases answers.makes (known failed hmem) with ⟨o, -, -, hok⟩ | ⟨-, -, hok⟩ <;>
        cases hfails.symm.trans hok
  | @finished n made hn hgives =>
      exact ⟨_, n, importName_gives habsent filled hprefixes hgives, hn,
        loaded_of_prefixes fresh.keyedByName filled (by rw [hfresh, List.append_nil]) made⟩

end Fresh

section Ways

variable {host : FixedHost} {w w' : World} {s : ResolverId} {i : ImporterId} {name : String}

theorem isAlive_foldl_load (names : List String) (h : Handle) :
    (names.foldl (World.load host i) w).isAlive h = w.isAlive h := by
  induction names generalizing w with
  | nil => rfl
  | cons name names ih => rw [List.foldl_cons, ih, isAlive_load]

theorem World.Loaded.binds {names : List String} (h : w.Loaded host i names w')
    (fresh : w.Fresh s i) : w'.Binds (w.importer i).registry names where
  live := by
    rw [h.world, isAlive_foldl_load]
    exact fresh.live
  home := by
    intro other n hn
    rw [h.lookup] at hn
    split at hn
    · rename_i hmem
      obtain ⟨node, cache, hmakes, hnode⟩ := h.node other hmem
      obtain rfl := Option.some.inj hn
      rw [hnode]
      exact (name_of_makes hmakes).2
    · rw [fresh.empty] at hn
      cases hn
  registered other hmem := by rw [h.lookup, if_pos hmem, Option.isSome_some]
  bound := by
    intro other hmem parent n hparent hn
    obtain ⟨m, hm, hcache⟩ := h.bound other hmem parent hparent
    obtain rfl := Option.some.inj (hm.symm.trans hn)
    exact hcache

variable {names : List String} {modules : List (String × ObjectId)}

theorem walk_gives_loaded (fresh : w.Fresh s i)
    (answers : (ClassList.build names modules).Answers host (w.importer i).enquirer)
    (reaches : (ClassList.build names modules).Reaches name) :
    ∃ asked nodes, (s.walk name).Gives host w asked (.ok nodes)
        ((prefixes name).foldl (World.load host i) w) ∧
      nodes.map some = (prefixes name).map
        (((prefixes name).foldl (World.load host i) w).lookup (w.importer i).registry) := by
  obtain ⟨first, attrs, hsegments⟩ := List.exists_cons_of_ne_nil (segments_ne_nil name)
  have hway := reaches.way hsegments
  have hdotless : '.' ∉ first.toList := not_mem_of_mem_segments (hsegments ▸ List.mem_cons_self)
  have hfirst := reaches.known first (prefixes_of_segments hsegments ▸ List.mem_cons_self)
  have hfilled : "" ∉ segments first := by
    rw [segments_of_dotless hdotless, List.mem_singleton]
    exact Ne.symm hway.start
  obtain ⟨asked, n, himport, hn, -⟩ := importName_gives_loaded fresh answers hfilled fun p hp => by
    rw [prefixes_of_dotless hdotless, List.mem_singleton] at hp
    exact hp ▸ hfirst
  rw [prefixes_of_dotless hdotless, List.foldl_cons, List.foldl_nil] at himport hn
  have habsent : ∀ q ∈ pathFrom first attrs,
      (w.load host i first).lookup (w.importer i).registry q = none := by
    intro q hq
    have hne : q ∉ [first] := fun hmem => by
      obtain rfl := List.mem_singleton.mp hmem
      exact not_mem_pathFrom hway.filled hq
    exact (lookup_foldl_load host hne).trans (fresh.empty q)
  have hpackage : attrs ≠ [] → (w.load host i first).node n = w.packageOf i first := by
    intro hattrs
    rcases answers.makes hfirst with ⟨o, hmodule, -⟩ | ⟨-, -, hmakes⟩
    · cases (reaches.isModule_head hsegments hattrs).symm.trans hmodule
    · rw [World.lookup_load hmakes, if_pos rfl] at hn
      obtain rfl := Option.some.inj hn
      exact node_load fresh.keyedByName hmakes
  have hmade := @walk_gives_made host (w.load host i first) n attrs i name names modules first
  simp only [World.importer_load, isAlive_load, World.packageOf] at hmade
  obtain ⟨back, nodes, hwalk, hnodes⟩ :=
    hmade answers hn hpackage fresh.live fresh.keyedByName.load hway habsent
  rw [prefixes_of_segments hsegments, List.foldl_cons, ResolverId.walk, hsegments]
  exact ⟨asked ++ back, nodes, himport.bind hwalk, hnodes⟩

/-- A walk to a name that is registered and bound with all its prefixes asks nothing. -/
theorem walk_gives_registered (host : FixedHost) (filled : "" ∉ segments name)
    (binds : w.Binds (w.resolver s).registry (prefixes name)) :
    ∃ nodes, (s.walk name).Gives host w [] (.ok nodes) w ∧
      nodes.map some = (prefixes name).map (w.lookup (w.resolver s).registry) := by
  obtain ⟨first, attrs, hsegments⟩ := List.exists_cons_of_ne_nil (segments_ne_nil name)
  rw [prefixes_of_segments hsegments] at binds ⊢
  obtain ⟨n, hn⟩ := Option.isSome_iff_exists.mp (binds.registered first List.mem_cons_self)
  have himport : (s.importName first).Gives host w [] (.ok n) w := by
    constructor <;> rw [importName_run_of_some host hn]
    rfl
  have hdotless : ∀ attr ∈ attrs, '.' ∉ attr.toList := fun attr hattr =>
    not_mem_of_mem_segments (hsegments ▸ List.mem_cons_of_mem first hattr)
  rw [hsegments, List.mem_cons, not_or] at filled
  obtain ⟨nodes, hwalk, hnodes⟩ := walk_gives_bound host (Ne.symm filled.1) filled.2 hdotless hn
    (binds.mono fun q hq => List.mem_cons_of_mem first hq)
  rw [ResolverId.walk, hsegments]
  exact ⟨nodes, himport.then hwalk, hnodes⟩

end Ways

/-- Importing a name and walking to it, each from a fresh resolver, leave worlds that are alike, and
each finds what the other has made. -/
theorem importName_agrees_walk (host : FixedHost) {w v : World} {s t : ResolverId}
    {i j : ImporterId} {names : List String} {modules : List (String × ObjectId)} {name : String}
    (fresh : w.Fresh s i) (fresh' : v.Fresh t j)
    (answers : (ClassList.build names modules).Answers host (w.importer i).enquirer)
    (answers' : (ClassList.build names modules).Answers host (v.importer j).enquirer)
    (reaches : (ClassList.build names modules).Reaches name) :
    let imported := (s.importName name).run host w
    let walked := (t.walk name).run host v
    let again := (s.walk name).run host imported.world
    ∃ n nodes m nodes', imported.result = .ok n ∧ walked.result = .ok nodes ∧
      nodes.getLast? = some m ∧ imported.world.Agrees i j walked.world ∧
      again.result = .ok nodes' ∧ again.world = imported.world ∧ again.questions = [] ∧
      nodes'.map some = (prefixes name).map (imported.world.lookup (w.importer i).registry) ∧
      (t.importName name).run host walked.world = ⟨.ok m, walked.world, []⟩ := by
  intro imported walked again
  obtain ⟨asked, n, himport, -, hloaded⟩ :=
    importName_gives_loaded fresh answers reaches.filled reaches.known
  obtain ⟨asked', nodes, hwalk, hnodes⟩ := walk_gives_loaded fresh' answers' reaches
  have hbinds := hloaded.binds fresh
  have hagrees := (World.Agrees.of_fresh fresh fresh').foldl_load fresh.keyedByName
    fresh'.keyedByName answers answers' reaches.known
  rw [← himport.world] at hbinds hagrees
  rw [← hwalk.world] at hnodes hagrees
  have hregistry : (imported.world.resolver s).registry = (w.importer i).registry := by
    rw [himport.world, World.resolver_foldl_load, fresh.only]
  have hregistry' : (walked.world.resolver t).registry = (v.importer j).registry := by
    rw [hwalk.world, World.resolver_foldl_load, fresh'.only]
  rw [← hregistry] at hbinds ⊢
  obtain ⟨nodes', hback, hnodes'⟩ := walk_gives_registered host reaches.filled hbinds
  have hlast := congrArg List.getLast? hnodes
  rw [List.getLast?_map, List.getLast?_map, getLast_prefixes reaches.filled,
    Option.map_some] at hlast
  obtain ⟨m, hm, hthere⟩ := Option.map_eq_some_iff.mp hlast
  have hagain' := importName_run_of_some host (hregistry' ▸ hthere.symm)
  exact ⟨n, nodes, m, nodes', himport.result, hwalk.result, hm, hagrees, hback.result, hback.world,
    hback.questions, hnodes', hagain'⟩

theorem importName_agrees_walk_module :
    let l := ClassList.build ["a.b.C"] [("a.b.m", ⟨7⟩)]
    let s := ResolverId.processWide
    let w := World.withHook
    let imported := (s.importName "a.b.m").run l.host w
    let walked := (s.walk "a.b.m").run l.host w
    (w.Fresh s ⟨0⟩ ∧ l.Answers l.host (w.importer ⟨0⟩).enquirer ∧ l.Reaches "a.b.m") ∧
      imported.result.toOption = some ⟨2⟩ ∧ imported.world.Agrees ⟨0⟩ ⟨0⟩ walked.world := by
  intro l s w imported walked
  have fresh : w.Fresh s ⟨0⟩ := ⟨by decide, by decide, fun _ => rfl⟩
  have answers := l.answers_host (w.importer ⟨0⟩).enquirer
  have reaches : l.Reaches "a.b.m" := by
    constructor
    · decide
    · decide +kernel
    · decide +kernel
    · decide
  obtain ⟨n, nodes, m, nodes', -, -, -, hagrees, -⟩ :=
    importName_agrees_walk l.host fresh fresh answers answers reaches
  exact ⟨⟨fresh, answers, reaches⟩, by decide +kernel, hagrees⟩

end ForeignNamespace
