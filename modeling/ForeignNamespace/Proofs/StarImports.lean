import ForeignNamespace.Proofs.FromImports
import ForeignNamespace.Proofs.IdentityStability

/-!
Importing all names of a package of a list.

Each name is imported from the package's node, and what it makes or finds is kept there.  While the
names are imported the node keeps nothing but children that are registered and classes of the list,
so a name finds the same whatever was imported before it.
-/

namespace ForeignNamespace

namespace ClassList

/-- The names that a package exports: its sub-packages, then the last segments of its classes. -/
def exports (l : ClassList) (p : String) : List String :=
  (l.subPackages? p).getD [] ++ ((l.classNames? p).getD []).map leafName

/-- What a package exports under a short name, in a world in which its children are registered. -/
def exported? (l : ClassList) (w : World) (r : RegistryId) (p attr : String) : Option Value :=
  (Node.metadata? p {} attr).or <|
    if l.knows (childName p attr) then (w.lookup r (childName p attr)).map .node
    else if attr = "__all__" then some (.list ((l.exports p).map .str))
    else some (.classHandle { name := childName p attr })

/-- What the node of a package may keep under a short name while all names are imported. -/
inductive Keeps (l : ClassList) (w : World) (r : RegistryId) (p attr : String) : Binding → Prop
  | child {m : NodeId} (known : l.knows (childName p attr) = true)
      (there : w.lookup r (childName p attr) = some m) :
      Keeps l w r p attr (.submodule (childName p attr))
  | listed (unknown : l.knows (childName p attr) = false) (other : attr ≠ "__all__") :
      Keeps l w r p attr (.value (.classHandle { name := childName p attr }))

/-- A package of a list, whose importer asks the list, while its names are imported. -/
structure Exporting (l : ClassList) (host : FixedHost) (i : ImporterId) (p : String) (n : NodeId)
    (w : World) : Prop where
  package : w.HoldsPackage i p n
  alive : w.isAlive (.importer i)
  config : (w.importer i).config = {}
  answers : l.Answers host (w.importer i).enquirer
  classes : ∃ c, (w.importer i).classes = some c ∧
    ∀ name, host (.resolveClass c name) = .ok (l.resolveClass name)
  plain : ∀ attr binding, (w.node n).cache[attr]? = some binding → attr ∉ Node.metadataNames
  kept : ∀ attr binding, (w.node n).cache[attr]? = some binding →
    l.Keeps w (w.importer i).registry p attr binding
  bound : ∀ attr, '.' ∉ attr.toList → (w.node n).cache[attr]? = none →
    w.lookup (w.importer i).registry (childName p attr) = none
  handles : ∀ {name m}, w.lookup (w.importer i).registry name = some m →
    (w.node m).handle = l.modules[name]?

section Exports

variable {names : List String} {modules : List (String × ObjectId)} {p attr : String}

theorem dotless_of_mem_exports (h : attr ∈ (build names modules).exports p) :
    '.' ∉ attr.toList := by
  rw [exports, List.mem_append] at h
  rcases h with h | h
  · cases hsubs : (build names modules).subPackages? p with
    | none =>
        rw [hsubs] at h
        cases h
    | some subs =>
        rw [hsubs, Option.getD_some] at h
        exact ((((exact_build names modules).subPackages p subs hsubs).2 attr).mp h).1
  · obtain ⟨c, -, rfl⟩ := List.mem_map.mp h
    exact dotless_leafName c

/-- What is exported and is no module and no package is a class. -/
theorem resolveClass_of_mem_exports (h : attr ∈ (build names modules).exports p)
    (hp : p ≠ "") (unknown : (build names modules).knows (childName p attr) = false) :
    (build names modules).resolveClass (childName p attr) =
      some { name := childName p attr } := by
  rw [exports, List.mem_append] at h
  rw [knows, Bool.or_eq_false_iff] at unknown
  rcases h with h | h
  · exact absurd h (not_mem_subPackages unknown.1)
  · obtain ⟨c, hc, rfl⟩ := List.mem_map.mp h
    cases hclasses : (build names modules).classNames? p with
    | none =>
        rw [hclasses] at hc
        cases hc
    | some classes =>
        rw [hclasses, Option.getD_some] at hc
        obtain ⟨hlisted, hparent⟩ :=
          (((exact_build names modules).classNames p classes hclasses).2 c).mp hc
        have hchild : childName p (leafName c) = c := by
          rw [childName_of_ne hp, ← eq_of_parentPackage hparent]
        rw [hchild, (exact_build names modules).resolveClass, if_pos hlisted]

end Exports

section Exported

variable {l : ClassList} {w v : World} {r : RegistryId} {p attr : String} {value : Value}

theorem exported_of_metadata (h : Node.metadata? p {} attr = some value) :
    l.exported? w r p attr = some value := by
  rw [exported?, h, Option.some_or]

theorem exported_of_known {m : NodeId} (plain : attr ∉ Node.metadataNames)
    (known : l.knows (childName p attr) = true) (there : w.lookup r (childName p attr) = some m) :
    l.exported? w r p attr = some (.node m) := by
  rw [exported?, metadata_of_not_mem plain, Option.none_or, if_pos known, there]
  rfl

theorem exported_of_marker (unknown : l.knows (childName p "__all__") = false) :
    l.exported? w r p "__all__" = some (.list ((l.exports p).map .str)) := by
  rw [exported?, metadata_of_not_mem (by decide), Option.none_or, unknown, if_neg (by simp),
    if_pos rfl]

theorem exported_of_class (plain : attr ∉ Node.metadataNames)
    (unknown : l.knows (childName p attr) = false) (other : attr ≠ "__all__") :
    l.exported? w r p attr = some (.classHandle { name := childName p attr }) := by
  rw [exported?, metadata_of_not_mem plain, Option.none_or, unknown, if_neg (by simp),
    if_neg other]

/-- What is registered later does not change what is exported already. -/
theorem exported_mono (keeps : ∀ {name m}, w.lookup r name = some m → v.lookup r name = some m)
    (h : l.exported? w r p attr = some value) : l.exported? v r p attr = some value := by
  rw [exported?] at h ⊢
  cases hmetadata : Node.metadata? p {} attr with
  | some known =>
      rw [hmetadata, Option.some_or] at h
      rwa [Option.some_or]
  | none =>
      rw [hmetadata, Option.none_or] at h
      rw [Option.none_or]
      split
      · rename_i known
        rw [if_pos known] at h
        obtain ⟨m, hm, rfl⟩ := Option.map_eq_some_iff.mp h
        rw [keeps hm]
        rfl
      · rename_i unknown
        rwa [if_neg unknown] at h

end Exported

section Access

variable {host : FixedHost} {w v : World} {n : NodeId} {attr : String} {value : Value}

theorem getAttr_gives_value (host : FixedHost)
    (bound : (w.node n).cache[attr]? = some (.value value)) :
    (n.getAttr attr).Gives host w [] (.ok value) w := by
  have hcached : (n.cached? attr).Gives host w [] (some value) w := by
    refine (Bridge.gives_world w).then ?_
    simp only [bound]
    exact Bridge.gives_pure _ w
  exact resolveBy_gives_found (hcached.then (Bridge.gives_pure _ w))

theorem getAttr_gives_metadata (host : FixedHost) (unbound : (w.node n).cache[attr]? = none)
    (bridgeOnly : (w.node n).handle = none)
    (known : Node.metadata? (w.node n).name (w.config n) attr = some value) :
    (n.getAttr attr).Gives host w [] (.ok value) w := by
  have hcache : (Strategy.cache.apply n attr).Gives host w [] (.ok .notFound) w :=
    (cached_gives_none host unbound).then (Bridge.gives_pure _ w)
  have hnative : (n.native attr).Gives host w [] (.found value) w := by
    refine (Bridge.gives_world w).then ?_
    simp only [Node.isForeignBacked, bridgeOnly, Option.isSome_none, Bool.false_eq_true, if_false,
      known]
    exact Bridge.gives_pure _ w
  have hfound : (Strategy.native.apply n attr).Gives host w [] (.ok (.found value)) w :=
    hnative.then (Bridge.gives_pure _ w)
  exact resolveBy_gives_skipped hcache (resolveBy_gives_skipped
    (delegate_gives_passed host attr bridgeOnly) (resolveBy_gives_found hfound))

theorem listNames_gives {e : EnquirerId} (has : (w.node n).enquirer = some e) :
    (n.listNames).Gives host w
      [.subPackages e (w.node n).name, .classNames e (w.node n).name]
      ((host.subPackages e (w.node n).name).getD [] ++
        ((host (.classNames e (w.node n).name)).getD []).map leafName) w := by
  refine (Bridge.gives_world w).then ?_
  simp only [has]
  exact (Bridge.gives_ask (.subPackages e (w.node n).name) w).bind
    ((Bridge.gives_ask (.classNames e (w.node n).name) w).before (Bridge.gives_pure _ w))

theorem exportMarker_gives_found {asked : List Query} {exported : List String}
    (marker : (w.config n).allMarker = attr) (listed : n.listNames.Gives host w asked exported w) :
    (n.exportMarker attr).Gives host w asked (.found (.list (exported.map .str))) w := by
  refine (Bridge.gives_world w).then ?_
  simp only [marker, beq_self_eq_true, if_true]
  exact listed.before (Bridge.gives_pure _ w)

end Access

namespace Exporting

variable {names : List String} {modules : List (String × ObjectId)} {host : FixedHost}
  {w v : World} {s : ResolverId} {i : ImporterId} {p attr : String} {n : NodeId}

/-- The node may be bound something more, if nothing else is registered but that. -/
theorem bind {l : ClassList} {binding : Binding} (h : l.Exporting host i p n w)
    (importer : v.importer = w.importer) (alive : ∀ a, v.isAlive a = w.isAlive a)
    (named : v.KeyedByName (w.importer i).registry)
    (node : v.node n = (w.node n).bind attr binding) (plain : attr ∉ Node.metadataNames)
    (kept : l.Keeps v (w.importer i).registry p attr binding)
    (keeps : ∀ {name m}, w.lookup (w.importer i).registry name = some m →
      v.lookup (w.importer i).registry name = some m)
    (others : ∀ other, '.' ∉ other.toList → other ≠ attr →
      v.lookup (w.importer i).registry (childName p other) =
        w.lookup (w.importer i).registry (childName p other))
    (handles : ∀ {name m}, v.lookup (w.importer i).registry name = some m →
      (v.node m).handle = l.modules[name]?) : l.Exporting host i p n v := by
  obtain ⟨cache, hnode⟩ := h.package.node
  have hcache : ∀ other, (v.node n).cache[other]? =
      if attr = other then some binding else (w.node n).cache[other]? := fun other => by
    simp only [node, Node.bind, Std.ExtTreeMap.getElem?_insert, Std.compare_eq_iff_eq]
  constructor
  · refine ⟨?_, ⟨cache.insert attr binding, ?_⟩, ?_, ?_⟩
    · rw [importer]
      exact keeps h.package.registered
    · rw [node, hnode, World.packageOf, World.packageOf, importer]
      rfl
    · rw [importer, alive]
      exact h.package.live
    · rw [importer]
      exact named
  · rw [alive]
    exact h.alive
  · rw [importer]
    exact h.config
  · rw [importer]
    exact h.answers
  · rw [importer]
    exact h.classes
  · intro other binding' hbound
    rw [hcache] at hbound
    split at hbound
    · rename_i heq
      exact heq ▸ plain
    · exact h.plain other binding' hbound
  · intro other binding' hbound
    rw [hcache] at hbound
    rw [importer]
    split at hbound
    · rename_i heq
      obtain rfl := Option.some.inj hbound
      exact heq ▸ kept
    · cases h.kept other binding' hbound with
      | child known there => exact .child known (keeps there)
      | listed unknown hother => exact .listed unknown hother
  · intro other dotless unbound
    rw [hcache] at unbound
    rw [importer]
    split at unbound
    · cases unbound
    · rename_i hne
      rw [others other dotless (Ne.symm hne)]
      exact h.bound other dotless unbound
  · rw [importer]
    exact handles

/-- The load of a child binds it on the package. -/
theorem load (h : (build names modules).Exporting host i p n w) (hp : p ≠ "")
    (dotless : '.' ∉ attr.toList) (plain : attr ∉ Node.metadataNames)
    (known : (build names modules).knows (childName p attr) = true)
    (absent : w.lookup (w.importer i).registry (childName p attr) = none) {node : Node}
    (hmakes : w.makes host i (childName p attr) = .ok node) :
    (build names modules).Exporting host i p n (w.load host i (childName p attr)) := by
  have hload := load_child hp dotless h.package.registered hmakes
  have hlookup := World.lookup_load hmakes
  have hnode : (w.load host i (childName p attr)).node n =
      (w.node n).bind attr (.submodule (childName p attr)) := by
    rw [hload, World.node_bindSubmodule_self, World.node_addRegistered_of_lt w h.package.lt_next]
  refine h.bind World.importer_load (fun a => isAlive_load a) h.package.named.load hnode plain
    ?_ ?_ ?_ ?_
  · exact .child known ((hlookup _).trans (if_pos rfl))
  · intro name m hm
    rw [hlookup, if_neg, hm]
    rintro rfl
    cases absent.symm.trans hm
  · intro other hdotless hne
    rw [hlookup, if_neg]
    exact fun heq => hne (childName_inj dotless hdotless heq).2.symm
  · intro name m hm
    rw [hlookup] at hm
    split at hm
    · rename_i heq
      obtain rfl := Option.some.inj hm
      rw [node_load h.package.named hmakes, ← heq]
      exact h.answers.handle_of_makes hmakes
    · obtain ⟨cache, hnode⟩ := World.node_load_of_lt hmakes (h.package.named.lt_next hm)
      rw [hnode]
      exact h.handles hm

/-- A class of the list is bound on the package. -/
theorem bindClass {l : ClassList} (h : l.Exporting host i p n w)
    (plain : attr ∉ Node.metadataNames) (other : attr ≠ "__all__")
    (unknown : l.knows (childName p attr) = false) :
    l.Exporting host i p n (w.updateNode n
      (·.bind attr (.value (.classHandle { name := childName p attr })))) := by
  have hnames : ∀ m, ((w.updateNode n
      (·.bind attr (.value (.classHandle { name := childName p attr })))).node m).handle =
        (w.node m).handle := fun m => by
    rw [World.node_updateNode]
    split <;> rfl
  refine h.bind rfl (fun _ => rfl) ?_ (World.node_updateNode_self w n _) plain
    (.listed unknown other) id (fun _ _ _ => rfl) ?_
  · exact (World.grows_updateNode h.package.named n fun node =>
      (rfl : (node.bind attr _).name = node.name)).1
  · intro name m hm
    rw [hnames]
    exact h.handles hm

/-- A world in which more may be registered than before. -/
structure Grown (l : ClassList) (host : FixedHost) (i : ImporterId) (p : String) (n : NodeId)
    (w v : World) : Prop where
  exporting : l.Exporting host i p n v
  importer : v.importer = w.importer
  keeps : ∀ {name m}, w.lookup (w.importer i).registry name = some m →
    v.lookup (w.importer i).registry name = some m

theorem grown_refl {l : ClassList} (h : l.Exporting host i p n w) : Grown l host i p n w w :=
  ⟨h, rfl, id⟩

theorem Grown.trans {l : ClassList} {u : World} (first : Grown l host i p n w u)
    (second : Grown l host i p n u v) : Grown l host i p n w v := by
  refine ⟨second.exporting, second.importer.trans first.importer, fun hm => ?_⟩
  have hfirst := first.keeps hm
  rw [← first.importer] at hfirst ⊢
  exact second.keeps hfirst

theorem Grown.exported {l : ClassList} {value : Value} (h : Grown l host i p n w v)
    (found : l.exported? w (w.importer i).registry p attr = some value) :
    l.exported? v (w.importer i).registry p attr = some value :=
  exported_mono h.keeps found

section Getting

variable (h : (build names modules).Exporting host i p n w)
  (unmarked : (build names modules).knows (childName p "__all__") = false)

include h

theorem config_eq : w.config n = {} := by
  rw [h.package.config_eq h.alive, h.config]

/-- What the package keeps under a name is what it exports. -/
theorem getAttr_gives_kept {binding : Binding} (plain : attr ∉ Node.metadataNames)
    (kept : (w.node n).cache[attr]? = some binding) :
    ∃ value, (n.getAttr attr).Gives host w [] (.ok value) w ∧
      (build names modules).exported? w (w.importer i).registry p attr = some value := by
  cases h.kept attr binding kept with
  | child known there =>
      refine ⟨_, getAttr_gives_bound host h.package.live_node kept ?_,
        exported_of_known plain known there⟩
      rw [h.package.registry]
      exact there
  | listed unknown other =>
      exact ⟨_, getAttr_gives_value host kept, exported_of_class plain unknown other⟩

include unmarked in
theorem getAttr_gives_exports :
    ∃ asked, (n.getAttr "__all__").Gives host w asked
      (.ok (.list (((build names modules).exports p).map .str))) w := by
  have plain : "__all__" ∉ Node.metadataNames := by decide
  have unbound : (w.node n).cache["__all__"]? = none := by
    cases hcached : (w.node n).cache["__all__"]? with
    | none => rfl
    | some binding =>
        cases h.kept _ binding hcached with
        | child known => cases known.symm.trans unmarked
        | listed _ other => exact absurd rfl other
  have hnames : n.listNames.Gives host w _ _ w := listNames_gives h.package.enquirer
  rw [h.package.name_eq, h.answers.subPackages, h.answers.classNames] at hnames
  have hexport := exportMarker_gives_found (by rw [h.config_eq]) hnames
  have hfound : (Strategy.exportMarker.apply n "__all__").Gives host w _ (.ok (.found _)) w :=
    hexport.before (Bridge.gives_pure _ w)
  exact getAttr_gives_behind_packages h.answers h.package unbound plain unmarked
    (resolveBy_gives_found hfound)

include unmarked in
/-- An access to a name that the package exports finds what is exported, and registers no more than
that. -/
theorem getAttr_gives (hp : p ≠ "") (exported : attr ∈ (build names modules).exports p) :
    ∃ asked value v, (n.getAttr attr).Gives host w asked (.ok value) v ∧
      Grown (build names modules) host i p n w v ∧
      (build names modules).exported? v (w.importer i).registry p attr = some value := by
  have dotless := dotless_of_mem_exports exported
  cases hcached : (w.node n).cache[attr]? with
  | some binding =>
      obtain ⟨value, hget, hexported⟩ :=
        h.getAttr_gives_kept (h.plain attr binding hcached) hcached
      exact ⟨_, value, w, hget, grown_refl h, hexported⟩
  | none =>
      cases hmetadata : Node.metadata? p {} attr with
      | some value =>
          have hknown : Node.metadata? (w.node n).name (w.config n) attr = some value := by
            rw [h.package.name_eq, h.config_eq, hmetadata]
          exact ⟨_, value, w, getAttr_gives_metadata host hcached h.package.handle hknown,
            grown_refl h, exported_of_metadata hmetadata⟩
      | none =>
          have plain := Attribute.not_mem_metadataNames hmetadata
          cases known : (build names modules).knows (childName p attr) with
          | true =>
              have absent := h.bound attr dotless hcached
              obtain ⟨asked, node, hmakes, hget⟩ := getAttr_gives_made h.answers h.package hcached
                hp dotless plain absent (knows_iff.mp known)
              have hlookup := World.lookup_load hmakes
              refine ⟨asked, _, _, hget, ⟨h.load hp dotless plain known absent hmakes,
                World.importer_load, fun hm => ?_⟩, exported_of_known plain known ?_⟩
              · rw [hlookup, if_neg, hm]
                rintro rfl
                cases absent.symm.trans hm
              · exact (hlookup _).trans (if_pos rfl)
          | false =>
              by_cases hmarker : attr = "__all__"
              · subst hmarker
                obtain ⟨asked, hget⟩ := h.getAttr_gives_exports unmarked
                exact ⟨asked, _, w, hget, grown_refl h, exported_of_marker unmarked⟩
              · obtain ⟨c, classes, resolves⟩ := h.classes
                have hclass := resolves (childName p attr)
                rw [resolveClass_of_mem_exports exported hp known] at hclass
                obtain ⟨asked, hget⟩ := getAttr_gives_class h.answers h.config h.package hcached
                  h.alive plain hmarker classes known hclass
                exact ⟨asked, _, _, hget, ⟨h.bindClass plain hmarker known, rfl, id⟩,
                  exported_of_class plain known hmarker⟩

end Getting

/-- Exported names are imported one after the other, each as what it is in the end. -/
theorem importEach_gives (s : ResolverId) (h : (build names modules).Exporting host i p n w)
    (hp : p ≠ "") (unmarked : (build names modules).knows (childName p "__all__") = false)
    {attrs : List String} (exported : ∀ attr ∈ attrs, attr ∈ (build names modules).exports p) :
    ∃ asked bindings v, (s.importEach n attrs).Gives host w asked (.ok bindings) v ∧
      Grown (build names modules) host i p n w v ∧ bindings.map Prod.fst = attrs ∧
      ∀ b ∈ bindings, (build names modules).exported? v (w.importer i).registry p b.1 =
        some b.2 := by
  induction attrs generalizing w with
  | nil => exact ⟨[], [], w, Bridge.gives_pure _ w, grown_refl h, rfl, by simp⟩
  | cons attr attrs ih =>
      obtain ⟨asked, value, u, hget, hgrown, hvalue⟩ :=
        h.getAttr_gives unmarked hp (exported attr List.mem_cons_self)
      obtain ⟨back, bindings, v, hrest, hgrown', hfst, hbindings⟩ := ih hgrown.exporting
        fun other hother => exported other (List.mem_cons_of_mem _ hother)
      rw [hgrown.importer] at hbindings
      have hfrom := importFrom_gives_access (s := s) hget (by simp)
      have hcons : (s.importEach n (attr :: attrs)).Gives host w (asked ++ (back ++ []))
          (.ok ((attr, value) :: bindings)) v :=
        hfrom.bind (hrest.bind (Bridge.gives_pure _ v))
      refine ⟨_, _, v, hcons, hgrown.trans hgrown', by rw [List.map_cons, hfst], ?_⟩
      intro b hb
      rcases List.mem_cons.mp hb with rfl | hb
      · rw [← hgrown.importer] at hvalue ⊢
        exact hgrown'.exported hvalue
      · exact hbindings b hb

theorem importStar_gives (s : ResolverId) (h : (build names modules).Exporting host i p n w)
    (hp : p ≠ "") (unmarked : (build names modules).knows (childName p "__all__") = false) :
    ∃ asked bindings v, (s.importStar n).Gives host w asked (.ok bindings) v ∧
      Grown (build names modules) host i p n w v ∧
      bindings.map Prod.fst = (build names modules).exports p ∧
      ∀ b ∈ bindings, (build names modules).exported? v (w.importer i).registry p b.1 =
        some b.2 := by
  obtain ⟨asked, hmarker⟩ := h.getAttr_gives_exports unmarked
  obtain ⟨back, bindings, v, heach, hrest⟩ := h.importEach_gives s hp unmarked fun _ hmem => hmem
  refine ⟨asked ++ back, bindings, v, ?_, hrest⟩
  refine (Bridge.gives_world w).then ?_
  rw [h.config_eq]
  refine hmarker.bind ?_
  have hnames : (((build names modules).exports p).map Value.str).filterMap Value.asStr? =
      (build names modules).exports p := by
    rw [List.filterMap_map]
    exact List.filterMap_some
  change (s.importEach n ((((build names modules).exports p).map Value.str).filterMap
    Value.asStr?)).Gives host w back (.ok bindings) v
  rw [hnames]
  exact heach

end Exporting

section Serves

variable {names : List String} {modules : List (String × ObjectId)} {host : FixedHost} {w : World}
  {s : ResolverId} {i : ImporterId} {p : String}

/-- What an import of a package leaves behind. -/
theorem Serves.exporting (serves : (build names modules).Serves host w s i) {n : NodeId}
    (package : ((prefixes p).foldl (World.load host i) w).HasPackage i p n)
    (hpackage : (build names modules).isPackage p = true) :
    (build names modules).Exporting host i p n ((prefixes p).foldl (World.load host i) w) := by
  obtain ⟨filled, known⟩ := isPackage_prefixes hpackage
  have hp := (((exact_build names modules).isPackage p).mp hpackage).1
  obtain ⟨_, _, -, -, hloaded⟩ := importName_gives_loaded serves.fresh serves.answers filled
    fun q hq => .inl (known q hq)
  have himporter := hloaded.importer
  have hempty : ∀ attr binding,
      (((prefixes p).foldl (World.load host i) w).node n).cache[attr]? ≠ some binding :=
    fun attr binding hbound => by cases package.unbound.symm.trans hbound
  constructor
  · exact package.holds
  · rw [isAlive_foldl_load]
    exact serves.fresh.importer_live
  · rw [himporter]
    exact serves.config
  · rw [himporter]
    exact serves.answers
  · rw [himporter]
    exact serves.classes
  · exact fun attr binding hbound => absurd hbound (hempty attr binding)
  · exact fun attr binding hbound => absurd hbound (hempty attr binding)
  · intro attr dotless _
    rw [himporter]
    exact lookup_child_foldl_load serves.fresh filled hp dotless
  · intro name m hm
    rw [himporter, hloaded.lookup] at hm
    split at hm
    · rename_i hname
      obtain rfl := Option.some.inj hm
      obtain ⟨node, cache, hmakes, hnode⟩ := hloaded.node name hname
      have hhandle := serves.answers.handle_of_makes hmakes
      rw [hnode]
      exact hhandle
    · cases (serves.fresh.empty name).symm.trans hm

/-- Bindings of the same names by one function are the same. -/
theorem eq_of_map_fst_eq {found : String → Option Value} {xs ys : List (String × Value)}
    (names : xs.map Prod.fst = ys.map Prod.fst) (hxs : ∀ b ∈ xs, found b.1 = some b.2)
    (hys : ∀ b ∈ ys, found b.1 = some b.2) : xs = ys := by
  have hfound : ∀ {bindings : List (String × Value)}, (∀ b ∈ bindings, found b.1 = some b.2) →
      bindings.map (fun b => (b.1, some b.2)) =
        (bindings.map Prod.fst).map fun attr => (attr, found attr) := by
    intro bindings h
    rw [List.map_map]
    refine List.map_congr_left fun b hb => ?_
    rw [Function.comp_apply, h b hb]
  have hinj : Function.Injective fun b : String × Value => (b.1, some b.2) := by
    rintro ⟨attr, value⟩ ⟨attr', value'⟩ h
    simpa using h
  refine List.map_injective_iff.mpr hinj ?_
  rw [hfound hxs, hfound hys, names]

end Serves

/-- On a fresh resolver that works on a list, importing all names of a package that was just
imported does not fail.  It binds the sub-packages and then the classes, each as what the package
exports under the name, and does so again when it is repeated. -/
theorem importStar_complete (names : List String) (modules : List (String × ObjectId))
    {host : FixedHost} {w : World} {s : ResolverId} {i : ImporterId}
    (serves : (build names modules).Serves host w s i) {p : String}
    (package : (build names modules).isPackage p = true)
    (bridgeOnly : (build names modules).isModule p = false)
    (unmarked : (build names modules).knows (childName p "__all__") = false) :
    let l := build names modules
    let r := (w.importer i).registry
    let imported := (s.importName p).run host w
    ∃ n bindings, imported.result = .ok n ∧
      let star := (s.importStar n).run host imported.world
      let again := (s.importStar n).run host star.world
      star.result = .ok bindings ∧ bindings.map Prod.fst = l.exports p ∧
        (∀ b ∈ bindings, l.exported? star.world r p b.1 = some b.2) ∧
        (∀ name m, star.world.lookup r name = some m →
          (star.world.node m).name = name ∧ (star.world.node m).handle = l.modules[name]?) ∧
        again.result = .ok bindings := by
  intro l r imported
  have hp := (((exact_build names modules).isPackage p).mp package).1
  obtain ⟨asked, n, himport, hhas⟩ :=
    importName_gives_package serves.fresh serves.answers package bridgeOnly
  have hexporting := serves.exporting hhas package
  rw [← himport.world] at hexporting
  have himporter : imported.world.importer = w.importer := by
    rw [show imported.world = _ from himport.world, World.importer_foldl_load]
  obtain ⟨_, bindings, v, hstar, hgrown, hfst, hbindings⟩ :=
    hexporting.importStar_gives s hp unmarked
  obtain ⟨_, bindings', u, hagain, hgrown', hfst', hbindings'⟩ :=
    hgrown.exporting.importStar_gives s hp unmarked
  have hrepeats : bindings' = bindings := by
    refine eq_of_map_fst_eq (hfst'.trans hfst.symm) hbindings' fun b hb => ?_
    refine hgrown'.exported ?_
    rw [hgrown.importer]
    exact hbindings b hb
  have hregistry : (v.importer i).registry = r := by rw [hgrown.importer, himporter]
  have hnamed := hgrown.exporting.package.named
  have hhandles := @hgrown.exporting.handles
  rw [himporter] at hbindings
  rw [hregistry] at hnamed hhandles
  refine ⟨n, bindings, himport.result, ?_⟩
  intro star again
  have hworld : star.world = v := hstar.world
  refine ⟨hstar.result, hfst, ?_, ?_, ?_⟩
  · rw [hworld]
    exact hbindings
  · rw [hworld]
    exact fun name m hm => ⟨hnamed.name_eq hm, hhandles hm⟩
  · change ((s.importStar n).run host star.world).result = .ok bindings
    rw [hworld, hagain.result, hrepeats]

/-- A name that is a module, a package and a class is bound twice. -/
theorem importStar_complete_widgets :
    let l := build ["ui.kit.Widget", "ui.kit.icons", "ui.kit.icons.Icon"] [("ui.kit.icons", ⟨7⟩)]
    let w := World.withClassHook
    let s := ResolverId.processWide
    let imported := (s.importName "ui.kit").run l.classHost w
    (l.Serves l.classHost w s ⟨0⟩ ∧ l.isPackage "ui.kit" = true ∧ l.isModule "ui.kit" = false ∧
        l.knows "ui.kit.__all__" = false) ∧
      ∃ n bindings, imported.result = .ok n ∧
        let star := (s.importStar n).run l.classHost imported.world
        star.result = .ok bindings ∧ bindings.map Prod.fst = ["icons", "Widget", "icons"] ∧
          ∀ b ∈ bindings, l.exported? star.world .processWide "ui.kit" b.1 = some b.2 := by
  intro l w s imported
  have serves : l.Serves l.classHost w s ⟨0⟩ := l.serves_withClassHook
  have package : l.isPackage "ui.kit" = true := by decide +kernel
  have bridgeOnly : l.isModule "ui.kit" = false := by decide +kernel
  have unmarked : l.knows "ui.kit.__all__" = false := by decide +kernel
  have hexports : l.exports "ui.kit" = ["icons", "Widget", "icons"] := by decide +kernel
  obtain ⟨n, bindings, himport, hstar, hfst, hbindings, -⟩ :=
    importStar_complete _ _ serves package bridgeOnly unmarked
  exact ⟨⟨serves, package, bridgeOnly, unmarked⟩, n, bindings, himport, hstar,
    hfst.trans hexports, hbindings⟩

end ClassList
end ForeignNamespace
