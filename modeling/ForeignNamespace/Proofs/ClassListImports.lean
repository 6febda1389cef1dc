import ForeignNamespace.Proofs.ClassListAnswers
import ForeignNamespace.Proofs.ImportWalkAgreement

namespace ForeignNamespace

namespace ClassList

def knows (l : ClassList) (name : String) : Bool := l.isPackage name || l.isModule name

theorem knows_iff {l : ClassList} {name : String} :
    l.knows name = true ↔ l.isPackage name = true ∨ l.isModule name = true :=
  Bool.or_eq_true_iff

/-- Whether a fresh resolver works on a list, which its importer, of the default configuration,
asks about names as well as about classes. -/
structure Serves (l : ClassList) (host : FixedHost) (w : World) (s : ResolverId)
    (i : ImporterId) : Prop where
  fresh : w.Fresh s i
  config : (w.importer i).config = {}
  answers : l.Answers host (w.importer i).enquirer
  classes : ∃ c, (w.importer i).classes = some c ∧
    ∀ name, host (.resolveClass c name) = .ok (l.resolveClass name)

section Names

variable {names : List String} {modules : List (String × ObjectId)} {p : String}

/-- A package is well-formed, and so are the packages around it. -/
theorem isPackage_prefixes (h : (build names modules).isPackage p = true) :
    "" ∉ segments p ∧ ∀ q ∈ prefixes p, (build names modules).isPackage q = true := by
  obtain ⟨-, c, hc, hp, hne⟩ := ((exact_build names modules).isPackage p).mp h
  have hfilled := (mem_classesAmong.mp hc).2.1
  have hsegments := segments_of_mem_prefixes hfilled hp
  have hfilled' : "" ∉ segments p := fun hmem => hfilled (hsegments.subset hmem)
  refine ⟨hfilled', fun q hq => ((exact_build names modules).isPackage q).mpr ⟨?_, c, hc, ?_, ?_⟩⟩
  · rintro rfl
    exact not_mem_pathFrom hfilled' hq
  · exact (pathFrom_mono hsegments).subset hq
  · rintro rfl
    exact hne (eq_of_mem_prefixes hfilled' hq hp)

theorem not_mem_subPackages {attr : String}
    (unknown : (build names modules).isPackage (childName p attr) = false) :
    attr ∉ ((build names modules).subPackages? p).getD [] := by
  intro hmem
  cases hsubs : (build names modules).subPackages? p with
  | none =>
      rw [hsubs] at hmem
      exact List.not_mem_nil hmem
  | some subs =>
      rw [hsubs, Option.getD_some] at hmem
      have hpackage := ((((exact_build names modules).subPackages p subs hsubs).2 attr).mp hmem).2
      cases unknown.symm.trans hpackage

end Names

section Import

variable {l : ClassList} {host : FixedHost} {w : World} {s : ResolverId} {i : ImporterId}
  {name : String}

theorem Answers.makes_of_unknown (h : l.Answers host (w.importer i).enquirer)
    (unknown : l.knows name = false) : w.makes host i name = .error (.moduleNotFound name) := by
  apply makes_of_not_claims
  rw [FixedHost.claims, h.isPackage, h.knowsModule]
  exact unknown

theorem getElem_modules_of_loadModule {o : ObjectId} (h : l.loadModule name = .ok o) :
    l.modules[name]? = some o := by
  rw [loadModule] at h
  split at h
  · rename_i o' ho'
    rw [ho', Except.ok.inj h]
  · cases h

theorem getElem_modules_of_not_isModule (h : l.isModule name = false) :
    l.modules[name]? = none := by
  rw [isModule, Std.ExtTreeMap.contains_eq_isSome_getElem?] at h
  exact Option.isSome_eq_false_iff.mp h |> Option.isNone_iff_eq_none.mp

/-- What is made of a name holds the handle that is attached under the name. -/
theorem Answers.handle_of_makes (h : l.Answers host (w.importer i).enquirer) {node : Node}
    (hmakes : w.makes host i name = .ok node) : node.handle = l.modules[name]? := by
  cases hknows : l.knows name with
  | false => cases (h.makes_of_unknown hknows).symm.trans hmakes
  | true =>
      rcases h.makes (knows_iff.mp hknows) with
        ⟨o, -, hloads, hmade⟩ | ⟨hmodule, -, hmade⟩
      · rw [Except.ok.inj (hmakes.symm.trans hmade), getElem_modules_of_loadModule hloads]
        rfl
      · rw [Except.ok.inj (hmakes.symm.trans hmade), getElem_modules_of_not_isModule hmodule]
        rfl

/-- An import of a name with an unknown prefix fails at the first of these. -/
theorem importName_gives_unknown (fresh : w.Fresh s i)
    (answers : l.Answers host (w.importer i).enquirer) (filled : "" ∉ segments name)
    (unknown : ¬∀ p ∈ prefixes name, l.knows p = true) :
    ∃ failed asked w', (prefixes name).find? (fun p => !l.knows p) = some failed ∧
      (s.importName name).Gives host w asked (.error (.moduleNotFound failed)) w' := by
  obtain ⟨names, hprefixes⟩ := prefixes_eq_append filled
  have hnodup : (names ++ [name]).Nodup := hprefixes ▸ nodup_pathFrom "" filled
  have hall := importAll_inOrder host fresh.only hnodup
  have hfresh := unregistered_of_fresh fresh (prefixes name)
  have habsent : w.lookup (w.resolver s).registry name = none := by
    rw [fresh.only]
    exact fresh.empty name
  rw [← hprefixes, hfresh] at hall
  have hknown : ∀ p, (∃ node, w.makes host i p = .ok node) → l.knows p = true := by
    rintro p ⟨node, hmakes⟩
    by_contra hp
    cases (answers.makes_of_unknown (Bool.eq_false_iff.mpr hp)).symm.trans hmakes
  cases hall with
  | @stopped loaded later failed error hsplit made hfails hgives =>
      have hfailed : l.knows failed = false := by
        by_contra hp
        rcases answers.makes (knows_iff.mp (Bool.eq_true_of_not_eq_false hp)) with
          ⟨o, -, -, hok⟩ | ⟨-, -, hok⟩ <;> cases hfails.symm.trans hok
      obtain rfl := Except.error.inj (hfails.symm.trans (answers.makes_of_unknown hfailed))
      refine ⟨failed, _, _, ?_, importName_gives habsent filled hprefixes hgives⟩
      rw [List.find?_eq_some_iff_append]
      refine ⟨by rw [hfailed]; rfl, loaded, later, hsplit, fun p hp => ?_⟩
      rw [hknown p (made p hp)]
      rfl
  | finished made => exact absurd (fun p hp => hknown p (made p hp)) unknown

theorem importName_gives_made (fresh : w.Fresh s i)
    (answers : l.Answers host (w.importer i).enquirer) (filled : "" ∉ segments name)
    (known : ∀ p ∈ prefixes name, l.knows p = true) :
    ∃ asked n, (s.importName name).Gives host w asked (.ok n)
        ((prefixes name).foldl (World.load host i) w) ∧
      (((prefixes name).foldl (World.load host i) w).node n).name = name ∧
      (((prefixes name).foldl (World.load host i) w).node n).handle = l.modules[name]? := by
  obtain ⟨asked, n, hgives, there, hloaded⟩ := importName_gives_loaded fresh answers filled
    fun p hp => knows_iff.mp (known p hp)
  have hname : name ∈ prefixes name := List.mem_of_getLast? (getLast_prefixes filled)
  obtain ⟨node, cache, hmakes, hnode⟩ := hloaded.node name hname
  rw [hloaded.lookup, if_pos hname] at there
  rw [← Option.some.inj there] at hgives
  have hhandle := answers.handle_of_makes hmakes
  refine ⟨asked, _, hgives, ?_⟩
  rw [hnode]
  exact ⟨(name_of_makes hmakes).1, hhandle⟩

end Import

end ClassList

section Attributes

variable {host : FixedHost} {w : World} {s : ResolverId} {i : ImporterId} {n : NodeId}
  {parent attr : String} {names : List String} {modules : List (String × ObjectId)}

theorem World.Fresh.importer_live (fresh : w.Fresh s i) : w.isAlive (.importer i) := by
  refine List.any_eq_true.mpr ⟨.resolver s, fresh.held, ?_⟩
  simp [World.keeps, fresh.only, Finder.keeps]

theorem importName_gives_package (fresh : w.Fresh s i)
    (answers : (ClassList.build names modules).Answers host (w.importer i).enquirer)
    (package : (ClassList.build names modules).isPackage parent = true)
    (bridgeOnly : (ClassList.build names modules).isModule parent = false) :
    ∃ asked n, (s.importName parent).Gives host w asked (.ok n)
        ((prefixes parent).foldl (World.load host i) w) ∧
      ((prefixes parent).foldl (World.load host i) w).HasPackage i parent n := by
  obtain ⟨filled, known⟩ := ClassList.isPackage_prefixes package
  obtain ⟨asked, n, hgives, there, hloaded⟩ := importName_gives_loaded fresh answers filled
    fun p hp => .inl (known p hp)
  refine ⟨asked, n, hgives, ?_⟩
  obtain ⟨before, hprefixes⟩ := prefixes_eq_append filled
  -- The package is the last name that is loaded.
  have hlast : (prefixes parent).foldl (World.load host i) w =
      (before.foldl (World.load host i) w).load host i parent := by
    rw [hprefixes, List.foldl_append]
    rfl
  have hmakes : (before.foldl (World.load host i) w).makes host i parent =
      .ok (w.packageOf i parent) := by
    rcases answers.makes (.inl package) with ⟨o, hmodule, -⟩ | ⟨-, -, hmakes⟩
    · cases bridgeOnly.symm.trans hmodule
    · simpa only [World.makes, World.moduleOf, World.packageOf, World.importer_foldl_load]
        using hmakes
  have hnode : n = (before.foldl (World.load host i) w).nextNode := by
    have hlookup := World.lookup_load hmakes parent
    rw [World.importer_foldl_load, if_pos rfl, ← hlast, there] at hlookup
    exact Option.some.inj hlookup
  have named : (before.foldl (World.load host i) w).KeyedByName
      ((before.foldl (World.load host i) w).importer i).registry := by
    rw [World.importer_foldl_load]
    exact fresh.keyedByName.foldl_load before
  constructor
  · rw [World.importer_foldl_load]
    exact there
  · rw [hlast, hnode, node_load named hmakes, World.packageOf, World.packageOf, World.importer_load,
      World.importer_foldl_load]
  · rw [World.importer_foldl_load, isAlive_foldl_load]
    exact fresh.live
  · rw [World.importer_foldl_load]
    exact hloaded.keyedByName fresh.keyedByName

/-- Loading the prefixes of a name registers no child of it. -/
theorem lookup_child_foldl_load (fresh : w.Fresh s i) (filled : "" ∉ segments parent)
    (hparent : parent ≠ "") (dotless : '.' ∉ attr.toList) :
    ((prefixes parent).foldl (World.load host i) w).lookup (w.importer i).registry
      (childName parent attr) = none := by
  have hbehind : childName parent attr ∉ prefixes parent := fun hmem => by
    have hsegments := segments_of_mem_prefixes filled hmem
    rw [segments_childName hparent, segments_of_dotless dotless] at hsegments
    have hlength := hsegments.length_le
    simp at hlength
  rw [lookup_foldl_load host hbehind]
  exact fresh.empty _

theorem exportMarker_gives_passed (host : FixedHost) (h : (w.config n).allMarker ≠ attr) :
    (n.exportMarker attr).Gives host w [] .notFound w := by
  refine (Bridge.gives_world w).then ?_
  rw [beq_false_of_ne h]
  exact Bridge.gives_pure _ w

theorem subPackage_gives_passed {e : EnquirerId} (has : (w.node n).enquirer = some e)
    (unlisted : attr ∉ (host.subPackages e (w.node n).name).getD []) :
    (n.subPackage attr).Gives host w [.subPackages e (w.node n).name] .notFound w := by
  refine (Bridge.gives_world w).then ?_
  simp only [has]
  refine (Bridge.gives_ask (.subPackages e (w.node n).name) w).before ?_
  change Bridge.Gives host (if ((host.subPackages e (w.node n).name).getD []).contains attr = true
    then _ else _) w [] _ _
  rw [if_neg (by rwa [List.contains_iff_mem])]
  exact Bridge.gives_pure _ w

theorem terminal_gives_class {c : ClassResolverId} {handle : ClassHandle}
    (bridgeOnly : (w.node n).handle = none) (resolver : w.nodeClassResolver? n = some c)
    (resolves : host (.resolveClass c (childName (w.node n).name attr)) = .ok (some handle)) :
    (n.terminal attr).Gives host w [.resolveClass c (childName (w.node n).name attr)]
      (.ok (.found (.classHandle handle)))
      (w.updateNode n (·.bind attr (.value (.classHandle handle)))) := by
  refine (Bridge.gives_world w).then ?_
  simp only [bridgeOnly, resolver]
  refine (Bridge.gives_answer resolves w).before ?_
  exact (Bridge.gives_modify _ w).then (Bridge.gives_pure _ _)

theorem terminal_gives_passed {c : ClassResolverId}
    (bridgeOnly : (w.node n).handle = none) (resolver : w.nodeClassResolver? n = some c)
    (unresolved : host (.resolveClass c (childName (w.node n).name attr)) = .ok none) :
    (n.terminal attr).Gives host w [.resolveClass c (childName (w.node n).name attr)]
      (.ok .notFound) w := by
  refine (Bridge.gives_world w).then ?_
  simp only [bridgeOnly, resolver]
  exact (Bridge.gives_answer unresolved w).before (Bridge.gives_pure _ w)

theorem resolveBy_gives_notFound (host : FixedHost) (w : World) (n : NodeId) (attr : String) :
    (n.resolveBy attr []).Gives host w [] (.error (.attributeNotFound (w.node n).name attr)) w :=
  (Bridge.gives_world w).then ((Bridge.gives_report _ w).then (Bridge.gives_pure _ w))

theorem World.HoldsPackage.liveLoader (h : w.HoldsPackage i parent n)
    (alive : w.isAlive (.importer i)) : w.liveLoader? n = some i := by
  rw [World.liveLoader?, h.loader, Option.filter_some, if_pos alive]

theorem World.HoldsPackage.config_eq (h : w.HoldsPackage i parent n)
    (alive : w.isAlive (.importer i)) : w.config n = (w.importer i).config := by
  simp only [World.config, h.liveLoader alive]

/-- An access to a child that is no module and no package passes on to the exported names and the
classes. -/
theorem getAttr_gives_behind_packages
    (answers : (ClassList.build names modules).Answers host (w.importer i).enquirer)
    (h : w.HoldsPackage i parent n) (unbound : (w.node n).cache[attr]? = none)
    (plain : attr ∉ Node.metadataNames)
    (unknown : (ClassList.build names modules).knows (childName parent attr) = false)
    {back : List Query} {result : Except ImportError Value} {w' : World}
    (rest : (n.resolveBy attr [.exportMarker, .terminal]).Gives host w back result w') :
    ∃ asked, (n.getAttr attr).Gives host w asked result w' := by
  rw [ClassList.knows, Bool.or_eq_false_iff] at unknown
  have hmodule : (Strategy.foreignModule.apply n attr).Gives host w _ (.ok .notFound) w :=
    foreignModule_gives_passed h.enquirer (by rw [h.name_eq, answers.knowsModule, unknown.2])
  have hunlisted : attr ∉ (host.subPackages (w.importer i).enquirer (w.node n).name).getD [] := by
    rw [h.name_eq, answers.subPackages]
    exact ClassList.not_mem_subPackages unknown.1
  have hsub : (Strategy.subPackage.apply n attr).Gives host w _ (.ok .notFound) w :=
    (subPackage_gives_passed h.enquirer hunlisted).before (Bridge.gives_pure _ w)
  exact ⟨_, getAttr_gives_behind_native unbound h.handle plain (resolveBy_gives_passed hmodule
    (resolveBy_gives_passed hsub rest))⟩

theorem World.HoldsPackage.classResolver_eq (h : w.HoldsPackage i parent n)
    (alive : w.isAlive (.importer i)) {c : ClassResolverId}
    (classes : (w.importer i).classes = some c) : w.nodeClassResolver? n = some c := by
  simp only [World.nodeClassResolver?, h.liveLoader alive, World.classResolver?, classes,
    Option.some_or]

theorem World.HoldsPackage.exportMarker_gives_passed (host : FixedHost)
    (h : w.HoldsPackage i parent n) (alive : w.isAlive (.importer i))
    (config : (w.importer i).config = {}) (hmarker : attr ≠ "__all__") :
    (Strategy.exportMarker.apply n attr).Gives host w [] (.ok .notFound) w := by
  refine (ForeignNamespace.exportMarker_gives_passed host ?_).then (Bridge.gives_pure _ w)
  rw [h.config_eq alive, config]
  exact Ne.symm hmarker

section Classes

variable (answers : (ClassList.build names modules).Answers host (w.importer i).enquirer)
  (config : (w.importer i).config = {}) (h : w.HoldsPackage i parent n)
  (unbound : (w.node n).cache[attr]? = none) (alive : w.isAlive (.importer i))
  (plain : attr ∉ Node.metadataNames) (hmarker : attr ≠ "__all__") {c : ClassResolverId}
  (classes : (w.importer i).classes = some c)
  (unknown : (ClassList.build names modules).knows (childName parent attr) = false)

include answers config h unbound alive plain hmarker classes unknown

/-- An access to a child that is no module and no package ends at the classes. -/
theorem getAttr_gives_class {handle : ClassHandle}
    (resolves : host (.resolveClass c (childName parent attr)) = .ok (some handle)) :
    ∃ asked, (n.getAttr attr).Gives host w asked (.ok (.classHandle handle))
      (w.updateNode n (·.bind attr (.value (.classHandle handle)))) := by
  have hexport := h.exportMarker_gives_passed host alive config hmarker
  have hterminal := terminal_gives_class h.handle (h.classResolver_eq alive classes)
    (h.name_eq.symm ▸ resolves)
  exact getAttr_gives_behind_packages answers h unbound plain unknown
    (resolveBy_gives_skipped hexport (resolveBy_gives_found hterminal))

theorem getAttr_gives_nothing
    (unresolved : host (.resolveClass c (childName parent attr)) = .ok none) :
    ∃ asked, (n.getAttr attr).Gives host w asked
      (.error (.attributeNotFound parent attr)) w := by
  have hexport := h.exportMarker_gives_passed host alive config hmarker
  have hterminal := terminal_gives_passed h.handle (h.classResolver_eq alive classes)
    (h.name_eq.symm ▸ unresolved)
  have hnone := resolveBy_gives_notFound host w n attr
  rw [h.name_eq] at hnone
  exact getAttr_gives_behind_packages answers h unbound plain unknown
    (resolveBy_gives_skipped hexport (resolveBy_gives_passed hterminal hnone))

end Classes

theorem getAttr_gives_known
    (answers : (ClassList.build names modules).Answers host (w.importer i).enquirer)
    (h : w.HasPackage i parent n) (hparent : parent ≠ "") (dotless : '.' ∉ attr.toList)
    (plain : attr ∉ Node.metadataNames)
    (absent : w.lookup (w.importer i).registry (childName parent attr) = none)
    (known : (ClassList.build names modules).knows (childName parent attr) = true) :
    ∃ asked m w', (n.getAttr attr).Gives host w asked (.ok (.node m)) w' ∧
      w'.lookup (w.importer i).registry (childName parent attr) = some m ∧
      (w'.node m).name = childName parent attr ∧
      (w'.node m).handle = (ClassList.build names modules).modules[childName parent attr]? := by
  obtain ⟨asked, node, hmakes, hgives⟩ := getAttr_gives_made answers h.holds h.unbound hparent
    dotless plain absent (ClassList.knows_iff.mp known)
  refine ⟨asked, _, _, hgives, (World.lookup_load hmakes _).trans (if_pos rfl), ?_⟩
  rw [node_load h.named hmakes]
  exact ⟨(name_of_makes hmakes).1, answers.handle_of_makes hmakes⟩

end Attributes

namespace ClassList

structure Imports (l : ClassList) (name : String) (o : Outcome (Except ImportError NodeId)) :
    Prop where
  imported : (∃ n, o.result = .ok n) ↔ "" ∉ segments name ∧ ∀ p ∈ prefixes name, l.knows p = true
  node : ∀ n, o.result = .ok n →
    (o.world.node n).name = name ∧ (o.world.node n).handle = l.modules[name]?
  missing : ∀ error, "" ∉ segments name → o.result = .error error →
    ∃ p, (prefixes name).find? (fun p => !l.knows p) = some p ∧ error = .moduleNotFound p

/-- What an access to a child of a package gives, when certain classes are listed. -/
structure Finds (l : ClassList) (classes : Finset String) (r : RegistryId) (parent attr : String)
    (o : Outcome (Except ImportError Value)) : Prop where
  known : l.knows (childName parent attr) = true →
    ∃ m, o.result = .ok (.node m) ∧ o.world.lookup r (childName parent attr) = some m ∧
      (o.world.node m).name = childName parent attr ∧
      (o.world.node m).handle = l.modules[childName parent attr]?
  listed : l.knows (childName parent attr) = false → childName parent attr ∈ classes →
    o.result = .ok (.classHandle { name := childName parent attr })
  unknown : l.knows (childName parent attr) = false → childName parent attr ∉ classes →
    o.result = .error (.attributeNotFound parent attr)

section Serves

variable {names : List String} {modules : List (String × ObjectId)} {host : FixedHost} {w : World}
  {s : ResolverId} {i : ImporterId}

theorem Serves.imports {l : ClassList} (serves : l.Serves host w s i) (name : String) :
    l.Imports name ((s.importName name).run host w) := by
  by_cases malformed : "" ∈ segments name
  · have habsent : w.lookup (w.resolver s).registry name = none := by
      rw [serves.fresh.only]
      exact serves.fresh.empty name
    rw [importName_run_of_malformed habsent malformed]
    constructor <;> simp [malformed]
  · by_cases known : ∀ p ∈ prefixes name, l.knows p = true
    · obtain ⟨asked, n, hgives, hname, hhandle⟩ :=
        importName_gives_made serves.fresh serves.answers malformed known
      rw [← hgives.world] at hname hhandle
      refine ⟨⟨fun _ => ⟨malformed, known⟩, fun _ => ⟨n, hgives.result⟩⟩, ?_, ?_⟩
      · intro m hm
        obtain rfl := Except.ok.inj (hgives.result.symm.trans hm)
        exact ⟨hname, hhandle⟩
      · intro error _ herror
        cases hgives.result.symm.trans herror
    · obtain ⟨failed, asked, w', hfind, hgives⟩ :=
        importName_gives_unknown serves.fresh serves.answers malformed known
      refine ⟨⟨?_, fun h => absurd h.2 known⟩, ?_, ?_⟩
      · rintro ⟨n, hn⟩
        cases hgives.result.symm.trans hn
      · intro n hn
        cases hgives.result.symm.trans hn
      · intro error _ herror
        exact ⟨failed, hfind, Except.error.inj (herror.symm.trans hgives.result)⟩

/-- The world that an import of a package leaves still works on the list, and a child of the
package is not registered in it. -/
theorem Serves.finds (serves : (build names modules).Serves host w s i) {parent attr : String}
    {n : NodeId} {w' : World}
    (hworld : w' = (prefixes parent).foldl (World.load host i) w)
    (package : w'.HasPackage i parent n) (hpackage : (build names modules).isPackage parent = true)
    (dotless : '.' ∉ attr.toList) (plain : attr ∉ Node.metadataNames)
    (hmarker : attr ≠ "__all__") :
    (build names modules).Finds (classesAmong names) (w.importer i).registry parent attr
      ((n.getAttr attr).run host w') := by
  have hparent := (((exact_build names modules).isPackage parent).mp hpackage).1
  have himporter : w'.importer = w.importer := by rw [hworld, World.importer_foldl_load]
  obtain ⟨c, classes, resolves⟩ := serves.classes
  have answers := serves.answers
  have config := serves.config
  rw [← himporter] at answers config classes ⊢
  have alive : w'.isAlive (.importer i) := by
    rw [hworld, isAlive_foldl_load]
    exact serves.fresh.importer_live
  have absent : w'.lookup (w'.importer i).registry (childName parent attr) = none := by
    rw [himporter, hworld]
    exact lookup_child_foldl_load serves.fresh (isPackage_prefixes hpackage).1 hparent dotless
  constructor
  · intro known
    obtain ⟨asked, m, v, hgives, hfound⟩ :=
      getAttr_gives_known answers package hparent dotless plain absent known
    rw [hgives.world]
    exact ⟨m, hgives.result, hfound⟩
  · intro unknown listed
    have hclass := resolves (childName parent attr)
    rw [(exact_build names modules).resolveClass, if_pos listed] at hclass
    obtain ⟨asked, hgives⟩ := getAttr_gives_class answers config package.holds package.unbound alive
      plain hmarker classes unknown hclass
    exact hgives.result
  · intro unknown unlisted
    have hclass := resolves (childName parent attr)
    rw [(exact_build names modules).resolveClass, if_neg unlisted] at hclass
    obtain ⟨asked, hgives⟩ := getAttr_gives_nothing answers config package.holds package.unbound
      alive plain hmarker classes unknown hclass
    exact hgives.result

end Serves

/-- On a fresh resolver that works on a list, an import finds what the list knows together with all
its prefixes.  On a package just imported, an attribute is a child that the list knows, else a
class of the list, else nothing. -/
theorem serves_imports_and_finds (names : List String) (modules : List (String × ObjectId))
    {host : FixedHost} {w : World} {s : ResolverId} {i : ImporterId}
    (serves : (build names modules).Serves host w s i) :
    (∀ name, (build names modules).Imports name ((s.importName name).run host w)) ∧
      ∀ parent attr, (build names modules).isPackage parent = true →
        (build names modules).isModule parent = false → '.' ∉ attr.toList →
        attr ∉ Node.metadataNames → attr ≠ "__all__" →
        ∃ n, ((s.importName parent).run host w).result = .ok n ∧
          (build names modules).Finds (classesAmong names) (w.importer i).registry parent attr
            ((n.getAttr attr).run host ((s.importName parent).run host w).world) := by
  refine ⟨serves.imports, fun parent attr hpackage bridgeOnly dotless plain hmarker => ?_⟩
  obtain ⟨asked, n, himport, package⟩ :=
    importName_gives_package serves.fresh serves.answers hpackage bridgeOnly
  refine ⟨n, himport.result, ?_⟩
  rw [himport.world]
  exact serves.finds rfl package hpackage dotless plain hmarker

/-- A host that knows the names of a list, its classes among them. -/
def classHost (l : ClassList) : FixedHost
  | .resolveClass _ name => .ok (l.resolveClass name)
  | question => l.host question

end ClassList

/-- The start of a process with an importer installed on its resolver that has a class resolver. -/
def World.withClassHook : World :=
  (World.fresh.addImporter
    { registry := .processWide, enquirer := ⟨0⟩, classes := some ⟨0⟩, config := {} }).updateResolver
      .processWide fun resolver => { resolver with metaPath := [.hook ⟨0⟩] }

namespace ClassList

theorem serves_withClassHook (l : ClassList) :
    l.Serves l.classHost World.withClassHook .processWide ⟨0⟩ where
  fresh := ⟨by decide, by decide, fun _ => rfl⟩
  config := by decide
  answers := ⟨fun _ => rfl, fun _ => rfl, fun _ => rfl, rfl, fun _ => rfl, fun _ => rfl⟩
  classes := ⟨⟨0⟩, by decide, fun _ => rfl⟩

theorem serves_imports_and_finds_widgets :
    let l := build ["ui.kit.Widget", "ui.kit.icons.Icon"] [("ui.kit.icons", ⟨7⟩)]
    let w := World.withClassHook
    let s := ResolverId.processWide
    (l.Serves l.classHost w s ⟨0⟩ ∧ l.isPackage "ui.kit" = true ∧ l.isModule "ui.kit" = false) ∧
      l.Imports "ui.kit.icons" ((s.importName "ui.kit.icons").run l.classHost w) ∧
      ∃ n, ((s.importName "ui.kit").run l.classHost w).result = .ok n ∧
        ((n.getAttr "Widget").run l.classHost
          ((s.importName "ui.kit").run l.classHost w).world).result =
            .ok (.classHandle { name := "ui.kit.Widget" }) := by
  intro l w s
  have serves : l.Serves l.classHost w s ⟨0⟩ := l.serves_withClassHook
  have hpackage : l.isPackage "ui.kit" = true := by decide +kernel
  have hmodule : l.isModule "ui.kit" = false := by decide +kernel
  obtain ⟨himports, hfinds⟩ := serves_imports_and_finds _ _ serves
  obtain ⟨n, hn, hfinds⟩ :=
    hfinds "ui.kit" "Widget" hpackage hmodule (by decide) (by decide) (by decide)
  exact ⟨⟨serves, hpackage, hmodule⟩, himports "ui.kit.icons", n, hn,
    hfinds.listed (by decide +kernel) (by decide +kernel)⟩

end ClassList

end ForeignNamespace
