import ForeignNamespace.Proofs.AccessEffects
import ForeignNamespace.Proofs.ClassListImports

namespace ForeignNamespace

/-- Whether a node has nothing under a name but what its cache may hold, for a host of fixed
answers. -/
structure World.Lacks (host : FixedHost) (w : World) (n : NodeId) (attr : String) : Prop where
  bridgeOnly : (w.node n).handle = none
  plain : attr ∉ Node.metadataNames
  unknown : ∀ e, (w.node n).enquirer = some e →
    host.knowsModule e (childName (w.node n).name attr) = false
  unlisted : ∀ e, (w.node n).enquirer = some e →
    attr ∉ (host.subPackages e (w.node n).name).getD []
  unmarked : (w.config n).allMarker ≠ attr
  classless : ∀ c, w.nodeClassResolver? n = some c →
    host (.resolveClass c (childName (w.node n).name attr)) = .ok none

section Lacks

variable {host : FixedHost} {w v : World} {n : NodeId} {attr : String}

namespace Attribute

theorem not_mem_metadataNames {name : String} {config : Config}
    (h : Node.metadata? name config attr = none) : attr ∉ Node.metadataNames := by
  intro hmem
  simp only [Node.metadataNames, List.mem_cons, List.not_mem_nil, or_false] at hmem
  rcases hmem with rfl | rfl | rfl | rfl | rfl <;> cases h

theorem passes_of_passesAll {strategies : List Strategy} {talk : List Exchange} {s : Strategy}
    (h : PassesAll w n attr strategies talk) (hs : s ∈ strategies) :
    ∃ said, said ⊆ talk ∧ Passes w n attr s said := by
  induction strategies generalizing talk with
  | nil => cases hs
  | cons first others ih =>
      obtain ⟨front, back, rfl, hpasses, hall⟩ := h
      rcases List.mem_cons.mp hs with rfl | hs
      · exact ⟨front, List.subset_append_left front back, hpasses⟩
      · obtain ⟨said, hsub, hsaid⟩ := ih hall hs
        exact ⟨said, List.subset_append_of_subset_right front hsub, hsaid⟩

theorem KnowsModule.eq_knowsModule {e : EnquirerId} {name : String} {talk : List Exchange}
    {known : Bool} (h : KnowsModule e name talk known)
    (answers : ∀ exchange ∈ talk, exchange.answer = host exchange.question) :
    host.knowsModule e name = known := by
  cases h with
  | incapable =>
      have hcannot : false = host.loadsModules e := answers ⟨.loadsModules e, false⟩ (by simp)
      rw [FixedHost.knowsModule, ← hcannot, Bool.false_and]
  | capable =>
      have hcan : true = host.loadsModules e := answers ⟨.loadsModules e, true⟩ (by simp)
      have hknown : known = host.isModule e name := answers ⟨.isModule e name, known⟩ (by simp)
      rw [FixedHost.knowsModule, ← hcan, ← hknown, Bool.true_and]

/-- If all strategies pass, a host of fixed answers has nothing to say about the name. -/
theorem lacks_of_passesAll {talk : List Exchange} (h : PassesAll w n attr Strategy.chain talk)
    (answers : ∀ exchange ∈ talk, exchange.answer = host exchange.question) :
    w.Lacks host n attr := by
  have hpasses : ∀ s ∈ Strategy.chain, ∃ said, Passes w n attr s said ∧
      ∀ exchange ∈ said, exchange.answer = host exchange.question := by
    intro s hs
    obtain ⟨said, hsub, hsaid⟩ := passes_of_passesAll h hs
    exact ⟨said, hsaid, fun exchange hmem => answers exchange (hsub hmem)⟩
  obtain ⟨_, hnative, -⟩ := hpasses .native (by decide)
  obtain ⟨_, hmodule, hmoduleSaid⟩ := hpasses .foreignModule (by decide)
  obtain ⟨_, hsub, hsubSaid⟩ := hpasses .subPackage (by decide)
  obtain ⟨_, hexport, -⟩ := hpasses .exportMarker (by decide)
  obtain ⟨_, hterminal, hterminalSaid⟩ := hpasses .terminal (by decide)
  have bridgeOnly : (w.node n).handle = none := by
    cases hterminal with
    | noResolver bridgeOnly => exact bridgeOnly
    | noClass bridgeOnly => exact bridgeOnly
  refine ⟨bridgeOnly, ?_, fun e has => ?_, fun e has => ?_, ?_, fun c has => ?_⟩
  · cases hnative with
    | backed backed => cases bridgeOnly.symm.trans backed
    | noMetadata _ other => exact not_mem_metadataNames other
  · cases hmodule with
    | noEnquirer lacks => cases lacks.symm.trans has
    | noModule has' unknown =>
        obtain rfl := Option.some.inj (has.symm.trans has')
        exact unknown.eq_knowsModule hmoduleSaid
  · cases hsub with
    | noEnquirerForPackages lacks => cases lacks.symm.trans has
    | @noSubPackage e' subPackages has' other =>
        obtain rfl := Option.some.inj (has.symm.trans has')
        have hsaid : subPackages = host.subPackages e (w.node n).name :=
          hsubSaid ⟨.subPackages e (w.node n).name, subPackages⟩ (by simp)
        rwa [← hsaid]
  · cases hexport with
    | noMarker other => exact other
  · cases hterminal with
    | noResolver _ lacks => cases lacks.symm.trans has
    | noClass _ has' =>
        obtain rfl := Option.some.inj (has.symm.trans has')
        exact (hterminalSaid ⟨.resolveClass c _, .ok none⟩ (by simp)).symm

end Attribute

theorem World.Lacks.congr (h : w.Lacks host n attr)
    (node : ∃ cache, v.node n = { w.node n with cache }) (config : v.config n = w.config n)
    (classes : v.nodeClassResolver? n = w.nodeClassResolver? n) : v.Lacks host n attr := by
  obtain ⟨cache, hnode⟩ := node
  constructor
  · rw [hnode]
    exact h.bridgeOnly
  · exact h.plain
  · rw [hnode]
    exact h.unknown
  · rw [hnode]
    exact h.unlisted
  · rw [config]
    exact h.unmarked
  · rw [hnode, classes]
    exact h.classless

/-- Whether a computation runs without a load of a foreign module. -/
def Bridge.GivesUnloaded {α : Type} (host : FixedHost) (p : Bridge α) (w : World) (a : α)
    (w' : World) : Prop :=
  ∃ asked, p.Gives host w asked a w' ∧ ∀ q ∈ asked, q.isLoad = false

theorem World.Lacks.foreignModule_gives (h : w.Lacks host n attr) :
    (n.foreignModule attr).GivesUnloaded host w (.ok .notFound) w := by
  cases has : (w.node n).enquirer with
  | none =>
      refine ⟨[], (Bridge.gives_world w).then ?_, by simp⟩
      simp only [has]
      exact Bridge.gives_pure _ w
  | some e =>
      refine ⟨_, foreignModule_gives_passed has (h.unknown e has), fun q hq => ?_⟩
      rw [FixedHost.moduleQuestions] at hq
      split at hq
      · rcases List.mem_pair.mp hq with rfl | rfl <;> rfl
      · rw [List.mem_singleton.mp hq]
        rfl

theorem World.Lacks.subPackage_gives (h : w.Lacks host n attr) :
    (n.subPackage attr).GivesUnloaded host w .notFound w := by
  cases has : (w.node n).enquirer with
  | none =>
      refine ⟨[], (Bridge.gives_world w).then ?_, by simp⟩
      simp only [has]
      exact Bridge.gives_pure _ w
  | some e =>
      refine ⟨_, subPackage_gives_passed has (h.unlisted e has), fun q hq => ?_⟩
      rw [List.mem_singleton.mp hq]
      rfl

theorem World.Lacks.terminal_gives (h : w.Lacks host n attr) :
    (n.terminal attr).GivesUnloaded host w (.ok .notFound) w := by
  cases has : w.nodeClassResolver? n with
  | none =>
      refine ⟨[], (Bridge.gives_world w).then ?_, by simp⟩
      simp only [h.bridgeOnly, has]
      exact Bridge.gives_pure _ w
  | some c =>
      refine ⟨_, terminal_gives_passed h.bridgeOnly has (h.classless c has), fun q hq => ?_⟩
      rw [List.mem_singleton.mp hq]
      rfl

theorem World.Lacks.getAttr_gives (h : w.Lacks host n attr)
    (unbound : (w.node n).cache[attr]? = none) :
    (n.getAttr attr).GivesUnloaded host w
      (.error (.attributeNotFound (w.node n).name attr)) w := by
  obtain ⟨modules, hmodule, hmodules⟩ := h.foreignModule_gives
  obtain ⟨subs, hsub, hsubs⟩ := h.subPackage_gives
  obtain ⟨classes, hterminal, hclasses⟩ := h.terminal_gives
  have hmodule' : (Strategy.foreignModule.apply n attr).Gives host w modules (.ok .notFound) w :=
    hmodule
  have hterminal' : (Strategy.terminal.apply n attr).Gives host w classes (.ok .notFound) w :=
    hterminal
  have hsub' : (Strategy.subPackage.apply n attr).Gives host w subs (.ok .notFound) w :=
    hsub.before (Bridge.gives_pure _ w)
  have hexport : (Strategy.exportMarker.apply n attr).Gives host w [] (.ok .notFound) w :=
    (exportMarker_gives_passed host h.unmarked).then (Bridge.gives_pure _ w)
  have hrest := resolveBy_gives_passed hmodule' (resolveBy_gives_passed hsub'
    (resolveBy_gives_skipped hexport (resolveBy_gives_passed hterminal'
      (resolveBy_gives_notFound host w n attr))))
  refine ⟨_, getAttr_gives_behind_native unbound h.bridgeOnly h.plain hrest, fun q hq => ?_⟩
  simp only [List.append_nil, List.mem_append] at hq
  rcases hq with hq | hq | hq
  · exact hmodules q hq
  · exact hsubs q hq
  · exact hclasses q hq

end Lacks

section Import

variable {host : FixedHost} {u v w : World} {s : ResolverId} {i : ImporterId} {n m : NodeId}
  {name attr : String} {new : List String}

theorem importName_inOrder (host : FixedHost)
    (only : w.resolver s = { registry := (w.importer i).registry, metaPath := [.hook i] })
    (absent : w.lookup (w.importer i).registry name = none) (filled : "" ∉ segments name) :
    ImportsInOrder host w i (w.unregistered (w.importer i).registry (prefixes name)) name
      (s.importName name) := by
  obtain ⟨names, hprefixes⟩ := prefixes_eq_append filled
  have hnodup : (prefixes name).Nodup := nodup_pathFrom "" filled
  have absent' : w.lookup (w.resolver s).registry name = none := by
    rw [only]
    exact absent
  have hall := importAll_inOrder host only (hprefixes ▸ hnodup)
  rw [hprefixes]
  cases hall with
  | stopped split made fails gives =>
      exact .stopped split made fails (importName_gives absent' filled hprefixes gives)
  | finished made there gives =>
      exact .finished made there (importName_gives absent' filled hprefixes gives)

/-- What a world becomes by an import that finds a node. -/
structure World.Gains (host : FixedHost) (i : ImporterId) (w : World) (name : String)
    (new : List String) (v : World) : Prop where
  loaded : w.Loaded host i new v
  onTheWay : ∀ p ∈ new, p ∈ prefixes name
  filled : new ≠ [] → "" ∉ segments name
  absent : ∀ p ∈ new, w.lookup (w.importer i).registry p = none

theorem importName_run_ok
    (only : w.resolver s = { registry := (w.importer i).registry, metaPath := [.hook i] })
    (named : w.KeyedByName (w.importer i).registry)
    (h : ((s.importName name).run host w).result = .ok m) :
    ((s.importName name).run host w).world.lookup (w.importer i).registry name = some m ∧
      ∃ new, w.Gains host i name new ((s.importName name).run host w).world := by
  have hregistry : (w.resolver s).registry = (w.importer i).registry := by rw [only]
  cases hlookup : w.lookup (w.importer i).registry name with
  | some there =>
      rw [importName_run_of_some host (hregistry ▸ hlookup)] at h ⊢
      obtain rfl := Except.ok.inj h
      exact ⟨hlookup, [], .nil host i w, by simp, by simp, by simp⟩
  | none =>
      by_cases filled : "" ∈ segments name
      · rw [importName_run_of_malformed (hregistry ▸ hlookup) filled] at h
        cases h
      · cases importName_inOrder host only hlookup filled with
        | stopped split made fails gives => cases gives.result.symm.trans h
        | finished made there gives =>
            obtain rfl := Except.ok.inj (gives.result.symm.trans h)
            rw [gives.world]
            have hloaded := loaded_of_prefixes named filled (List.append_nil _).symm made
            refine ⟨there, _, hloaded, fun p hp => (List.mem_filter.mp hp).1, fun _ => filled, ?_⟩
            exact fun p hp => Option.isNone_iff_eq_none.mp (List.mem_filter.mp hp).2

/-- The error in place of a name's node, if there is one. -/
def World.failure? (host : FixedHost) (i : ImporterId) (w : World) (name : String) :
    Option ImportError :=
  match w.makes host i name with
  | .error error => some error
  | .ok _ => none

/-- What an import gives, read off the registry and the host. -/
def World.imports (host : FixedHost) (i : ImporterId) (w : World) (name : String) :
    Except ImportError NodeId :=
  let r := (w.importer i).registry
  let fresh := w.unregistered r (prefixes name)
  match w.lookup r name with
  | some n => .ok n
  | none =>
    if "" ∈ segments name then .error (.invalidName name)
    else match fresh.findSome? (w.failure? host i) with
      | some error => .error error
      | none => .ok ⟨w.nodes.next + fresh.idxOf name⟩

theorem importName_run_result (host : FixedHost)
    (only : w.resolver s = { registry := (w.importer i).registry, metaPath := [.hook i] })
    (named : w.KeyedByName (w.importer i).registry) (name : String) :
    ((s.importName name).run host w).result = w.imports host i name := by
  have hregistry : (w.resolver s).registry = (w.importer i).registry := by rw [only]
  have hpasses : ∀ {names : List String}, (∀ p ∈ names, ∃ node, w.makes host i p = .ok node) →
      names.findSome? (w.failure? host i) = none := by
    intro names made
    rw [List.findSome?_eq_none_iff]
    intro p hp
    obtain ⟨node, hmakes⟩ := made p hp
    rw [World.failure?, hmakes]
  rw [World.imports]
  cases hlookup : w.lookup (w.importer i).registry name with
  | some there => rw [importName_run_of_some host (hregistry ▸ hlookup)]
  | none =>
      by_cases filled : "" ∈ segments name
      · rw [importName_run_of_malformed (hregistry ▸ hlookup) filled, if_pos filled]
      · rw [if_neg filled]
        cases importName_inOrder host only hlookup filled with
        | stopped split made fails gives =>
            rw [gives.result, split, List.findSome?_append, hpasses made, Option.none_or,
              List.findSome?_cons, World.failure?, fails]
        | finished made there gives =>
            have hloaded := loaded_of_prefixes named filled (List.append_nil _).symm made
            have hmem : name ∈ w.unregistered (w.importer i).registry (prefixes name) := by
              refine List.mem_filter.mpr ⟨List.mem_of_getLast? (getLast_prefixes filled), ?_⟩
              rw [hlookup]
              rfl
            rw [hloaded.lookup, if_pos hmem] at there
            rw [gives.result, hpasses made, Option.some.inj there]

/-- What an import gives depends on what is registered, not on what nodes keep. -/
theorem World.imports_congr (importer : v.importer = w.importer)
    (next : v.nodes.next = w.nodes.next) (lookup : ∀ r p, v.lookup r p = w.lookup r p)
    (name : String) : v.imports host i name = w.imports host i name := by
  have hlookup : v.lookup = w.lookup := funext₂ lookup
  have hfailure : v.failure? host i = w.failure? host i := by
    funext p
    simp only [World.failure?, World.makes, World.moduleOf, World.packageOf, importer]
  simp only [World.imports, World.unregistered, importer, next, hlookup, hfailure]

/-- An import of a child can bind nothing else under the child's short name. -/
theorem World.Gains.cached (h : w.Gains host i (childName (w.node n).name attr) new v)
    (named : w.KeyedByName (w.importer i).registry) (here : n.index < w.nodes.next) :
    (v.node n).cache[attr]? = (w.node n).cache[attr]? ∨
      (v.node n).cache[attr]? = some (.submodule (childName (w.node n).name attr)) := by
  by_cases hbinds : ∃ p ∈ new, leafName p = attr ∧
      (parentPackage? p).bind (w.lookup (w.importer i).registry) = some n
  · right
    obtain ⟨p, hp, hleaf, hbind⟩ := hbinds
    obtain ⟨parent, hparent, hn⟩ := Option.bind_eq_some_iff.mp hbind
    obtain ⟨m, hm, hbound⟩ := h.loaded.bound p hp parent hparent
    have hold : parent ∉ new := fun hmem => by cases (h.absent parent hmem).symm.trans hn
    rw [h.loaded.lookup, if_neg hold, hn] at hm
    obtain rfl := Option.some.inj hm
    have filled := h.filled (List.ne_nil_of_mem hp)
    have hroot : parent ≠ "" := by
      rintro rfl
      obtain ⟨front, back, hsplit⟩ := List.append_of_mem (h.onTheWay p hp)
      rcases parentPackage_of_pathFrom (fun _ hseg => not_mem_of_mem_segments hseg) hsplit hparent
        with hmem | ⟨-, hne⟩
      · have hempty : "" ∉ prefixes (childName (w.node n).name attr) := not_mem_pathFrom filled
        rw [hsplit] at hempty
        exact hempty (List.mem_append_left _ hmem)
      · exact absurd rfl hne
    have hp' := eq_of_parentPackage hparent
    rw [named.name_eq hn, childName_of_ne hroot, ← hleaf, ← hp', hbound]
  · left
    exact h.loaded.cached n attr here fun p hp hleaf hbind => hbinds ⟨p, hp, hleaf, hbind⟩

theorem defaultClasses_load : (w.load host i name).defaultClasses = w.defaultClasses := by
  rcases World.load_cases host i w name with h | ⟨node, h | ⟨n, h⟩⟩ <;> rw [h] <;> rfl

theorem defaultClasses_foldl_load (names : List String) :
    (names.foldl (World.load host i) w).defaultClasses = w.defaultClasses := by
  induction names generalizing w with
  | nil => rfl
  | cons name names ih => rw [List.foldl_cons, ih, defaultClasses_load]

theorem World.Loaded.liveLoader (h : w.Loaded host i new v) (here : n.index < w.nodes.next) :
    v.liveLoader? n = w.liveLoader? n := by
  obtain ⟨cache, hnode⟩ := h.kept n here
  have halive : ∀ handle, v.isAlive handle = w.isAlive handle := fun handle => by
    rw [h.world, isAlive_foldl_load]
  simp only [World.liveLoader?, hnode, halive]

theorem World.Lacks.loaded (lacks : w.Lacks host n attr) (h : w.Loaded host i new v)
    (here : n.index < w.nodes.next) : v.Lacks host n attr := by
  refine lacks.congr (h.kept n here) ?_ ?_
  · simp only [World.config, h.liveLoader here, h.importer]
  · have hdefault : v.defaultClasses = w.defaultClasses := by
      rw [h.world, defaultClasses_foldl_load]
    simp only [World.nodeClassResolver?, World.classResolver?, h.liveLoader here, h.importer,
      hdefault]

/-- Not-found outcomes of the import behind an access, replaced by that of the access. -/
def Fallback.error (missing error : ImportError) : ImportError :=
  if error.isNotFound then missing else error

theorem importFrom_gives_access {asked : List Query} {result : Except ImportError Value}
    (access : (n.getAttr attr).Gives host w asked result v)
    (decided : ∀ error, result = .error error → error.isNotFound = false) :
    (s.importFrom n attr).Gives host w asked result v := by
  refine access.before ?_
  cases result with
  | ok value => exact Bridge.gives_pure _ v
  | error error =>
      simp only [decided error rfl, Bool.false_eq_true, if_false]
      exact Bridge.gives_pure _ v

theorem importFrom_gives_import {asked back : List Query} {missing : ImportError}
    {result : Except ImportError NodeId} (hmissing : missing.isNotFound = true)
    (access : (n.getAttr attr).Gives host w asked (.error missing) v)
    (imported : (s.importName (childName (v.node n).name attr)).Gives host v back result u) :
    (s.importFrom n attr).Gives host w (asked ++ back)
      ((result.map Value.node).mapError (Fallback.error missing)) u := by
  refine access.bind ?_
  simp only [hmissing, if_true]
  refine (Bridge.gives_world v).then (imported.before ?_)
  cases result with
  | ok child => exact Bridge.gives_pure _ u
  | error error => exact Bridge.gives_pure _ u

/-- What is registered under the child's name is given without a load. -/
theorem importFrom_gives_registered (lacks : w.Lacks host n attr)
    (bound : (w.node n).cache[attr]? = none ∨
      (w.node n).cache[attr]? = some (.submodule (childName (w.node n).name attr)))
    (live : w.isAlive (.registry (w.node n).registry))
    (home : (w.resolver s).registry = (w.node n).registry)
    (there : w.lookup (w.node n).registry (childName (w.node n).name attr) = some m) :
    (s.importFrom n attr).GivesUnloaded host w (.ok (.node m)) w := by
  rcases bound with unbound | bound
  · obtain ⟨asked, hget, hasked⟩ := lacks.getAttr_gives unbound
    have himport : (s.importName (childName (w.node n).name attr)).Gives host w [] (.ok m) w := by
      have hrun := importName_run_of_some host (home ▸ there)
      constructor <;> rw [hrun]
      rfl
    refine ⟨asked ++ [], importFrom_gives_import rfl hget himport, ?_⟩
    rwa [List.append_nil]
  · have hget := getAttr_gives_bound host live bound there
    exact ⟨[], importFrom_gives_access hget (by simp), by simp⟩

end Import

/-- Whether a from-import goes by an access and, if that finds nothing, by an import of the
child. -/
structure Fallback (owner attr : String) (access : Outcome (Except ImportError Value))
    (imported : Outcome (Except ImportError NodeId)) (o : Outcome (Except ImportError Value)) :
    Prop where
  failures : ∀ error, access.result = .error error →
    error = .attributeNotFound owner attr ∨ ∃ cause, error = .foreign cause
  decided : access.result ≠ .error (.attributeNotFound owner attr) →
    o.result = access.result ∧ o.world = access.world
  behind : access.result = .error (.attributeNotFound owner attr) →
    o.result = (imported.result.map Value.node).mapError
      (Fallback.error (.attributeNotFound owner attr)) ∧ o.world = imported.world

namespace Fallback

variable {owner attr : String} {access : Outcome (Except ImportError Value)}
  {imported : Outcome (Except ImportError NodeId)} {o : Outcome (Except ImportError Value)}

theorem ne_moduleNotFound (h : Fallback owner attr access imported o) (name : String) :
    o.result ≠ .error (.moduleNotFound name) := by
  intro hresult
  by_cases hmissing : access.result = .error (.attributeNotFound owner attr)
  · rw [(h.behind hmissing).1] at hresult
    cases himported : imported.result with
    | ok child =>
        rw [himported] at hresult
        cases hresult
    | error error =>
        rw [himported] at hresult
        have herror : Fallback.error (.attributeNotFound owner attr) error = .moduleNotFound name :=
          Except.error.inj hresult
        rw [Fallback.error] at herror
        split at herror
        · cases herror
        · rename_i hfound
          rw [herror] at hfound
          exact hfound rfl
  · rw [(h.decided hmissing).1] at hresult
    rcases h.failures _ hresult with heq | ⟨cause, heq⟩ <;> cases heq

theorem foreign (h : Fallback owner attr access imported o) {cause : ForeignError}
    (raised : access.result = .error (.foreign cause) ∨
      access.result = .error (.attributeNotFound owner attr) ∧
        imported.result = .error (.foreign cause)) : o.result = .error (.foreign cause) := by
  rcases raised with raised | ⟨hmissing, raised⟩
  · rw [(h.decided (by rw [raised]; simp)).1, raised]
  · rw [(h.behind hmissing).1, raised]
    rfl

end Fallback

/-- Whether from-imports of a name give a node as often as they are made, and load nothing. -/
def ResolverId.KeepsGiving (host : FixedHost) (s : ResolverId) (n : NodeId) (attr : String)
    (m : NodeId) (w : World) : Prop :=
  ∀ times : Nat,
    let v := Nat.iterate (fun v => ((s.importFrom n attr).run host v).world) times w
    let o := (s.importFrom n attr).run host v
    o.result = .ok (.node m) ∧ o.world = w ∧ ∀ q ∈ o.questions, q.isLoad = false

section Agreement

variable {host : FixedHost} {w v : World} {s : ResolverId} {i : ImporterId} {n m : NodeId}
  {attr : String}

theorem ResolverId.keepsGiving_of_gives
    (h : (s.importFrom n attr).GivesUnloaded host w (.ok (.node m)) w) :
    s.KeepsGiving host n attr m w := by
  obtain ⟨asked, hgives, hasked⟩ := h
  intro times
  have hstays : Nat.iterate (fun v => ((s.importFrom n attr).run host v).world) times w = w :=
    Function.iterate_fixed hgives.world times
  simp only [hstays]
  exact ⟨hgives.result, hgives.world, fun q hq => hasked q (hgives.questions ▸ hq)⟩

theorem Attribute.foreign_of_decides {strategy : Strategy} {talk : List Exchange}
    {error : ImportError} (h : Attribute.Decides w n attr strategy talk (.error error) v) :
    ∃ cause, error = .foreign cause := by
  cases h <;> exact ⟨_, rfl⟩

theorem Attribute.unbound_of_passes {talk : List Exchange}
    (h : Attribute.Passes w n attr .cache talk) :
    ((w.withoutStale n attr).node n).cache[attr]? = none := by
  cases h with
  | unbound empty =>
      rw [World.withoutStale, empty]
      exact empty
  | stale bound gone =>
      simp only [World.withoutStale, bound, gone, Option.isNone_none, if_true,
        World.node_updateNode_self]
      exact Std.ExtTreeMap.getElem?_erase_self

/-- An access that finds nothing takes a stale binding out at most, and the node has nothing else
under the name. -/
theorem getAttr_run_cases (host : FixedHost) (attr : String) (here : n.index < w.nodes.next)
    (live : w.isAlive (.registry (w.node n).registry))
    (named : w.KeyedByName (w.node n).registry) :
    let access := (n.getAttr attr).run host w
    (∀ error, access.result = .error error →
      error = .attributeNotFound (w.node n).name attr ∨ ∃ cause, error = .foreign cause) ∧
      (access.result = .error (.attributeNotFound (w.node n).name attr) →
        w.Lacks host n attr ∧ access.world = w.withoutStale n attr ∧
          (access.world.node n).cache[attr]? = none) := by
  intro access
  obtain ⟨talk, htalk, answers⟩ := Bridge.exists_talks_run host (n.getAttr attr) w
  rcases Attribute.getAttr_talks here live named htalk with
    ⟨_, _, _, _, _, -, rfl, -, hdecides⟩ | ⟨hpasses, hresult, hworld⟩
  · have hfailed : ∀ error, access.result = .error error → ∃ cause, error = .foreign cause := by
      intro error herror
      change Attribute.Decides w n attr _ _ access.result access.world at hdecides
      rw [herror] at hdecides
      exact Attribute.foreign_of_decides hdecides
    refine ⟨fun error herror => .inr (hfailed error herror), fun hmissing => ?_⟩
    obtain ⟨cause, heq⟩ := hfailed _ hmissing
    cases heq
  · refine ⟨fun error herror => .inl ?_, fun _ => ?_⟩
    · exact Except.error.inj (herror.symm.trans hresult)
    · obtain ⟨said, -, hcache⟩ := Attribute.passes_of_passesAll hpasses
        (show Strategy.cache ∈ Strategy.chain by decide)
      have hunbound := Attribute.unbound_of_passes hcache
      rw [← hworld] at hunbound
      exact ⟨Attribute.lacks_of_passesAll hpasses answers, hworld, hunbound⟩

theorem World.Lacks.withoutStale (h : w.Lacks host n attr) :
    (w.withoutStale n attr).Lacks host n attr :=
  h.congr (w.node_withoutStale n attr n) (w.config_withoutStale n attr n)
    (w.nodeClassResolver_withoutStale n attr n)

@[simp] theorem World.importer_withoutStale :
    (w.withoutStale n attr).importer = w.importer := by
  rcases w.withoutStale_cases n attr with h | h <;> rw [h]
  rfl

@[simp] theorem World.resolver_withoutStale :
    (w.withoutStale n attr).resolver = w.resolver := by
  rcases w.withoutStale_cases n attr with h | h <;> rw [h]
  rfl

theorem World.KeyedByName.withoutStale {r : RegistryId} (h : w.KeyedByName r) :
    (w.withoutStale n attr).KeyedByName r := by
  constructor
  · intro name m hm
    rw [World.lookup_withoutStale] at hm
    rw [World.next_withoutStale]
    exact h.lt_next hm
  · intro name m hm
    rw [World.lookup_withoutStale] at hm
    rw [World.name_withoutStale]
    exact h.name_eq hm

theorem fallback_run (host : FixedHost) (s : ResolverId) (attr : String)
    (here : n.index < w.nodes.next) (live : w.isAlive (.registry (w.node n).registry))
    (named : w.KeyedByName (w.node n).registry) :
    let access := (n.getAttr attr).run host w
    Fallback (w.node n).name attr access
      ((s.importName (childName (w.node n).name attr)).run host access.world)
      ((s.importFrom n attr).run host w) := by
  intro access
  obtain ⟨failures, hmissing⟩ := getAttr_run_cases host attr here live named
  have haccess : (n.getAttr attr).Gives host w access.questions access.result access.world :=
    ⟨rfl, rfl, rfl⟩
  refine ⟨failures, fun found => ?_, fun missing => ?_⟩
  · have hfrom := importFrom_gives_access (s := s) haccess fun error herror => by
      rcases failures error herror with rfl | ⟨cause, rfl⟩
      · exact absurd herror found
      · rfl
    exact ⟨hfrom.result, hfrom.world⟩
  · obtain ⟨-, hworld, -⟩ := hmissing missing
    have hname : (access.world.node n).name = (w.node n).name := by
      rw [hworld, World.name_withoutStale]
    rw [missing] at haccess
    have himport : (s.importName (childName (access.world.node n).name attr)).Gives host
      access.world _ _ _ := ⟨rfl, rfl, rfl⟩
    have hfrom := importFrom_gives_import rfl haccess himport
    rw [hname] at hfrom
    exact ⟨hfrom.result, hfrom.world⟩

/-- A node of a registry, and a resolver over that registry whose only finder is an importer. -/
structure ResolverId.ImportsBeside (s : ResolverId) (i : ImporterId) (n : NodeId) (w : World) :
    Prop where
  only : w.resolver s = { registry := (w.importer i).registry, metaPath := [.hook i] }
  named : w.KeyedByName (w.importer i).registry
  here : n.index < w.nodes.next
  home : (w.node n).registry = (w.importer i).registry
  live : w.isAlive (.registry (w.importer i).registry)

/-- Taking a stale binding out concerns neither the resolver nor the registry. -/
theorem ResolverId.ImportsBeside.withoutStale (h : s.ImportsBeside i n w) (attr : String) :
    s.ImportsBeside i n (w.withoutStale n attr) := by
  constructor
  · rw [World.resolver_withoutStale, World.importer_withoutStale]
    exact h.only
  · rw [World.importer_withoutStale]
    exact h.named.withoutStale
  · rw [World.next_withoutStale]
    exact h.here
  · rw [World.registry_withoutStale, World.importer_withoutStale]
    exact h.home
  · rw [World.isAlive_withoutStale, World.importer_withoutStale]
    exact h.live

/-- What an import of a child has registered is given by from-imports, bound on the node or not. -/
theorem importName_keepsGiving (h : s.ImportsBeside i n w) (lacks : w.Lacks host n attr)
    (unbound : (w.node n).cache[attr]? = none)
    (imported : ((s.importName (childName (w.node n).name attr)).run host w).result = .ok m) :
    s.KeepsGiving host n attr m
      ((s.importName (childName (w.node n).name attr)).run host w).world := by
  obtain ⟨there, new, gains⟩ := importName_run_ok h.only h.named imported
  generalize ((s.importName (childName (w.node n).name attr)).run host w).world = v at there gains ⊢
  obtain ⟨cache, hnode⟩ := gains.loaded.kept n h.here
  have hname : (v.node n).name = (w.node n).name := by rw [hnode]
  have hregistry : (v.node n).registry = (w.importer i).registry := by rw [hnode, h.home]
  have hresolver : (v.resolver s).registry = (w.importer i).registry := by
    rw [gains.loaded.world, World.resolver_foldl_load, h.only]
  have hbound := gains.cached h.named h.here
  rw [unbound, ← hname] at hbound
  refine ResolverId.keepsGiving_of_gives
    (importFrom_gives_registered (lacks.loaded gains.loaded h.here) hbound ?_ ?_ ?_)
  · rw [hregistry, gains.loaded.world, isAlive_foldl_load]
    exact h.live
  · rw [hresolver, hregistry]
  · rw [hregistry, hname]
    exact there

/-- A from-import gives what an access to the attribute gives, unless that finds nothing; then it
gives what an import of the child gives, and not-found counts as not found on the node.  So a module
is never reported missing and what the host raises is passed on.  The node of a module that was
imported behind an access is given again and again, and is not loaded again. -/
theorem importFrom_agrees (host : FixedHost) {w : World} {s : ResolverId} {i : ImporterId}
    {n : NodeId} (attr : String)
    (only : w.resolver s = { registry := (w.importer i).registry, metaPath := [.hook i] })
    (named : w.KeyedByName (w.importer i).registry) (here : n.index < w.nodes.next)
    (home : (w.node n).registry = (w.importer i).registry)
    (live : w.isAlive (.registry (w.importer i).registry)) :
    let missing : ImportError := .attributeNotFound (w.node n).name attr
    let child := childName (w.node n).name attr
    let access := (n.getAttr attr).run host w
    let imported := (s.importName child).run host access.world
    let o := (s.importFrom n attr).run host w
    Fallback (w.node n).name attr access imported o ∧
      (access.result = .error missing →
        imported.result = ((s.importName child).run host w).result) ∧
      (∀ name, o.result ≠ .error (.moduleNotFound name)) ∧
      (∀ cause, access.result = .error (.foreign cause) ∨
        access.result = .error missing ∧ imported.result = .error (.foreign cause) →
          o.result = .error (.foreign cause)) ∧
      ∀ m, access.result = .error missing → imported.result = .ok m →
        o.result = .ok (.node m) ∧ s.KeepsGiving host n attr m o.world := by
  intro missing child access imported o
  have live' : w.isAlive (.registry (w.node n).registry) := home ▸ live
  have hfallback : Fallback (w.node n).name attr access imported o :=
    fallback_run host s attr here live' (home ▸ named)
  obtain ⟨-, hmissing⟩ := getAttr_run_cases host attr here live' (home ▸ named)
  have hbeside : s.ImportsBeside i n (w.withoutStale n attr) :=
    ResolverId.ImportsBeside.withoutStale ⟨only, named, here, home, live⟩ attr
  refine ⟨hfallback, fun hnone => ?_, hfallback.ne_moduleNotFound, fun cause =>
    hfallback.foreign, fun m hnone hm => ?_⟩
  · have hworld : access.world = w.withoutStale n attr := (hmissing hnone).2.1
    change ((s.importName child).run host access.world).result = _
    rw [hworld, importName_run_result host hbeside.only hbeside.named,
      importName_run_result host only named]
    exact World.imports_congr World.importer_withoutStale (w.next_withoutStale n attr)
      (w.lookup_withoutStale n attr) child
  · obtain ⟨lacks, hworld, hunbound⟩ := hmissing hnone
    obtain ⟨hresult, hafter⟩ := hfallback.behind hnone
    refine ⟨by rw [hresult, hm]; rfl, ?_⟩
    change access.world = w.withoutStale n attr at hworld
    change ((s.importName child).run host access.world).result = .ok m at hm
    rw [hafter]
    change s.KeepsGiving host n attr m ((s.importName child).run host access.world).world
    have hchild : childName ((w.withoutStale n attr).node n).name attr = child := by
      rw [World.name_withoutStale]
    rw [hworld] at hunbound
    rw [hworld, ← hchild] at hm ⊢
    exact importName_keepsGiving hbeside lacks.withoutStale hunbound hm

end Agreement

/-- The start of a process with an importer installed on its resolver and a package that has a
node besides the registered one. -/
def World.withStray : World :=
  (World.withHook.addNode (.bridge "pkg" .processWide none none)).addRegistered
    (.bridge "pkg" .processWide none none)

/-- The node that is not registered never gets the module bound. -/
theorem importFrom_agrees_stray :
    let w := World.withStray
    let host := FixedHost.knowing "pkg.mod" ⟨7⟩
    let s := ResolverId.processWide
    let n : NodeId := ⟨0⟩
    let access := (n.getAttr "mod").run host w
    let imported := (s.importName "pkg.mod").run host access.world
    let o := (s.importFrom n "mod").run host w
    (w.resolver s = { registry := (w.importer ⟨0⟩).registry, metaPath := [.hook ⟨0⟩] } ∧
        w.KeyedByName (w.importer ⟨0⟩).registry ∧ n.index < w.nodes.next ∧
        (w.node n).registry = (w.importer ⟨0⟩).registry ∧
        w.isAlive (.registry (w.importer ⟨0⟩).registry) = true) ∧
      access.result = .error (.attributeNotFound "pkg" "mod") ∧ imported.result = .ok ⟨2⟩ ∧
      o.result = .ok (.node ⟨2⟩) ∧ s.KeepsGiving host n "mod" ⟨2⟩ o.world := by
  intro w host s n access imported o
  have only : w.resolver s =
      { registry := (w.importer ⟨0⟩).registry, metaPath := [.hook ⟨0⟩] } := by
    decide +kernel
  have named : w.KeyedByName (w.importer ⟨0⟩).registry := .addRegistered (.of_empty fun _ => rfl) _
  have here : n.index < w.nodes.next := by decide +kernel
  have home : (w.node n).registry = (w.importer ⟨0⟩).registry := by decide +kernel
  have live : w.isAlive (.registry (w.importer ⟨0⟩).registry) = true := by decide +kernel
  have lacking : access.result = .error (.attributeNotFound "pkg" "mod") := by rfl
  have finding : imported.result = .ok ⟨2⟩ := by decide +kernel
  have hagrees := importFrom_agrees host "mod" only named here home live
  exact ⟨⟨only, named, here, home, live⟩, lacking, finding, hagrees.2.2.2.2 ⟨2⟩ lacking finding⟩

end ForeignNamespace
