import ForeignNamespace.Proofs.CacheWrites

/-!
The metadata of a node.

A foreign-backed node has its metadata bound from the start, and a bridge-only node has nothing
bound under the metadata names and answers for itself.  Both stay so until the names are rebound by
hand or by an import (`intact_guarded`).  So the answers depend on the node, and on a bridge-only
one on the configuration, but not on the host or on what happened before.
-/

namespace ForeignNamespace

/-- Whether what is bound under the metadata names is what was bound when the node was made. -/
def Node.Intact (node : Node) : Prop :=
  ∀ attr ∈ metadataNames, node.cache[attr]? =
    if node.isForeignBacked then (metadata? node.name {} attr).map .value else none

/-- Whether an incident may bind or unbind metadata of a node: the host does it by hand, or tries a
strategy that binds what it finds, or a node is bound that was imported. -/
inductive Incident.Rebinds (n : NodeId) : Incident → Prop
  | set {attr : String} (known : attr ∈ Node.metadataNames) (v : Value) :
      Rebinds n (.began (.call (.setAttr n attr v)))
  | deleted {attr : String} (known : attr ∈ Node.metadataNames) :
      Rebinds n (.began (.call (.delAttr n attr)))
  | tried {attr : String} {s : Strategy} (known : attr ∈ Node.metadataNames)
      (binds : s ∉ [Strategy.cache, .native, .exportMarker]) :
      Rebinds n (.began (.tryStrategy s n attr))
  | imported {operation : Operation} {w : World} {attr name : String}
      (known : attr ∈ Node.metadataNames) (imports : operation.BindsImports)
      (bound : (w.node n).cache[attr]? = some (.submodule name)) :
      Rebinds n (.wrote operation w)

/-- What a node gives under the metadata names.  The file marker is that of the configuration on a
bridge-only node and the default one on a foreign-backed one. -/
def World.metadata (w : World) (n : NodeId) : List (String × Value) :=
  let node := w.node n
  let config := if node.isForeignBacked then {} else w.config n
  [("__name__", .str node.name), ("__file__", .str config.fileMarker), ("__path__", .list []),
    ("__package__", .none), ("__loader__", .none)]

namespace Bridge

variable {α β : Type}

/-- Whether a computation in a world comes to a result by reading and reporting alone. -/
inductive Tells : Bridge α → World → List Event → α → Prop
  | pure (a : α) (w : World) : Tells (.pure a) w [] a
  | read {next : World → Bridge α} {w : World} {events : List Event} {a : α}
      (rest : Tells (next w) w events a) : Tells (.read next) w events a
  | emit {event : Event} {next : Bridge α} {w : World} {events : List Event} {a : α}
      (rest : Tells next w events a) : Tells (.emit event next) w (event :: events) a

variable {p : Bridge α} {f : α → Bridge β} {w : World} {events back : List Event} {a : α} {b : β}

theorem Tells.bind (h : p.Tells w events a) (rest : (f a).Tells w back b) :
    (p >>= f).Tells w (events ++ back) b := by
  induction h with
  | pure a w => exact rest
  | read _ ih => exact .read (ih rest)
  | emit _ ih => exact .emit (ih rest)

theorem tells_world_bind {f : World → Bridge α} (rest : (f w).Tells w events a) :
    (world >>= f).Tells w events a :=
  .read rest

theorem Tells.leads (h : p.Tells w events a) : p.Leads w events (Pure.pure a) w := by
  induction h with
  | pure a w => exact .refl _ w
  | read _ ih => exact .read ih
  | emit _ ih => exact .emit ih

/-- Whatever the host does, there is one run, and the host does not take part in it. -/
theorem Tells.runs_iff (h : p.Tells w events a) {reaction : Reaction} {marks : List Mark}
    {result : α} {w' : World} :
    Runs reaction p w marks result w' ↔ marks = events.map .event ∧ result = a ∧ w' = w := by
  rw [h.leads.runs_iff]
  simp only [runs_pure_iff]
  constructor
  · rintro ⟨rest, rfl, rfl, rfl, rfl⟩
    exact ⟨List.append_nil _, rfl, rfl⟩
  · rintro ⟨rfl, rfl, rfl⟩
    exact ⟨[], (List.append_nil _).symm, rfl, rfl, rfl⟩

theorem Tells.upholdsFrom {good : World → Prop} {fine : Incident → Prop} {operation : Operation}
    (h : p.Tells w events a) : p.UpholdsFrom good fine operation w := by
  induction h with
  | pure a w => trivial
  | read _ ih => exact ih
  | emit _ ih => exact ih

end Bridge

section Metadata

open Bridge

variable {w : World} {n : NodeId} {attr : String} {value : Value} {events : List Event}
  {s : Strategy} {others : List Strategy}

theorem cached_tells_value (bound : (w.node n).cache[attr]? = some (.value value)) :
    (n.cached? attr).Tells w [] (some value) := by
  refine tells_world_bind ?_
  simp only [bound]
  exact .pure _ w

theorem cached_tells_unbound (unbound : (w.node n).cache[attr]? = none) :
    (n.cached? attr).Tells w [] none := by
  refine tells_world_bind ?_
  simp only [unbound]
  exact .pure _ w

theorem delegate_tells_passed (bridgeOnly : (w.node n).handle = none) :
    (n.delegate attr).Tells w [] (.ok .notFound) := by
  refine tells_world_bind ?_
  simp only [bridgeOnly]
  exact .pure _ w

theorem native_tells (bridgeOnly : (w.node n).handle = none)
    (known : Node.metadata? (w.node n).name (w.config n) attr = some value) :
    (n.native attr).Tells w [] (.found value) := by
  refine tells_world_bind ?_
  simp only [Node.isForeignBacked, bridgeOnly, known]
  exact .pure _ w

theorem resolveBy_tells_found (h : (s.apply n attr).Tells w events (.ok (.found value))) :
    ∃ back, (n.resolveBy attr (s :: others)).Tells w (events ++ back) (.ok value) := by
  by_cases hcache : s = .cache
  · refine ⟨[], h.bind ?_⟩
    simp only [hcache, ne_eq, not_true_eq_false, if_false]
    exact .pure _ w
  · refine ⟨[.attributeResolved (w.node n).name attr s], h.bind ?_⟩
    simp only [ne_eq, hcache, not_false_eq_true, if_true]
    exact .read (.emit (.pure _ w))

theorem resolveBy_tells_passed {back : List Event} {result : Except ImportError Value}
    (h : (s.apply n attr).Tells w events (.ok .notFound))
    (rest : (n.resolveBy attr others).Tells w back result) :
    (n.resolveBy attr (s :: others)).Tells w (events ++ back) result :=
  h.bind rest

theorem World.exists_metadata (w : World) (n : NodeId) (known : attr ∈ Node.metadataNames) :
    ∃ value, (attr, value) ∈ w.metadata n := by
  have hnames : (w.metadata n).map Prod.fst = Node.metadataNames := rfl
  rw [← hnames] at known
  obtain ⟨⟨_, value⟩, hmem, rfl⟩ := List.mem_map.mp known
  exact ⟨value, hmem⟩

theorem metadata_of_mem (known : (attr, value) ∈ w.metadata n) :
    attr ∈ Node.metadataNames ∧
      Node.metadata? (w.node n).name (if (w.node n).isForeignBacked then {} else w.config n) attr =
        some value := by
  simp only [World.metadata, List.mem_cons, Prod.mk.injEq, List.not_mem_nil, or_false] at known
  rcases known with ⟨rfl, rfl⟩ | ⟨rfl, rfl⟩ | ⟨rfl, rfl⟩ | ⟨rfl, rfl⟩ | ⟨rfl, rfl⟩ <;>
    exact ⟨by decide, rfl⟩

/-- On a foreign-backed node the cache answers, and on any other the node itself does. -/
theorem getAttr_tells_intact (intact : (w.node n).Intact) (known : (attr, value) ∈ w.metadata n) :
    ∃ events, (n.getAttr attr).Tells w events (.ok value) := by
  obtain ⟨hname, hvalue⟩ := metadata_of_mem known
  have hcached := intact attr hname
  cases hhandle : (w.node n).handle with
  | some handle =>
      simp only [Node.isForeignBacked, hhandle, Option.isSome_some, if_true] at hvalue hcached
      rw [hvalue] at hcached
      have hcache : (Strategy.cache.apply n attr).Tells w [] (.ok (.found value)) :=
        (cached_tells_value hcached).bind (.pure _ w)
      exact resolveBy_tells_found hcache
  | none =>
      simp only [Node.isForeignBacked, hhandle, Option.isSome_none, Bool.false_eq_true, if_false]
        at hvalue hcached
      have hcache : (Strategy.cache.apply n attr).Tells w [] (.ok .notFound) :=
        (cached_tells_unbound hcached).bind (.pure _ w)
      have hdelegate : (Strategy.foreignDelegate.apply n attr).Tells w [] (.ok .notFound) :=
        delegate_tells_passed hhandle
      have hnative : (Strategy.native.apply n attr).Tells w [] (.ok (.found value)) :=
        (native_tells hhandle hvalue).bind (.pure _ w)
      obtain ⟨events, hfound⟩ := resolveBy_tells_found hnative
      exact ⟨_, resolveBy_tells_passed hcache (resolveBy_tells_passed hdelegate hfound)⟩

theorem cached_tells_intact (intact : (w.node n).Intact) (known : attr ∈ Node.metadataNames) :
    ∃ found, (n.cached? attr).Tells w [] found := by
  have hcached := intact attr known
  cases hbound : (w.node n).cache[attr]? with
  | none => exact ⟨none, cached_tells_unbound hbound⟩
  | some binding =>
      rw [hbound] at hcached
      split at hcached
      · obtain ⟨value, -, hvalue⟩ := Option.map_eq_some_iff.mp hcached.symm
        exact ⟨some value, cached_tells_value (hvalue ▸ hbound)⟩
      · cases hcached

end Metadata

namespace Node

variable {node : Node} {attr : String}

theorem Intact.bridge (name : String) (r : RegistryId) (loader : Option ImporterId)
    (enquirer : Option EnquirerId) : (Node.bridge name r loader enquirer).Intact :=
  fun _ _ => Std.ExtTreeMap.getElem?_empty

theorem Intact.foreignBacked (name : String) (r : RegistryId) (handle : ObjectId) :
    (Node.foreignBacked name r handle).Intact :=
  fun attr _ => cache_foreignBacked name r handle attr

theorem Intact.bind (h : node.Intact) (other : attr ∉ metadataNames) (binding : Binding) :
    (node.bind attr binding).Intact := by
  intro attr' hknown
  have hne : attr ≠ attr' := fun heq => other (heq ▸ hknown)
  have hsame : (node.bind attr binding).cache[attr']? = node.cache[attr']? := by
    simp [Node.bind, Std.ExtTreeMap.getElem?_insert, hne]
  exact hsame.trans (h attr' hknown)

theorem Intact.unbind (h : node.Intact) (other : attr ∉ metadataNames) :
    (node.unbind attr).Intact := by
  intro attr' hknown
  have hne : attr ≠ attr' := fun heq => other (heq ▸ hknown)
  have hsame : (node.unbind attr).cache[attr']? = node.cache[attr']? := by
    simp [Node.unbind, Std.ExtTreeMap.getElem?_erase, hne]
  exact hsame.trans (h attr' hknown)

end Node

section Untouched

open Bridge

variable {n m : NodeId} {attr : String} {w : World}

/-- Whether a node is intact. -/
def World.KeepsIntact (n : NodeId) : World → Prop :=
  World.AllNodes fun m node => m = n → node.Intact

theorem harmless_keepsIntact (n : NodeId) : Harmless (World.KeepsIntact n) :=
  World.harmless_allNodes (fun _ name r loader enquirer _ => .bridge name r loader enquirer)
    (fun _ name r handle _ => .foreignBacked name r handle) fun _ _ _ _ h => h

theorem World.KeepsIntact.bind (h : w.KeepsIntact n) (other : m = n → attr ∉ Node.metadataNames)
    (binding : Binding) : (w.updateNode m (·.bind attr binding)).KeepsIntact n :=
  h.updateNode fun hm heq => (hm heq).bind (other heq) binding

theorem World.KeepsIntact.unbind (h : w.KeepsIntact n)
    (other : m = n → attr ∉ Node.metadataNames) :
    (w.updateNode m (·.unbind attr)).KeepsIntact n :=
  h.updateNode fun hm heq => (hm heq).unbind (other heq)

theorem harmlessAt_keepsIntact {fine : Incident → Prop}
    (other : m = n → attr ∉ Node.metadataNames) :
    HarmlessAt (World.KeepsIntact n) fine m attr where
  evicts h := h.unbind other
  submodule _ h := h.bind other _
  answered _ h := h.bind other _
  resolved _ h := h.bind other _

theorem intact_guarded (n : NodeId) :
    Guarded (World.KeepsIntact n) fun x => ¬x.Rebinds n where
  toHarmless := harmless_keepsIntact n
  accesses operation m attr := by
    by_cases hknown : m = n ∧ attr ∈ Node.metadataNames
    · obtain ⟨rfl, hname⟩ := hknown
      intro w hgood
      obtain ⟨value, hvalue⟩ := w.exists_metadata m hname
      obtain ⟨events, htells⟩ := getAttr_tells_intact (hgood m rfl) hvalue
      exact htells.upholdsFrom
    · exact upholds_getAttr (harmless_keepsIntact n)
        (harmlessAt_keepsIntact fun heq hname => hknown ⟨heq, hname⟩)
  tries s m attr untouched := by
    by_cases hknown : m = n ∧ attr ∈ Node.metadataNames
    · obtain ⟨rfl, hname⟩ := hknown
      have hreads : s ∈ [Strategy.cache, .native, .exportMarker] :=
        Decidable.byContradiction fun hbinds => untouched (.tried hname hbinds)
      simp only [List.mem_cons, List.not_mem_nil, or_false] at hreads
      rcases hreads with rfl | rfl | rfl
      · intro w hgood
        obtain ⟨found, htells⟩ := cached_tells_intact (hgood m rfl) hname
        have happly : (Strategy.cache.apply m attr).Tells w [] (.ok (.ofOption found)) :=
          htells.bind (.pure _ w)
        exact happly.upholdsFrom
      · exact (m.obeys_native attr).upholds.bind fun _ => upholds_pure _
      · refine (m.obeys_exportMarker attr allowsTelling_preserving).upholds.bind fun _ => ?_
        exact upholds_pure _
    · exact upholds_apply (harmless_keepsIntact n)
        (harmlessAt_keepsIntact fun heq hname => hknown ⟨heq, hname⟩) s
  setAttr untouched hgood := hgood.bind (fun heq hname => untouched (heq ▸ .set hname _)) _
  delAttr untouched hgood := hgood.unbind fun heq hname => untouched (heq ▸ .deleted hname)
  imports operation imports :=
    { binds := fun {w m attr name} untouched hgood => by
        have hbound : ((w.bindSubmodule m attr name).node m).cache[attr]? =
            some (.submodule name) := by
          rw [World.node_bindSubmodule_self]
          exact Std.ExtTreeMap.getElem?_insert_self
        exact hgood.bind (fun heq hname => untouched (heq ▸ .imported hname imports hbound)) _ }

/-- A node whose metadata was not rebound gives its metadata, whatever the host does; the host is
not asked. -/
theorem Process.Reachable.getAttr_metadata {history : List Incident} {p : Process} {n : NodeId}
    {attr : String} {value : Value} (h : Process.Reachable history p)
    (untouched : ∀ x ∈ history, ¬x.Rebinds n) (known : (attr, value) ∈ p.world.metadata n) :
    ∃ events : List Event, ∀ reaction marks result w',
      Bridge.Runs reaction (n.getAttr attr) p.world marks result w' ↔
        marks = events.map .event ∧ result = .ok value ∧ w' = p.world := by
  have start : World.fresh.KeepsIntact n := .fresh fun _ _ _ _ => Std.ExtTreeMap.getElem?_empty
  have hkeeps : p.world.KeepsIntact n := h.guarded (intact_guarded n) start untouched
  obtain ⟨events, htells⟩ := getAttr_tells_intact (hkeeps n rfl) known
  exact ⟨events, fun _ _ _ _ => htells.runs_iff⟩

/-- What operations do with a host of fixed answers rebinds nothing, if they are not begun to rebind
and import nothing. -/
theorem Incident.not_rebinds_of_belongsTo {host : FixedHost} {operations : List Operation}
    {incidents : List Incident} (plain : ∀ operation ∈ operations, ¬operation.BindsImports)
    (begun : ∀ operation ∈ operations, ¬(Incident.began operation).Rebinds n)
    (h : ∀ x ∈ incidents, ∃ operation ∈ operations, x.BelongsTo host operation) :
    ∀ x ∈ incidents, ¬x.Rebinds n := by
  intro x hx hrebinds
  obtain ⟨operation, hmem, hbelongs⟩ := h x hx
  cases x with
  | began other =>
      obtain rfl : other = operation := hbelongs
      exact begun other hmem hrebinds
  | wrote other w =>
      obtain rfl : other = operation := hbelongs
      cases hrebinds with
      | imported known imports bound => exact plain other hmem imports
  | answered question answer => cases hrebinds

/-- An importer with a file marker of its own, and the load of a package or a module. -/
def Operation.loadingMarked (name : String) : List Operation :=
  [.build .processWide { enquirer := some ⟨0⟩, config := { fileMarker := "<ui>" } },
    .hold (.importer ⟨0⟩), .call (.load ⟨0⟩ name)]

theorem Operation.exists_reachable_loadingMarked (host : FixedHost) (name : String) :
    ∃ history, Process.Reachable history ⟨performAll host (loadingMarked name) .fresh, []⟩ ∧
      ∀ x ∈ history, ¬x.Rebinds ⟨0⟩ := by
  obtain ⟨incidents, hreach, hown⟩ := Process.Reachable.start.performsAll host (loadingMarked name)
  refine ⟨_, hreach, ?_⟩
  rw [List.append_nil]
  refine Incident.not_rebinds_of_belongsTo ?_ ?_ hown
  · simp [loadingMarked, BindsImports]
  · intro operation hmem hrebinds
    simp only [loadingMarked, List.mem_cons, List.not_mem_nil, or_false] at hmem
    rcases hmem with rfl | rfl | rfl <;> cases hrebinds

/-- A package that is loaded by an importer with a file marker of its own. -/
theorem getAttr_metadata_marked_package :
    let w := Operation.performAll .ignorant (Operation.loadingMarked "pkg") .fresh
    ∃ history, Process.Reachable history ⟨w, []⟩ ∧ (∀ x ∈ history, ¬x.Rebinds ⟨0⟩) ∧
      ("__file__", Value.str "<ui>") ∈ w.metadata ⟨0⟩ ∧
      ∃ events : List Event, ∀ reaction marks result w',
        Bridge.Runs reaction (NodeId.getAttr ⟨0⟩ "__file__") w marks result w' ↔
          marks = events.map .event ∧ result = .ok (.str "<ui>") ∧ w' = w := by
  intro w
  obtain ⟨history, hreach, huntouched⟩ :=
    Operation.exists_reachable_loadingMarked .ignorant "pkg"
  have hbridge : (w.node ⟨0⟩).isForeignBacked = false := by decide +kernel
  have hmarker : (w.config ⟨0⟩).fileMarker = "<ui>" := by decide +kernel
  have known : ("__file__", Value.str "<ui>") ∈ w.metadata ⟨0⟩ := by
    simp [World.metadata, hbridge, hmarker]
  exact ⟨history, hreach, huntouched, known, hreach.getAttr_metadata huntouched known⟩

/-- A module that is loaded by the same importer gives the default file marker. -/
theorem file_of_marked_module :
    let host := FixedHost.knowing "mod" ⟨7⟩
    let w := Operation.performAll host (Operation.loadingMarked "mod") .fresh
    (∃ history, Process.Reachable history ⟨w, []⟩ ∧ ∀ x ∈ history, ¬x.Rebinds ⟨0⟩) ∧
      (w.config ⟨0⟩).fileMarker = "<ui>" ∧
      ((NodeId.getAttr ⟨0⟩ "__file__").run host w).result = .ok (.str "<foreign>") := by
  intro host w
  exact ⟨Operation.exists_reachable_loadingMarked host "mod", by decide +kernel, by rfl⟩

end Untouched

end ForeignNamespace
