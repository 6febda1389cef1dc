import ForeignNamespace.Proofs.Histories

/-!
What operations write to caches.

Most of what an operation does leaves caches alone or makes a node with a cache of its own.  What is
bound or unbound besides is told apart by who does it: an access to an attribute, an import, or the
host by hand.  A property of worlds that survives each of these is upheld by every operation.
-/

namespace ForeignNamespace

/-- Whether a property survives everything that neither binds nor unbinds. -/
structure Harmless (good : World → Prop) : Prop where
  beside : ∀ {w v : World}, v.nodes = w.nodes → good w → good v
  bridge : ∀ {w : World} name r loader enquirer,
    good w → good (w.addNode (.bridge name r loader enquirer))
  backed : ∀ {w : World} name r handle, good w → good (w.addNode (.foreignBacked name r handle))
  link : ∀ {w : World} n loader enquirer, good w → good (w.link n loader enquirer)

/-- Whether a property survives what accesses to an attribute bind and unbind. -/
structure HarmlessAt (good : World → Prop) (fine : Incident → Prop) (n : NodeId) (attr : String) :
    Prop where
  evicts : ∀ {w : World}, good w → good (w.updateNode n (·.unbind attr))
  submodule : ∀ {w : World} name, good w → good (w.bindSubmodule n attr name)
  answered : ∀ {w : World} {o value}, fine (.answered (.getAttr o attr) (.ok (some value))) →
    good w → good (w.updateNode n (·.bind attr (.ofValue (fun m => (w.node m).name) value)))
  resolved : ∀ {w : World} c,
    good w → good (w.updateNode n (·.bind attr (.value (.classHandle c))))

/-- Whether a property survives what an operation imports. -/
structure HarmlessImports (good : World → Prop) (fine : Incident → Prop) (operation : Operation) :
    Prop where
  binds : ∀ {w : World} {n attr name}, fine (.wrote operation (w.bindSubmodule n attr name)) →
    good w → good (w.bindSubmodule n attr name)

/-- Whether a property survives every operation. -/
structure Guarded (good : World → Prop) (fine : Incident → Prop) : Prop extends Harmless good where
  accesses : ∀ operation n attr, (NodeId.getAttr n attr).Upholds good fine operation
  tries : ∀ strategy n attr, fine (.began (.tryStrategy strategy n attr)) →
    (Strategy.apply n attr strategy).Upholds good fine (.tryStrategy strategy n attr)
  setAttr : ∀ {w : World} {n attr value}, fine (.began (.call (.setAttr n attr value))) →
    good w → good (w.updateNode n (·.bind attr (.ofValue (fun m => (w.node m).name) value)))
  delAttr : ∀ {w : World} {n attr}, fine (.began (.call (.delAttr n attr))) → good w →
    good (w.updateNode n (·.unbind attr))
  imports : ∀ operation : Operation, operation.BindsImports → HarmlessImports good fine operation

namespace World

variable {holds : NodeId → Node → Prop} {w : World}

/-- Whether something holds of every node. -/
def AllNodes (holds : NodeId → Node → Prop) (w : World) : Prop := ∀ m, holds m (w.node m)

theorem AllNodes.fresh (new : ∀ m, holds m default) : World.fresh.AllNodes holds := new

theorem AllNodes.addNode {node : Node} (h : w.AllNodes holds) (new : ∀ m, holds m node) :
    (w.addNode node).AllNodes holds := by
  intro m
  rw [World.node, World.addNode, Arena.get_push]
  split
  · exact new m
  · exact h m

theorem AllNodes.updateNode {n : NodeId} {change : Node → Node} (h : w.AllNodes holds)
    (changed : holds n (w.node n) → holds n (change (w.node n))) :
    (w.updateNode n change).AllNodes holds := by
  intro m
  rw [node_updateNode]
  split
  · rename_i hnm
    subst hnm
    exact changed (h n)
  · exact h m

theorem harmless_allNodes (bridge : ∀ m name r loader enquirer,
      holds m (.bridge name r loader enquirer))
    (backed : ∀ m name r handle, holds m (.foreignBacked name r handle))
    (link : ∀ m node loader enquirer, holds m node → holds m { node with loader, enquirer }) :
    Harmless (AllNodes holds) where
  beside hnodes h m := by
    rw [World.node, hnodes]
    exact h m
  bridge name r loader enquirer h := h.addNode fun m => bridge m name r loader enquirer
  backed name r handle h := h.addNode fun m => backed m name r handle
  link n _ _ h := h.updateNode fun hn => link n _ _ _ hn

end World

/-- A node around a foreign handle keeps its metadata and nothing else at first. -/
theorem Node.cache_foreignBacked (name : String) (r : RegistryId) (handle : ObjectId)
    (attr : String) :
    (Node.foreignBacked name r handle).cache[attr]? = (metadata? name {} attr).map .value := by
  simp only [foreignBacked, metadataNames, List.foldl_cons, List.foldl_nil, metadata?,
    Std.ExtTreeMap.getElem?_insert, Std.LawfulEqCmp.compare_eq_iff_eq]
  grind

open Bridge

variable {good : World → Prop} {fine : Incident → Prop} {operation : Operation}

section Allowed

variable (harmless : Harmless good)

theorem allowsTelling_preserving : (Rule.preserving good fine operation).AllowsTelling where
  asks _ _ := trivial
  reports _ _ := trivial

include harmless

theorem Harmless.allowsLoading : (Rule.preserving good fine operation).AllowsLoading where
  bridge _ name r loader enquirer _ := harmless.bridge name r loader enquirer
  backed _ name r handle _ := harmless.backed name r handle
  register _ _ _ _ _ := harmless.beside rfl
  link _ n loader enquirer _ := harmless.link n loader enquirer
  hold _ _ _ := harmless.beside rfl
  release _ _ _ := harmless.beside rfl
  asks _ _ := trivial
  reports _ _ := trivial
  loads _ _ := trivial

theorem Harmless.allowsImporting (imports : HarmlessImports good fine operation) :
    (Rule.preserving good fine operation).AllowsImporting where
  toAllowsLoading := harmless.allowsLoading
  submodule _ _ _ _ hfine := imports.binds hfine

theorem Harmless.allowsRemoving : (Rule.preserving good fine operation).AllowsRemoving where
  updateRegistry _ _ _ _ := harmless.beside rfl
  reports _ _ := trivial

/-- A change of anything but the nodes. -/
theorem obeys_modify_beside {change : World → World}
    (beside : ∀ w, (change w).nodes = w.nodes) :
    (modify change).Obeys (.preserving good fine operation) :=
  obeys_modify fun w _ => harmless.beside (beside w)

theorem ImporterId.obeys_build (r : RegistryId) (plan : ImporterPlan) :
    (ImporterId.build r plan).Obeys (.preserving good fine operation) := by
  refine obeys_world.bind fun w => ?_
  split
  · exact obeys_pure _
  · exact Obeys.bind (obeys_modify_beside harmless fun w => rfl) fun _ => obeys_pure _

theorem ResolverId.obeys_install (s : ResolverId) (i : ImporterId) :
    (s.install i).Obeys (.preserving good fine operation) := by
  refine obeys_world.bind fun w => ?_
  dsimp only
  split
  · exact obeys_pure _
  · refine Obeys.bind (obeys_modify_beside harmless fun w => rfl) fun _ => ?_
    exact (obeys_report trivial).bind fun _ => obeys_pure _

theorem ResolverId.obeys_setup (s : ResolverId) (enquirer : Option EnquirerId) :
    (s.setup enquirer).Obeys (.preserving good fine operation) := by
  refine obeys_world.bind fun w => ?_
  dsimp only
  split
  · exact (obeys_report trivial).bind fun _ => obeys_pure _
  · refine (ImporterId.obeys_build harmless _ _).bind fun built => ?_
    split
    · exact obeys_pure _
    · exact (s.obeys_install harmless _).bind fun _ => obeys_pure _

end Allowed

theorem NodeId.obeys_invoke {rule : Rule} (allows : rule.AllowsTelling) (n : NodeId)
    (arguments : List Value) : (n.invoke arguments).Obeys rule := by
  refine obeys_world.bind fun w => ?_
  dsimp only
  split
  · exact obeys_pure _
  · exact (obeys_ask (allows.asks (.call ..) rfl)).bind fun reply => obeys_pure _

namespace ScriptRunner

variable {rule : Rule} (runner : ScriptRunner) (project : ProjectId)

section Telling

variable (allows : rule.AllowsTelling)

include allows

theorem obeys_record (failure : ScriptFailure) : (record project failure).Obeys rule := by
  refine (obeys_report (allows.reports _ rfl)).bind fun _ => ?_
  refine (obeys_ask (allows.asks (.reportFailure ..) rfl)).bind fun reply => ?_
  split
  · exact obeys_pure _
  · exact obeys_report (allows.reports _ rfl)

theorem obeys_recordAll (failures : List ScriptFailure) :
    (recordAll project failures).Obeys rule := by
  induction failures with
  | nil => exact obeys_pure _
  | cons failure failures ih => exact (obeys_record project allows failure).bind fun _ => ih

theorem obeys_loadScripts (scripts : List Script) : (loadScripts project scripts).Obeys rule := by
  induction scripts with
  | nil => exact obeys_pure _
  | cons script scripts ih =>
      refine (obeys_ask (allows.asks (.loadScript _) rfl)).bind fun reply => ?_
      split
      · exact ih.bind fun rest => obeys_pure _
      · refine (obeys_record project allows _).bind fun _ => ?_
        exact ih.bind fun rest => obeys_pure _

theorem obeys_judge (result : Value) : (judge project result).Obeys rule := by
  unfold judge
  split
  · exact obeys_pure _
  · refine (obeys_ask (allows.asks (.handleReturn ..) rfl)).bind fun reply => ?_
    split
    · exact obeys_pure _
    · exact obeys_pure _
    · exact obeys_pure _

theorem obeys_callEntry (script : LoadedScript) :
    (runner.callEntry project script).Obeys rule := by
  refine (obeys_report (allows.reports _ rfl)).bind fun _ => ?_
  refine (obeys_ask (allows.asks (.getAttr ..) rfl)).bind fun reply => ?_
  split
  · exact obeys_pure _
  · exact obeys_pure _
  · refine (obeys_ask (allows.asks (.projectArgument _) rfl)).bind fun argument => ?_
    refine (obeys_ask (allows.asks (.call ..) rfl)).bind fun returned => ?_
    split
    · exact obeys_pure _
    · refine (obeys_report (allows.reports _ rfl)).bind fun _ => ?_
      exact (obeys_judge project allows _).bind fun _ => obeys_pure _
  · exact obeys_pure _

theorem obeys_runScripts (report : RunReport) (scripts : List LoadedScript) :
    (runner.runScripts project report scripts).Obeys rule := by
  induction scripts generalizing report with
  | nil => exact obeys_pure _
  | cons script scripts ih =>
      refine (runner.obeys_callEntry project allows script).bind fun fate => ?_
      exact (obeys_recordAll project allows _).bind fun _ => ih _

end Telling

variable (allows : rule.AllowsImporting)

include allows

/-- A library is bound on the root by its name, as an imported node is on its parent. -/
theorem obeys_installLibrary (root : NodeId) (library : Library) :
    (runner.installLibrary root library).Obeys rule := by
  refine (obeys_ask (allows.asks (.loadScript _) rfl)).bind fun reply => ?_
  split
  · exact (obeys_report (allows.toAllowsTelling.reports _ rfl)).bind fun _ => obeys_pure _
  · refine (RegistryId.obeys_registerForeign _ _ allows.toAllowsMaking _).bind fun registered => ?_
    split
    · exact obeys_pure _
    · refine Obeys.bind (obeys_modify fun w => allows.submodule w root library.name _) fun _ => ?_
      exact (obeys_report (allows.toAllowsTelling.reports _ rfl)).bind fun _ => obeys_pure _

theorem obeys_installLibraries (root : NodeId) (libraries : List Library) :
    (runner.installLibraries root libraries).Obeys rule := by
  induction libraries with
  | nil => exact obeys_pure _
  | cons library libraries ih =>
      refine (runner.obeys_installLibrary allows root library).bind fun reply => ?_
      split
      · exact obeys_pure _
      · exact ih

theorem obeys_run : (runner.run project).Obeys rule := by
  have telling := allows.toAllowsTelling
  refine Obeys.bind (RegistryId.obeys_makeLoaded _ _ allows.toAllowsMaking _ _) fun root => ?_
  refine (runner.obeys_installLibraries allows root _).bind fun reply => ?_
  split
  · exact obeys_pure _
  · refine (obeys_loadScripts project telling _).bind fun loaded => ?_
    refine (runner.obeys_runScripts project telling _ _).bind fun report => ?_
    exact (obeys_report (telling.reports _ rfl)).bind fun _ => obeys_pure _

end ScriptRunner

/-- What is done with an answer of a foreign object may count on it that the answer is fine. -/
theorem upholds_getAttr_bind {β : Type} {o : ObjectId} {name : String}
    {f : Except ForeignError (Option Value) → Bridge β}
    (h : ∀ answer, fine (.answered (.getAttr o name) answer) →
      (f answer).Upholds good fine operation) :
    (Host.getAttr o name >>= f).Upholds good fine operation :=
  fun _ _ answer hfine v hv => h answer hfine v hv

section Attributes

variable (harmless : Harmless good) {n : NodeId} {attr : String}
  (harmlessAt : HarmlessAt good fine n attr)

include harmlessAt

theorem HarmlessAt.allowsKeeping :
    (Rule.preserving good fine operation).AllowsKeeping n attr where
  unbind _ _ := harmlessAt.evicts
  submodule _ name _ := harmlessAt.submodule name
  resolved _ c _ := harmlessAt.resolved c
  asks _ _ := trivial
  reports _ _ := trivial

/-- What the foreign handle answers is bound as it was answered. -/
theorem upholds_delegate : (n.delegate attr).Upholds good fine operation := by
  refine upholds_world.bind fun w => ?_
  dsimp only
  split
  · exact upholds_pure _
  · refine upholds_getAttr_bind fun reply hfine => ?_
    split
    · exact upholds_pure _
    · exact upholds_pure _
    · refine (Value.obeys_isTruthy allowsTelling_preserving _).upholds.bind fun truth => ?_
      split
      · refine (upholds_modify fun w hgood _ => ?_).bind fun _ => upholds_pure _
        exact harmlessAt.answered hfine hgood
      · exact (upholds_report _).bind fun _ => upholds_pure _

include harmless

theorem upholds_apply (strategy : Strategy) :
    (strategy.apply n attr).Upholds good fine operation := by
  by_cases hdelegate : strategy = .foreignDelegate
  · subst hdelegate
    exact upholds_delegate harmlessAt
  refine Obeys.upholds ?_
  exact n.obeys_apply_of_keeping attr harmlessAt.allowsKeeping harmless.allowsLoading hdelegate

theorem upholds_resolveBy (strategies : List Strategy) :
    (n.resolveBy attr strategies).Upholds good fine operation := by
  induction strategies with
  | nil =>
      refine upholds_world.bind fun w => ?_
      exact (upholds_report _).bind fun _ => upholds_pure _
  | cons strategy others ih =>
      refine (upholds_apply harmless harmlessAt strategy).bind fun reply => ?_
      split
      · split
        · refine upholds_world.bind fun w => ?_
          exact (upholds_report _).bind fun _ => upholds_pure _
        · exact upholds_pure _
      · exact ih
      · split
        · exact upholds_world.bind fun w => (upholds_report _).bind fun _ => ih
        · exact upholds_pure _

theorem upholds_getAttr : (n.getAttr attr).Upholds good fine operation :=
  upholds_resolveBy harmless harmlessAt Strategy.chain

end Attributes

section Imports

variable (harmless : Harmless good) (imports : HarmlessImports good fine operation)
  (accesses : ∀ n attr, (NodeId.getAttr n attr).Upholds good fine operation) (s : ResolverId)

include harmless imports accesses

theorem upholds_importFrom (n : NodeId) (name : String) :
    (s.importFrom n name).Upholds good fine operation := by
  refine (accesses n name).bind fun reply => ?_
  split
  · exact upholds_pure _
  · split
    · refine upholds_world.bind fun w => ?_
      refine (s.obeys_importName (harmless.allowsImporting imports) _).upholds.bind fun child => ?_
      split
      · exact upholds_pure _
      · exact upholds_pure _
    · exact upholds_pure _

theorem upholds_importEach (n : NodeId) (names : List String) :
    (s.importEach n names).Upholds good fine operation := by
  induction names with
  | nil => exact upholds_pure _
  | cons name names ih =>
      refine (upholds_importFrom harmless imports accesses s n name).bind fun reply => ?_
      split
      · exact upholds_pure _
      · refine ih.bind fun bindings => ?_
        split
        · exact upholds_pure _
        · exact upholds_pure _

theorem upholds_importStar (n : NodeId) :
    (s.importStar n).Upholds good fine operation := by
  refine upholds_world.bind fun w => (accesses n _).bind fun reply => ?_
  split
  · exact upholds_pure _
  · split
    · exact upholds_pure _
    · exact upholds_importEach harmless imports accesses s n _

end Imports

namespace Guarded

theorem upholds_call (guarded : Guarded good fine) (c : Call)
    (began : fine (.began (.call c))) : c.carryOut.Upholds good fine (.call c) := by
  have harmless := guarded.toHarmless
  have loading : (Rule.preserving good fine (.call c)).AllowsLoading := harmless.allowsLoading
  cases c with
  | importName s name =>
      have imports := guarded.imports (.call (.importName s name)) trivial
      exact (s.obeys_importName (harmless.allowsImporting imports) name).upholds
  | importFrom s n name =>
      have imports := guarded.imports (.call (.importFrom s n name)) trivial
      exact upholds_importFrom harmless imports (guarded.accesses _) s n name
  | importStar s n =>
      have imports := guarded.imports (.call (.importStar s n)) trivial
      exact upholds_importStar harmless imports (guarded.accesses _) s n
  | load i name => exact (i.obeys_load loading name).upholds
  | getAttr n attr => exact guarded.accesses _ n attr
  | setAttr n attr value => exact upholds_modify fun w hgood _ => guarded.setAttr began hgood
  | delAttr n attr =>
      refine (upholds_world.bind fun w => upholds_pure _).bind fun bound => ?_
      refine Upholds.bind ?_ fun _ => upholds_pure _
      exact upholds_modify fun w hgood _ => guarded.delAttr began hgood
  | register r name handle =>
      exact (r.obeys_registerForeign name loading.toAllowsMaking handle).upholds
  | unregister r name =>
      exact (r.obeys_unregisterForeign name harmless.allowsRemoving).upholds
  | teardown r => exact (r.obeys_teardown harmless.allowsRemoving).upholds

theorem upholds (guarded : Guarded good fine) (operation : Operation)
    (began : fine (.began operation)) : operation.carryOut.Upholds good fine operation := by
  have harmless := guarded.toHarmless
  have telling : (Rule.preserving good fine operation).AllowsTelling := allowsTelling_preserving
  have hbeside : ∀ {change : World → World}, (∀ w, (change w).nodes = w.nodes) →
      (modify change).Upholds good fine operation := fun beside =>
    (obeys_modify_beside harmless beside).upholds
  cases operation with
  | call c => exact guarded.upholds_call c began
  | upkeep u =>
      exact (u.obeys_carryOut harmless.allowsLoading.toAllowsMaking harmless.allowsRemoving).upholds
  | hasAttr n attr =>
      refine (guarded.accesses _ n attr).bind fun reply => ?_
      split
      · exact upholds_pure _
      · exact upholds_pure _
  | tryStrategy strategy n attr => exact guarded.tries strategy n attr began
  | listNames n => exact (n.obeys_listNames telling).upholds
  | invoke n arguments => exact (n.obeys_invoke telling arguments).upholds
  | claims i name => exact (i.obeys_claims telling name).upholds
  | createRegistry =>
      exact upholds_world.bind fun w => Upholds.bind (hbeside fun w => rfl) fun _ => upholds_pure _
  | createResolver r =>
      exact upholds_world.bind fun w => Upholds.bind (hbeside fun w => rfl) fun _ => upholds_pure _
  | build r plan => exact (ImporterId.obeys_build harmless r plan).upholds
  | install s i => exact (s.obeys_install harmless i).upholds
  | setup s enquirer => exact (s.obeys_setup harmless enquirer).upholds
  | pushFinder s f keeps => exact hbeside fun w => rfl
  | setDefaultEnquirer e =>
      exact upholds_world.bind fun w => Upholds.bind (hbeside fun w => rfl) fun _ => upholds_pure _
  | setDefaultClasses c =>
      exact upholds_world.bind fun w => Upholds.bind (hbeside fun w => rfl) fun _ => upholds_pure _
  | hold h => exact hbeside fun w => rfl
  | release h => exact hbeside fun w => rfl
  | runScripts runner project =>
      have imports := guarded.imports (.runScripts runner project) trivial
      exact (runner.obeys_run project (harmless.allowsImporting imports)).upholds

end Guarded

/-- A property that is guarded holds wherever a process comes to, if what happened was fine. -/
theorem Process.Reachable.guarded {p : Process} {history : List Incident}
    (guarded : Guarded good fine) (start : good .fresh) (h : Process.Reachable history p)
    (hfine : ∀ x ∈ history, fine x) : good p.world :=
  h.upheld guarded.upholds start hfine

end ForeignNamespace
