import ForeignNamespace.Proofs.OwnDeeds
import ForeignNamespace.Proofs.WorldLaws

/-!
Which deeds the operations consist of.

A rule that allows a few kinds of deeds is obeyed by every operation that does nothing of another
kind.  So a relation between worlds holds across an operation if it holds across the writes of
these kinds.
-/

namespace ForeignNamespace

/-- The strategy by which an event reports an attribute to be found. -/
def Event.strategy? : Event → Option Strategy
  | .attributeResolved _ _ strategy => some strategy
  | _ => none

namespace Rule

/-- Whether all is allowed that it takes to ask about names and to report. -/
structure AllowsTelling (rule : Rule) : Prop where
  asks : ∀ question, question.isLoad = false → rule.asks question
  reports : ∀ event, event.strategy? = none → rule.reports event

/-- Whether all is allowed that it takes to look for an attribute without making a node. -/
structure AllowsLooking (rule : Rule) : Prop extends rule.AllowsTelling where
  bind : ∀ (w : World) n attr binding, rule.writes w (w.updateNode n (·.bind attr binding))
  unbind : ∀ (w : World) n attr, rule.writes w (w.updateNode n (·.unbind attr))

/-- Whether all is allowed that it takes to keep under an attribute what is found without asking
the foreign handle. -/
structure AllowsKeeping (rule : Rule) (n : NodeId) (attr : String) : Prop
    extends rule.AllowsTelling where
  unbind : ∀ w : World, rule.writes w (w.updateNode n (·.unbind attr))
  submodule : ∀ (w : World) name, rule.writes w (w.bindSubmodule n attr name)
  resolved : ∀ (w : World) c,
    rule.writes w (w.updateNode n (·.bind attr (.value (.classHandle c))))

/-- Whether all is allowed that it takes to make and register nodes. -/
structure AllowsMaking (rule : Rule) : Prop where
  bridge : ∀ (w : World) name r loader enquirer,
    rule.writes w (w.addNode (.bridge name r loader enquirer))
  backed : ∀ (w : World) name r handle, rule.writes w (w.addNode (.foreignBacked name r handle))
  register : ∀ (w : World) r name n, rule.writes w (w.register r name n)
  link : ∀ (w : World) n loader enquirer, rule.writes w (w.link n loader enquirer)
  reports : ∀ event, event.strategy? = none → rule.reports event

/-- Whether all is allowed that it takes to load a module or a package. -/
structure AllowsLoading (rule : Rule) : Prop extends rule.AllowsTelling, rule.AllowsMaking where
  hold : ∀ (w : World) h, rule.writes w (w.hold h)
  release : ∀ (w : World) h, rule.writes w (w.release h)
  loads : ∀ e name, rule.asks (.loadModule e name)

/-- Whether all is allowed that it takes to import a name. -/
structure AllowsImporting (rule : Rule) : Prop extends rule.AllowsLoading where
  submodule : ∀ (w : World) n attr name, rule.writes w (w.bindSubmodule n attr name)

/-- Whether all is allowed that it takes to find an attribute. -/
structure AllowsFinding (rule : Rule) : Prop extends rule.AllowsLooking, rule.AllowsLoading

/-- Whether all is allowed but to take nodes out of a registry. -/
structure AllowsAdding (rule : Rule) : Prop extends rule.AllowsFinding where
  reportsFound : ∀ owner attr strategy, rule.reports (.attributeResolved owner attr strategy)

theorem AllowsLooking.submodule {rule : Rule} (allows : rule.AllowsLooking) (w : World)
    (n : NodeId) (attr name : String) : rule.writes w (w.bindSubmodule n attr name) :=
  allows.bind w n attr _

theorem AllowsLooking.allowsKeeping {rule : Rule} (allows : rule.AllowsLooking) (n : NodeId)
    (attr : String) : rule.AllowsKeeping n attr where
  toAllowsTelling := allows.toAllowsTelling
  unbind w := allows.unbind w n attr
  submodule w := allows.submodule w n attr
  resolved w _ := allows.bind w n attr _

theorem AllowsAdding.allowsImporting {rule : Rule} (allows : rule.AllowsAdding) :
    rule.AllowsImporting where
  toAllowsLoading := allows.toAllowsLoading
  submodule := allows.submodule

/-- Whether all is allowed that it takes to take nodes out of a registry. -/
structure AllowsRemoving (rule : Rule) : Prop where
  updateRegistry : ∀ (w : World) r change, rule.writes w (w.updateRegistry r change)
  reports : ∀ event, event.strategy? = none → rule.reports event

end Rule

namespace RegistryId

open Bridge

variable {rule : Rule} (r : RegistryId) (name : String)

theorem obeys_put (allows : rule.AllowsMaking) (n : NodeId) : (r.put name n).Obeys rule := by
  refine obeys_world.bind fun w => (obeys_report (allows.reports _ rfl)).bind fun _ => ?_
  exact (obeys_modify fun w => allows.register w r name n).bind fun _ => obeys_pure _

theorem obeys_makeLoaded (allows : rule.AllowsMaking) (loader : Option ImporterId)
    (enquirer : Option EnquirerId) : (r.makeLoaded name loader enquirer).Obeys rule := by
  refine (obeys_create fun w => allows.bridge w name r loader enquirer).bind fun n => ?_
  exact (r.obeys_put name allows n).bind fun _ => obeys_pure n

theorem obeys_makeForeign (allows : rule.AllowsMaking) (handle : ObjectId) :
    (r.makeForeign name handle).Obeys rule := by
  refine (obeys_create fun w => allows.backed w name r handle).bind fun n => ?_
  exact (r.obeys_put name allows n).bind fun _ => obeys_pure n

theorem obeys_patch (allows : rule.AllowsMaking) (n : NodeId) (loader : Option ImporterId)
    (enquirer : Option EnquirerId) : (r.patch n loader enquirer).Obeys rule := by
  refine (obeys_modify fun w => allows.link w n loader enquirer).bind fun _ => ?_
  refine obeys_world.bind fun w => ?_
  exact (r.obeys_put _ allows n).bind fun _ => obeys_pure ()

/-- What is done with a handle that was loaded: the node of the name gets a loader and an enquirer,
and is made unless it is registered by then. -/
theorem obeys_settle (allows : rule.AllowsMaking) (handle : ObjectId) (loader : Option ImporterId)
    (enquirer : Option EnquirerId) :
    (do let n ← match ← r.get name with
          | some registered => Pure.pure registered
          | none => r.makeForeign name handle
        r.patch n loader enquirer
        return .ok n : Bridge (Except ImportError NodeId)).Obeys rule := by
  have hpatched : ∀ n, (do
      r.patch n loader enquirer
      return .ok n : Bridge (Except ImportError NodeId)).Obeys rule := fun n =>
    (r.obeys_patch allows n loader enquirer).bind fun _ => obeys_pure _
  refine (obeys_world.bind fun w => obeys_pure _).bind fun registered => ?_
  split
  · exact hpatched _
  · exact (r.obeys_makeForeign name allows handle).bind hpatched

theorem obeys_registerForeign (allows : rule.AllowsMaking) (handle : ObjectId) :
    (r.registerForeign name handle).Obeys rule := by
  unfold registerForeign
  split
  · exact obeys_pure _
  · refine (obeys_report (allows.reports _ rfl)).bind fun _ => ?_
    exact (r.obeys_makeForeign name allows handle).bind fun _ => obeys_pure _

theorem obeys_remove (allows : rule.AllowsRemoving) : (r.remove name).Obeys rule := by
  refine obeys_world.bind fun w => ?_
  split
  · exact obeys_pure _
  · refine (obeys_modify fun w => allows.updateRegistry w r _).bind fun _ => ?_
    exact (obeys_report (allows.reports _ rfl)).bind fun _ => obeys_pure _

theorem obeys_unregisterForeign (allows : rule.AllowsRemoving) :
    (r.unregisterForeign name).Obeys rule := by
  refine (obeys_report (allows.reports _ rfl)).bind fun _ => ?_
  refine (r.obeys_remove name allows).bind fun removed => ?_
  split
  · exact obeys_pure _
  · exact obeys_pure _

theorem obeys_teardown (allows : rule.AllowsRemoving) : r.teardown.Obeys rule := by
  refine obeys_world.bind fun w => ?_
  refine (obeys_modify fun w => allows.updateRegistry w r _).bind fun _ => ?_
  exact (obeys_report (allows.reports _ rfl)).bind fun _ => obeys_pure _

end RegistryId

theorem Host.obeys_knowsModule {rule : Rule}
    (asks : ∀ question, question.isLoad = false → rule.asks question) (e : EnquirerId)
    (name : String) : (Host.knowsModule e name).Obeys rule := by
  refine (Bridge.obeys_ask (asks (.loadsModules e) rfl)).bind fun loads => ?_
  split
  · exact Bridge.obeys_ask (asks (.isModule e name) rfl)
  · exact Bridge.obeys_pure false

theorem Value.obeys_isTruthy {rule : Rule} (allows : rule.AllowsTelling) (v : Value) :
    v.isTruthy.Obeys rule := by
  cases v with
  | foreign o => exact Bridge.obeys_ask (allows.asks (.truth o) rfl)
  | _ => exact Bridge.obeys_pure _

namespace NodeId

open Bridge

variable {rule : Rule} (n : NodeId) (attr name : String)

theorem obeys_setAttr (allows : rule.AllowsLooking) (value : Value) :
    (n.setAttr attr value).Obeys rule :=
  obeys_modify fun w => allows.bind w n attr _

theorem obeys_bindSubmodule (allows : rule.AllowsKeeping n attr) :
    (n.bindSubmodule attr name).Obeys rule :=
  obeys_modify fun w => allows.submodule w name

theorem obeys_delAttr (allows : rule.AllowsLooking) : (n.delAttr attr).Obeys rule := by
  refine (obeys_world.bind fun w => obeys_pure _).bind fun bound => ?_
  exact (obeys_modify fun w => allows.unbind w n attr).bind fun _ => obeys_pure bound

theorem obeys_cached (allows : rule.AllowsKeeping n attr) : (n.cached? attr).Obeys rule := by
  refine obeys_world.bind fun w => ?_
  split
  · exact obeys_pure _
  · exact obeys_pure _
  · split
    · exact obeys_pure _
    · refine (obeys_modify fun w => allows.unbind w).bind fun _ => ?_
      exact (obeys_report (allows.reports _ rfl)).bind fun _ => obeys_pure _

theorem obeys_delegate (allows : rule.AllowsLooking) : (n.delegate attr).Obeys rule := by
  refine obeys_world.bind fun w => ?_
  dsimp only
  split
  · exact obeys_pure _
  · rename_i handle _
    refine (obeys_ask (allows.asks (.getAttr handle attr) rfl)).bind fun reply => ?_
    split
    · exact obeys_pure _
    · exact obeys_pure _
    · rename_i value
      refine (value.obeys_isTruthy allows.toAllowsTelling).bind fun truth => ?_
      split
      · exact (n.obeys_setAttr attr allows value).bind fun _ => obeys_pure _
      · exact (obeys_report (allows.reports _ rfl)).bind fun _ => obeys_pure _

theorem obeys_native : (n.native attr).Obeys rule := by
  refine obeys_world.bind fun w => ?_
  dsimp only
  split
  · exact obeys_pure _
  · exact obeys_pure _

theorem obeys_ensureLoaded (allows : rule.AllowsLoading) (r : RegistryId) (e : EnquirerId) :
    (ensureLoaded r e name).Obeys rule := by
  refine (obeys_world.bind fun w => obeys_pure _).bind fun there => ?_
  split
  · exact obeys_pure _
  · refine (obeys_ask (allows.loads e name)).bind fun reply => ?_
    split
    · exact obeys_pure _
    · rename_i handle
      refine (obeys_world.bind fun w => obeys_pure _).bind fun there => ?_
      split
      · refine (r.obeys_makeForeign name allows.toAllowsMaking handle).bind fun _ => ?_
        exact obeys_pure _
      · exact obeys_pure _

theorem obeys_adopt (keeping : rule.AllowsKeeping n attr) (making : rule.AllowsMaking)
    (r : RegistryId) (e : EnquirerId) : (n.adopt r e attr name).Obeys rule := by
  refine (obeys_world.bind fun w => obeys_pure _).bind fun child => ?_
  split
  · exact obeys_pure _
  · rename_i child
    refine obeys_world.bind fun w => ?_
    refine (r.obeys_patch making child _ _).bind fun _ => ?_
    exact (n.obeys_bindSubmodule attr name keeping).bind fun _ => obeys_pure _

theorem obeys_foreignModule (keeping : rule.AllowsKeeping n attr) (allows : rule.AllowsLoading) :
    (n.foreignModule attr).Obeys rule := by
  refine obeys_world.bind fun w => ?_
  dsimp only
  split
  · exact obeys_pure _
  · rename_i e _
    refine (Host.obeys_knowsModule allows.asks e _).bind fun known => ?_
    split
    · refine obeys_world.bind fun v => ?_
      split
      · exact obeys_pure _
      · rename_i r _
        refine obeys_holding (allows.hold · _) (allows.release · _) ?_
        refine (obeys_ensureLoaded _ allows r e).bind fun loaded => ?_
        split
        · exact obeys_pure _
        · refine (n.obeys_adopt attr _ keeping allows.toAllowsMaking r e).bind fun _ => ?_
          exact obeys_pure _
    · exact obeys_pure _

theorem obeys_subPackage (keeping : rule.AllowsKeeping n attr) (making : rule.AllowsMaking) :
    (n.subPackage attr).Obeys rule := by
  refine obeys_world.bind fun w => ?_
  dsimp only
  split
  · exact obeys_pure _
  · rename_i e _
    refine (obeys_ask (keeping.asks (.subPackages e _) rfl)).bind fun subPackages => ?_
    split
    · refine obeys_world.bind fun v => ?_
      split
      · exact obeys_pure _
      · rename_i r _
        have hbinds : ∀ child : NodeId, (do
            n.bindSubmodule attr (childName (w.node n).name attr)
            return .found (.node child) : Bridge Resolution).Obeys rule := fun child =>
          (n.obeys_bindSubmodule attr _ keeping).bind fun _ => obeys_pure _
        split
        · rename_i child _
          exact hbinds child
        · exact (r.obeys_makeLoaded _ making _ _).bind hbinds
    · exact obeys_pure _

theorem obeys_listNames (allows : rule.AllowsTelling) : n.listNames.Obeys rule := by
  refine obeys_world.bind fun w => ?_
  dsimp only
  split
  · exact obeys_pure _
  · rename_i e _
    refine (obeys_ask (allows.asks (.subPackages e _) rfl)).bind fun subPackages => ?_
    exact (obeys_ask (allows.asks (.classNames e _) rfl)).bind fun classes => obeys_pure _

theorem obeys_exportMarker (allows : rule.AllowsTelling) : (n.exportMarker attr).Obeys rule := by
  refine obeys_world.bind fun w => ?_
  split
  · exact (n.obeys_listNames allows).bind fun names => obeys_pure _
  · exact obeys_pure _

theorem obeys_terminal (allows : rule.AllowsKeeping n attr) : (n.terminal attr).Obeys rule := by
  refine obeys_world.bind fun w => ?_
  dsimp only
  split
  · exact obeys_pure _
  · split
    · exact obeys_pure _
    · rename_i resolver _
      refine (obeys_ask (allows.asks (.resolveClass resolver _) rfl)).bind fun reply => ?_
      split
      · exact obeys_pure _
      · exact obeys_pure _
      · exact (obeys_modify fun w => allows.resolved w _).bind fun _ => obeys_pure _

/-- Two strategies make nodes, and one of them loads modules; the others only look. -/
theorem obeys_apply_of_looking (allows : rule.AllowsLooking) {strategy : Strategy}
    (looks : strategy ≠ .foreignModule ∧ strategy ≠ .subPackage) :
    (strategy.apply n attr).Obeys rule := by
  cases strategy with
  | cache => exact (n.obeys_cached attr (allows.allowsKeeping n attr)).bind fun _ => obeys_pure _
  | foreignDelegate => exact n.obeys_delegate attr allows
  | native => exact (n.obeys_native attr).bind fun _ => obeys_pure _
  | foreignModule => exact absurd rfl looks.1
  | subPackage => exact absurd rfl looks.2
  | exportMarker =>
      exact (n.obeys_exportMarker attr allows.toAllowsTelling).bind fun _ => obeys_pure _
  | terminal => exact n.obeys_terminal attr (allows.allowsKeeping n attr)

/-- One strategy keeps what the foreign handle answers; the others keep nodes and classes only. -/
theorem obeys_apply_of_keeping (keeping : rule.AllowsKeeping n attr) (loading : rule.AllowsLoading)
    {strategy : Strategy} (other : strategy ≠ .foreignDelegate) :
    (strategy.apply n attr).Obeys rule := by
  cases strategy with
  | cache => exact (n.obeys_cached attr keeping).bind fun _ => obeys_pure _
  | foreignDelegate => exact absurd rfl other
  | native => exact (n.obeys_native attr).bind fun _ => obeys_pure _
  | foreignModule => exact n.obeys_foreignModule attr keeping loading
  | subPackage =>
      exact (n.obeys_subPackage attr keeping loading.toAllowsMaking).bind fun _ => obeys_pure _
  | exportMarker =>
      exact (n.obeys_exportMarker attr keeping.toAllowsTelling).bind fun _ => obeys_pure _
  | terminal => exact n.obeys_terminal attr keeping

theorem obeys_apply (allows : rule.AllowsFinding) (strategy : Strategy) :
    (strategy.apply n attr).Obeys rule := by
  by_cases hdelegate : strategy = .foreignDelegate
  · subst hdelegate
    exact n.obeys_delegate attr allows.toAllowsLooking
  exact n.obeys_apply_of_keeping attr (allows.allowsKeeping n attr) allows.toAllowsLoading hdelegate

theorem obeys_resolveBy (allows : rule.AllowsAdding) (strategies : List Strategy) :
    (n.resolveBy attr strategies).Obeys rule := by
  induction strategies with
  | nil =>
      refine obeys_world.bind fun w => ?_
      exact (obeys_report (allows.toAllowsMaking.reports _ rfl)).bind fun _ => obeys_pure _
  | cons strategy others ih =>
      refine (n.obeys_apply attr allows.toAllowsFinding strategy).bind fun reply => ?_
      split
      · split
        · refine obeys_world.bind fun w => ?_
          exact (obeys_report (allows.reportsFound ..)).bind fun _ => obeys_pure _
        · exact obeys_pure _
      · exact ih
      · split
        · refine obeys_world.bind fun w => ?_
          exact (obeys_report (allows.toAllowsMaking.reports _ rfl)).bind fun _ => ih
        · exact obeys_pure _

theorem obeys_getAttr (allows : rule.AllowsAdding) : (n.getAttr attr).Obeys rule :=
  n.obeys_resolveBy attr allows Strategy.chain

end NodeId

section Imports

open Bridge

variable {rule : Rule}

section Telling

variable (allows : rule.AllowsTelling) (name : String)

include allows

theorem ImporterId.obeys_decide (i : ImporterId) (decision : HookDecision) :
    (i.decide name decision).Obeys rule :=
  obeys_world.bind fun _ => obeys_report (allows.reports _ rfl)

theorem ImporterId.obeys_claims (i : ImporterId) : (i.claims name).Obeys rule := by
  refine obeys_world.bind fun w => ?_
  refine (obeys_ask (allows.asks (.isPackage (w.importer i).enquirer name) rfl)).bind
    fun package => ?_
  have hdecided : ∀ known, (do
      i.decide name (if known = true then .claimed else .declined)
      return known : Bridge Bool).Obeys rule := fun known =>
    (i.obeys_decide allows name _).bind fun _ => obeys_pure known
  split
  · exact hdecided true
  · exact (Host.obeys_knowsModule allows.asks _ name).bind hdecided

theorem Finder.obeys_claims (f : Finder) : (f.claims name).Obeys rule := by
  cases f with
  | hook i => exact i.obeys_claims allows name
  | host f _ => exact obeys_ask (allows.asks (.finderClaims f name) rfl)

end Telling

theorem ResolverId.obeys_bindOnParent
    (submodule : ∀ (w : World) n attr name, rule.writes w (w.bindSubmodule n attr name))
    (name : String) (s : ResolverId) (n : NodeId) : (s.bindOnParent name n).Obeys rule := by
  unfold bindOnParent
  split
  · exact obeys_pure _
  · refine (obeys_world.bind fun w => obeys_pure _).bind fun parent => ?_
    split
    · exact obeys_pure _
    · rename_i p
      exact obeys_world.bind fun w => obeys_modify fun w => submodule w p _ _

section Loading

variable (allows : rule.AllowsLoading) (name : String)

include allows

theorem ImporterId.obeys_load (i : ImporterId) : (i.load name).Obeys rule := by
  refine obeys_world.bind fun w => ?_
  dsimp only
  split
  · exact (i.obeys_decide allows.toAllowsTelling name _).bind fun _ => obeys_pure _
  · refine (Host.obeys_knowsModule allows.asks _ name).bind fun known => ?_
    split
    · refine (i.obeys_decide allows.toAllowsTelling name _).bind fun _ => ?_
      refine (obeys_ask (allows.loads _ name)).bind fun reply => ?_
      split
      · exact obeys_pure _
      · exact RegistryId.obeys_settle _ name allows.toAllowsMaking _ _ _
    · refine (i.obeys_decide allows.toAllowsTelling name _).bind fun _ => ?_
      exact (RegistryId.obeys_makeLoaded _ name allows.toAllowsMaking _ _).bind fun _ =>
        obeys_pure _

theorem Finder.obeys_load (f : Finder) : (f.load name).Obeys rule := by
  cases f with
  | hook i => exact i.obeys_load allows name
  | host f _ => exact obeys_ask (allows.asks (.finderLoads f name) rfl)

end Loading

namespace ResolverId

variable (s : ResolverId)

section Importing

variable (allows : rule.AllowsImporting) (name : String)

include allows

theorem obeys_importBy (finders : List Finder) : (s.importBy name finders).Obeys rule := by
  induction finders with
  | nil =>
      exact (obeys_report (allows.toAllowsMaking.reports _ rfl)).bind fun _ => obeys_pure _
  | cons f others ih =>
      refine (f.obeys_claims allows.toAllowsTelling name).bind fun claimed => ?_
      split
      · refine (f.obeys_load allows.toAllowsLoading name).bind fun reply => ?_
        split
        · exact obeys_pure _
        · exact (s.obeys_bindOnParent allows.submodule name _).bind fun _ => obeys_pure _
      · exact ih

theorem obeys_importOne : (s.importOne name).Obeys rule := by
  refine (obeys_world.bind fun w => obeys_pure _).bind fun registered => ?_
  split
  · exact obeys_pure _
  · exact obeys_world.bind fun w => s.obeys_importBy allows name _

theorem obeys_importAll (names : List String) : (s.importAll name names).Obeys rule := by
  induction names with
  | nil => exact s.obeys_importOne allows name
  | cons first names ih =>
      refine (s.obeys_importOne allows first).bind fun reply => ?_
      split
      · exact obeys_pure _
      · exact ih

theorem obeys_importName : (s.importName name).Obeys rule := by
  refine (obeys_world.bind fun w => obeys_pure _).bind fun registered => ?_
  split
  · exact obeys_pure _
  · split
    · exact obeys_pure _
    · exact s.obeys_importAll allows _ _

end Importing

variable (allows : rule.AllowsAdding) (name : String)

include allows

theorem obeys_importFrom (n : NodeId) : (s.importFrom n name).Obeys rule := by
  refine (n.obeys_getAttr name allows).bind fun reply => ?_
  split
  · exact obeys_pure _
  · split
    · refine obeys_world.bind fun w => (s.obeys_importName allows.allowsImporting _).bind
        fun reply => ?_
      split
      · exact obeys_pure _
      · exact obeys_pure _
    · exact obeys_pure _

theorem obeys_importEach (n : NodeId) (names : List String) :
    (s.importEach n names).Obeys rule := by
  induction names with
  | nil => exact obeys_pure _
  | cons name names ih =>
      refine (s.obeys_importFrom allows name n).bind fun reply => ?_
      split
      · exact obeys_pure _
      · refine ih.bind fun rest => ?_
        split
        · exact obeys_pure _
        · exact obeys_pure _

theorem obeys_importStar (n : NodeId) : (s.importStar n).Obeys rule := by
  refine obeys_world.bind fun w => (n.obeys_getAttr _ allows).bind fun reply => ?_
  split
  · exact obeys_pure _
  · split
    · exact obeys_pure _
    · exact s.obeys_importEach allows n _

end ResolverId

theorem Call.obeys_carryOut (allows : rule.AllowsAdding) (removes : rule.AllowsRemoving)
    (call : Call) : call.carryOut.Obeys rule := by
  cases call with
  | importName s name => exact s.obeys_importName allows.allowsImporting name
  | importFrom s n name => exact s.obeys_importFrom allows name n
  | importStar s n => exact s.obeys_importStar allows n
  | load i name => exact i.obeys_load allows.toAllowsLoading name
  | getAttr n attr => exact n.obeys_getAttr attr allows
  | setAttr n attr value => exact n.obeys_setAttr attr allows.toAllowsLooking value
  | delAttr n attr => exact n.obeys_delAttr attr allows.toAllowsLooking
  | register r name handle => exact r.obeys_registerForeign name allows.toAllowsMaking handle
  | unregister r name => exact r.obeys_unregisterForeign name removes
  | teardown r => exact r.obeys_teardown removes

theorem Call.obeys_perform (allows : rule.AllowsAdding) (removes : rule.AllowsRemoving)
    (call : Call) : call.perform.Obeys rule :=
  (call.obeys_carryOut allows removes).map call.reply

end Imports

/-- The deeds by which a node is made and registered on its registry. -/
def World.making (w : World) (node : Node) : List Deed :=
  [.wrote w (w.addNode node), .reported (.registryPut node.name node.isForeignBacked),
    .wrote (w.addNode node) (w.addRegistered node)]

@[simp] theorem loads_making (w : World) (node : Node) : loads (w.making node) = [] := rfl

section Making

variable {turn : Turn} {r : RegistryId} {name : String} {n : NodeId} {w v : World}
  {deeds : List Deed}

theorem put_does {result : Option NodeId} (h : (r.put name n).Does turn w deeds result v) :
    deeds = [.reported (.registryPut name (w.node n).isForeignBacked),
        .wrote w (w.register r name n)] ∧
      result = w.lookup r name ∧ v = w.register r name n := by
  obtain ⟨_, rfl, _, rfl, rfl, rfl, rfl⟩ := h
  exact ⟨rfl, rfl, rfl⟩

theorem made_does (node : Node)
    (h : (do let n ← Bridge.create node
             let _ ← node.registry.put node.name n
             return n : Bridge NodeId).Does turn w deeds n v) :
    deeds = w.making node ∧ n = w.nextNode ∧ v = w.addRegistered node := by
  obtain ⟨_, rfl, hrest⟩ := Bridge.does_create_bind_iff.mp h
  obtain ⟨_, _, _, _, rfl, hput, rfl, rfl, rfl⟩ := Bridge.does_bind_iff.mp hrest
  obtain ⟨rfl, rfl, rfl⟩ := put_does hput
  rw [World.node_addNode_self]
  exact ⟨rfl, rfl, rfl⟩

theorem makeForeign_does {handle : ObjectId}
    (h : (r.makeForeign name handle).Does turn w deeds n v) :
    deeds = w.making (.foreignBacked name r handle) ∧ n = w.nextNode ∧
      v = w.addRegistered (.foreignBacked name r handle) :=
  made_does (.foreignBacked name r handle) h

theorem makeLoaded_does {loader : Option ImporterId} {enquirer : Option EnquirerId}
    (h : (r.makeLoaded name loader enquirer).Does turn w deeds n v) :
    deeds = w.making (.bridge name r loader enquirer) ∧ n = w.nextNode ∧
      v = w.addRegistered (.bridge name r loader enquirer) :=
  made_does (.bridge name r loader enquirer) h

/-- Patching a node that is registered under its own name only links it. -/
theorem patch_does {loader : Option ImporterId} {enquirer : Option EnquirerId} {result : Unit}
    (hn : w.lookup r (w.node n).name = some n)
    (h : (r.patch n loader enquirer).Does turn w deeds result v) :
    deeds = [.wrote w (w.link n loader enquirer),
        .reported (.registryPut (w.node n).name (w.node n).isForeignBacked),
        .wrote (w.link n loader enquirer) (w.link n loader enquirer)] ∧
      v = w.link n loader enquirer := by
  have hnode : (w.link n loader enquirer).node n = { w.node n with loader, enquirer } :=
    w.node_updateNode_self n fun node => { node with loader, enquirer }
  have hsame : (w.link n loader enquirer).register r (w.node n).name n = w.link n loader enquirer :=
    World.register_of_lookup _ _ _ hn
  obtain ⟨_, rfl, hlinked⟩ : ∃ rest, deeds = .wrote w (w.link n loader enquirer) :: rest ∧
      (do let _ ← r.put ((w.link n loader enquirer).node n).name n : Bridge Unit).Does turn
        (w.link n loader enquirer) rest result v := h
  obtain ⟨_, _, _, _, rfl, hput, rfl, rfl, rfl⟩ := Bridge.does_bind_iff.mp hlinked
  obtain ⟨rfl, -, rfl⟩ := put_does hput
  rw [hnode, hsame]
  exact ⟨rfl, rfl⟩

end Making

theorem World.registry_of_registryOf {w : World} {n : NodeId} {r : RegistryId}
    (h : w.registryOf? n = some r) : (w.node n).registry = r := by
  rw [World.registryOf?] at h
  split at h
  · exact Option.some.inj h
  · cases h

/-- Whether every node is still there and is the node that was made. -/
structure World.Evolves (w v : World) : Prop where
  next : w.nodes.next ≤ v.nodes.next
  name : ∀ {n : NodeId}, n.index < w.nodes.next → (v.node n).name = (w.node n).name
  handle : ∀ {n : NodeId}, n.index < w.nodes.next → (v.node n).handle = (w.node n).handle
  registry : ∀ {n : NodeId}, n.index < w.nodes.next → (v.node n).registry = (w.node n).registry

namespace World

theorem Evolves.of_nodes {w v : World} (h : v.nodes = w.nodes) : w.Evolves v := by
  have hnode : ∀ n, v.node n = w.node n := fun n => by simp only [World.node, h]
  exact ⟨h ▸ Nat.le_refl _, fun _ => by rw [hnode], fun _ => by rw [hnode], fun _ => by rw [hnode]⟩

theorem Evolves.refl (w : World) : w.Evolves w := .of_nodes rfl

theorem Evolves.trans {u v w : World} (first : u.Evolves v) (second : v.Evolves w) :
    u.Evolves w where
  next := Nat.le_trans first.next second.next
  name hn := (second.name (Nat.lt_of_lt_of_le hn first.next)).trans (first.name hn)
  handle hn := (second.handle (Nat.lt_of_lt_of_le hn first.next)).trans (first.handle hn)
  registry hn := (second.registry (Nat.lt_of_lt_of_le hn first.next)).trans (first.registry hn)

theorem evolves_addNode (w : World) (node : Node) : w.Evolves (w.addNode node) where
  next := Nat.le_succ _
  name hn := by rw [node_addNode_of_lt w hn]
  handle hn := by rw [node_addNode_of_lt w hn]
  registry hn := by rw [node_addNode_of_lt w hn]

theorem evolves_updateNode (w : World) (n : NodeId) {change : Node → Node}
    (same : ∀ node, (change node).name = node.name ∧ (change node).handle = node.handle ∧
      (change node).registry = node.registry) : w.Evolves (w.updateNode n change) := by
  constructor
  · exact Nat.le_refl _
  all_goals
    intro m _
    rw [node_updateNode]
    split
    · simp only [same]
    · rfl

theorem evolves_bindSubmodule (w : World) (n : NodeId) (attr name : String) :
    w.Evolves (w.bindSubmodule n attr name) :=
  w.evolves_updateNode n fun _ => ⟨rfl, rfl, rfl⟩

theorem evolves_link (w : World) (n : NodeId) (loader : Option ImporterId)
    (enquirer : Option EnquirerId) : w.Evolves (w.link n loader enquirer) :=
  w.evolves_updateNode n fun _ => ⟨rfl, rfl, rfl⟩

end World

theorem allowsAdding_evolves : (Rule.ofWrites World.Evolves).AllowsAdding where
  bind w n _ _ := w.evolves_updateNode n fun _ => ⟨rfl, rfl, rfl⟩
  unbind w n _ := w.evolves_updateNode n fun _ => ⟨rfl, rfl, rfl⟩
  bridge w _ _ _ _ := w.evolves_addNode _
  backed w _ _ _ := w.evolves_addNode _
  register _ _ _ _ := .of_nodes rfl
  link w n _ _ := w.evolves_link n _ _
  hold _ _ := .of_nodes rfl
  release _ _ := .of_nodes rfl
  asks _ _ := trivial
  reports _ _ := trivial
  loads _ _ := trivial
  reportsFound _ _ _ := trivial

theorem allowsRemoving_evolves : (Rule.ofWrites World.Evolves).AllowsRemoving where
  updateRegistry _ _ _ := .of_nodes rfl
  reports _ _ := trivial

def Discipline.evolution (conduct : Conduct) : Discipline where
  conduct
  good _ := True
  step := World.Evolves
  refl := World.Evolves.refl
  trans := World.Evolves.trans
  achieves _ _ _ := True

/-- Whatever a host calls, it does not undo a node. -/
theorem Session.evolves {conduct : Conduct} {w v : World} {moments : List Moment}
    (h : Session conduct w moments v) : w.Evolves v := by
  have hfulfilled : (Discipline.evolution conduct).Fulfilled := fun _ _ =>
    (Call.obeys_perform allowsAdding_evolves allowsRemoving_evolves _ _).ensures
      trivial fun _ h => ⟨trivial, h⟩
  exact (h.sound hfulfilled trivial).2.1.step

end ForeignNamespace
