import ForeignNamespace.Proofs.WorldLaws
import ForeignNamespace.ProcessWide
import ForeignNamespace.Script.Runner

/-!
Worlds that differ only in how verbose their importers are.

The only thing that a computation may make of the difference is the level of a hook decision, which
is that of the importer that decides (`Bridge.Alike`).  Every computation of the library is blind to
verbosity in this way, one lemma for each.
-/

namespace ForeignNamespace

def Arena.map {α β : Type} (f : α → β) (a : Arena α) : Arena β :=
  { next := a.next, cells := a.cells.map fun _ => f }

theorem Arena.get_map {α β : Type} [Inhabited α] [Inhabited β] {f : α → β}
    (hdefault : f default = default) (a : Arena α) (i : Nat) : (a.map f).get i = f (a.get i) := by
  simp only [get, map, Std.ExtTreeMap.getD_eq_getD_getElem?, Std.ExtTreeMap.getElem?_map,
    ← hdefault, Option.getD_map]

theorem Arena.map_push {α β : Type} (f : α → β) (a : Arena α) (x : α) :
    (a.push x).map f = (a.map f).push (f x) := by
  refine Arena.ext (by rfl) fun i => ?_
  simp only [push, map, Std.ExtTreeMap.getElem?_map, Std.ExtTreeMap.getElem?_insert]
  split <;> rfl

def Config.muted (c : Config) : Config := { c with verbose := 0 }

def Importer.muted (importer : Importer) : Importer :=
  { importer with config := importer.config.muted }

namespace World

variable (w : World)

/-- The world in which no importer is verbose. -/
def muted : World := { w with importers := w.importers.map Importer.muted }

@[simp] theorem importer_muted (i : ImporterId) : w.muted.importer i = (w.importer i).muted :=
  Arena.get_map (f := Importer.muted) rfl w.importers i.index

@[simp] theorem isAlive_muted (h : Handle) : w.muted.isAlive h = w.isAlive h := by
  have hkeeps : w.muted.keeps = w.keeps := by
    funext h
    cases h with
    | importer i => simp [keeps, Importer.muted]
    | _ => rfl
  rw [isAlive, isAlive, hkeeps]
  rfl

@[simp] theorem registryOf?_muted (n : NodeId) : w.muted.registryOf? n = w.registryOf? n := by
  rw [registryOf?, isAlive_muted]
  rfl

theorem liveLoader?_muted (n : NodeId) : w.muted.liveLoader? n = w.liveLoader? n := by
  simp only [liveLoader?, isAlive_muted]
  rfl

theorem config_muted (n : NodeId) : w.muted.config n = (w.config n).muted := by
  rw [config, config, liveLoader?_muted]
  split
  · rw [importer_muted]
    rfl
  · rfl

@[simp] theorem nodeClassResolver?_muted (n : NodeId) :
    w.muted.nodeClassResolver? n = w.nodeClassResolver? n := by
  simp only [nodeClassResolver?, liveLoader?_muted, classResolver?, importer_muted]
  rfl

theorem addImporter_muted (importer : Importer) :
    (w.addImporter importer).muted = w.muted.addImporter importer.muted := by
  rw [muted, addImporter, Arena.map_push]
  rfl

end World

theorem Node.metadata?_muted (name : String) (c : Config) (attr : String) :
    metadata? name c.muted attr = metadata? name c attr := rfl

/-- Whether resolvers stay, and what is on their meta paths. -/
structure World.KeepsPaths (w v : World) : Prop where
  next : w.resolvers.next ≤ v.resolvers.next
  path : ∀ {s : ResolverId}, s.index < w.resolvers.next →
    (w.resolver s).metaPath ⊆ (v.resolver s).metaPath

namespace World.KeepsPaths

variable {u v w : World}

theorem of_resolvers (h : v.resolvers = w.resolvers) : w.KeepsPaths v where
  next := Nat.le_of_eq (by rw [h])
  path _ := by
    rw [resolver, resolver, h]
    exact List.Subset.refl _

theorem of_same (same : w.muted = v.muted) : w.KeepsPaths v := by
  have hresolvers : w.muted.resolvers = v.muted.resolvers := congrArg World.resolvers same
  exact of_resolvers hresolvers.symm

theorem trans (h : u.KeepsPaths v) (h' : v.KeepsPaths w) : u.KeepsPaths w where
  next := Nat.le_trans h.next h'.next
  path hs := List.Subset.trans (h.path hs) (h'.path (Nat.lt_of_lt_of_le hs h.next))

theorem addResolver (w : World) (resolver : Resolver) : w.KeepsPaths (w.addResolver resolver) where
  next := Nat.le_succ _
  path hs := by
    rw [World.resolver, World.resolver, World.addResolver, Arena.get_push,
      if_neg (Nat.ne_of_gt hs)]
    exact List.Subset.refl _

theorem updateResolver (w : World) (s : ResolverId) {change : Resolver → Resolver}
    (h : (w.resolver s).metaPath ⊆ (change (w.resolver s)).metaPath) :
    w.KeepsPaths (w.updateResolver s change) where
  next := Nat.le_refl _
  path := by
    intro s' _
    rw [World.resolver, World.resolver, World.updateResolver, Arena.get_set]
    split
    · rename_i hs
      rw [← hs]
      exact h
    · exact List.Subset.refl _

end World.KeepsPaths

/-- Who decides in a computation: one importer, or those on the meta path of a resolver. -/
inductive Decider where
  | nobody
  | importer (i : ImporterId)
  | resolver (s : ResolverId)

namespace Decider

/-- Whether the resolver is there whose importers decide. -/
def Stands (w : World) : Decider → Prop
  | .resolver s => s.index < w.resolvers.next
  | _ => True

/-- Whether an importer is one of those that decide. -/
def Has (w : World) (i : ImporterId) : Decider → Prop
  | .nobody => False
  | .importer j => i = j
  | .resolver s => s.index < w.resolvers.next ∧ .hook i ∈ (w.resolver s).metaPath

variable {d : Decider} {w v : World}

theorem Stands.later (h : d.Stands w) (keeps : w.KeepsPaths v) : d.Stands v := by
  cases d with
  | resolver s => exact Nat.lt_of_lt_of_le h keeps.next
  | _ => trivial

theorem Has.later {i : ImporterId} (h : d.Has w i) (keeps : w.KeepsPaths v) : d.Has v i := by
  cases d with
  | resolver s => exact ⟨Nat.lt_of_lt_of_le h.1 keeps.next, keeps.path h.1 h.2⟩
  | _ => exact h

end Decider

def Event.isDecision : Event → Bool
  | .hook .. => true
  | _ => false

/-- Whether two events, each reported in its world, are the same but for the level of a hook
decision: it is louder exactly where the importer that decides is verbose. -/
inductive Event.Agrees (d : Decider) (w : World) : Event → World → Event → Prop
  | same {w' : World} (event : Event) (other : event.isDecision = false) :
      Agrees d w event w' event
  | decision {w' : World} {i : ImporterId} (decides : d.Has w i) (decides' : d.Has w' i)
      (name : String) (decision : HookDecision) {loud loud' : Bool}
      (level : (Event.hook name decision loud).level =
        if 0 < (w.importer i).config.verbose then .debug else .trace)
      (level' : (Event.hook name decision loud').level =
        if 0 < (w'.importer i).config.verbose then .debug else .trace) :
      Agrees d w (.hook name decision loud) w' (.hook name decision loud')

namespace Bridge

variable {α β : Type} {d : Decider} {w w' : World}

/-- Whether two computations, each in its world, do the same but for verbosity, as long as what the
host does in its turns is the same but for verbosity. -/
inductive Alike (d : Decider) : Bridge α → World → Bridge α → World → Prop
  | pure {a : α} {w w' : World} (same : w.muted = w'.muted) : Alike d (.pure a) w (.pure a) w'
  | read {next next' : World → Bridge α} {w w' : World}
      (rest : Alike d (next w) w (next' w') w') : Alike d (.read next) w (.read next') w'
  | write {next next' : Bridge α} {w w' v v' : World} (keeps : w.KeepsPaths v)
      (keeps' : w'.KeepsPaths v') (rest : Alike d next v next' v') :
      Alike d (.write v next) w (.write v' next') w'
  | emit {event event' : Event} {next next' : Bridge α} {w w' : World}
      (agrees : event.Agrees d w w' event') (rest : Alike d next w next' w') :
      Alike d (.emit event next) w (.emit event' next') w'
  | ask {question : Query} {next next' : question.Answer → Bridge α} {w w' : World}
      (same : w.muted = w'.muted)
      (rest : ∀ answer v v', v.muted = v'.muted → w.KeepsPaths v →
        Alike d (next answer) v (next' answer) v') :
      Alike d (.ask question next) w (.ask question next') w'

/-- Whether a computation does the same in worlds that differ in verbosity only. -/
def Blind (d : Decider) (p : Bridge α) : Prop :=
  ∀ w w', w.muted = w'.muted → d.Stands w → Alike d p w p w'

theorem Alike.bind {p p' : Bridge α} {f f' : α → Bridge β} (h : Alike d p w p' w')
    (hf : ∀ a v v', v.muted = v'.muted → w.KeepsPaths v → Alike d (f a) v (f' a) v') :
    Alike d (p >>= f) w (p' >>= f') w' := by
  change Alike d (p.bind f) w (p'.bind f') w'
  induction h with
  | pure same => exact hf _ _ _ same (.of_resolvers rfl)
  | read _ ih => exact .read (ih hf)
  | write keeps keeps' _ ih =>
      exact .write keeps keeps' (ih fun a v v' same later => hf a v v' same (keeps.trans later))
  | emit agrees _ ih => exact .emit agrees (ih hf)
  | ask same _ ih =>
      refine .ask same fun answer v v' same' keeps => ih answer v v' same' keeps ?_
      exact fun a u u' same'' later => hf a u u' same'' (keeps.trans later)

/-- What one importer decides is decided by those among which it is. -/
theorem Alike.widen {i : ImporterId} {p p' : Bridge α} (h : Alike (.importer i) p w p' w')
    (has : d.Has w i) (has' : d.Has w' i) : Alike d p w p' w' := by
  induction h with
  | pure same => exact .pure same
  | read _ ih => exact .read (ih has has')
  | write keeps keeps' _ ih => exact .write keeps keeps' (ih (has.later keeps) (has'.later keeps'))
  | emit agrees _ ih =>
      refine .emit ?_ (ih has has')
      cases agrees with
      | same _ other => exact .same _ other
      | decision decides _ name decision level level' =>
          obtain rfl := decides
          exact .decision has has' name decision level level'
  | ask same _ ih =>
      refine .ask same fun answer v v' same' keeps => ih answer v v' same' keeps ?_ ?_
      · exact has.later keeps
      · exact (has.later keeps).later (.of_same same')

theorem Blind.bind {p : Bridge α} {f : α → Bridge β} (hp : p.Blind d) (hf : ∀ a, (f a).Blind d) :
    (p >>= f).Blind d :=
  fun w w' same stands => (hp w w' same stands).bind fun a v v' same' keeps =>
    hf a v v' same' (stands.later keeps)

/-- What an importer on the meta path of a resolver decides. -/
theorem Blind.onPath {i : ImporterId} {s : ResolverId} {p : Bridge α}
    (hp : p.Blind (.importer i)) (same : w.muted = w'.muted) (there : s.index < w.resolvers.next)
    (onPath : .hook i ∈ (w.resolver s).metaPath) : p.Alike (.resolver s) w p w' := by
  have has : (Decider.resolver s).Has w i := ⟨there, onPath⟩
  exact (hp w w' same trivial).widen has (has.later (.of_same same))

theorem blind_pure (a : α) : (Pure.pure a : Bridge α).Blind d := fun _ _ same _ => .pure same

theorem alike_read {f f' : World → Bridge β} (h : (f w).Alike d w (f' w') w') :
    (world >>= f).Alike d w (world >>= f') w' :=
  .read h

/-- What is done with a world that was read must not depend on its verbosity. -/
theorem alike_world_bind {f : World → Bridge β} (reads : ∀ w, f w.muted = f w)
    (same : w.muted = w'.muted) (hf : (f w).Alike d w (f w) w') :
    (world >>= f).Alike d w (world >>= f) w' := by
  refine alike_read ?_
  rw [← reads w', ← same, reads w]
  exact hf

theorem blind_world_bind {f : World → Bridge β} (reads : ∀ w, f w.muted = f w)
    (hf : ∀ w, (f w).Blind d) : (world >>= f).Blind d :=
  fun w w' same stands => alike_world_bind reads same (hf w w w' same stands)

theorem blind_modify {change : World → World} (h : ∀ w, (change w).muted = change w.muted)
    (keeps : ∀ w : World, w.KeepsPaths (change w)) : (modify change).Blind d :=
  fun w w' same _ => .read (.write (keeps w) (keeps w') (.pure (by rw [h, h, same])))

theorem blind_modify_bind {change : World → World} {f : Unit → Bridge β}
    (h : ∀ w, (change w).muted = change w.muted)
    (keeps : ∀ w : World, w.KeepsPaths (change w)) (hf : (f ()).Blind d) :
    (modify change >>= f).Blind d :=
  (blind_modify h keeps).bind fun _ => hf

theorem blind_report {event : Event} (other : event.isDecision = false) : (report event).Blind d :=
  fun _ _ same _ => .emit (.same event other) (.pure same)

theorem blind_ask (question : Query) : (Bridge.ask question .pure).Blind d :=
  fun _ _ same _ => .ask same fun _ _ _ same _ => .pure same

theorem blind_create (node : Node) : (create node).Blind d := by
  intro w w' same _
  have hnext : w.muted.nextNode = w'.muted.nextNode := congrArg World.nextNode same
  have hadded : (w.addNode node).muted = (w'.addNode node).muted :=
    congrArg (World.addNode · node) same
  refine .read (.write (.of_resolvers rfl) (.of_resolvers rfl) ?_)
  change (Bridge.pure w.muted.nextNode).Alike d _ (.pure w'.muted.nextNode) _
  rw [hnext]
  exact .pure hadded

theorem blind_holding (h : Handle) {body : Bridge α} (hbody : body.Blind d) :
    (holding h body).Blind d := by
  have hold : (modify (·.hold h)).Blind d := blind_modify (fun _ => rfl) fun _ => .of_resolvers rfl
  have release : (modify (·.release h)).Blind d :=
    blind_modify (fun _ => rfl) fun _ => .of_resolvers rfl
  exact hold.bind fun _ => hbody.bind fun result => release.bind fun _ => blind_pure result

end Bridge

open Bridge

variable {d : Decider}

namespace RegistryId

variable (r : RegistryId) (name : String)

theorem blind_create : create.Blind d := by
  refine blind_world_bind (fun _ => rfl) fun w => ?_
  exact blind_modify_bind (fun _ => rfl) (fun _ => .of_resolvers rfl) (blind_pure _)

theorem blind_get : (r.get name).Blind d := blind_world_bind (fun _ => rfl) fun _ => blind_pure _

theorem blind_contains : (r.contains name).Blind d :=
  blind_world_bind (fun _ => rfl) fun _ => blind_pure _

theorem blind_put (n : NodeId) : (r.put name n).Blind d := by
  refine blind_world_bind (fun _ => rfl) fun w => (blind_report rfl).bind fun _ => ?_
  exact blind_modify_bind (fun _ => rfl) (fun _ => .of_resolvers rfl) (blind_pure _)

theorem blind_remove : (r.remove name).Blind d := by
  refine blind_world_bind (fun _ => rfl) fun w => ?_
  split
  · exact blind_pure _
  · refine blind_modify_bind (fun _ => rfl) (fun _ => .of_resolvers rfl) ?_
    exact (blind_report rfl).bind fun _ => blind_pure _

theorem blind_teardown : r.teardown.Blind d := by
  refine blind_world_bind (fun _ => rfl) fun w => ?_
  refine blind_modify_bind (fun _ => rfl) (fun _ => .of_resolvers rfl) ?_
  exact (blind_report rfl).bind fun _ => blind_pure _

theorem blind_makeLoaded (loader : Option ImporterId) (enquirer : Option EnquirerId) :
    (r.makeLoaded name loader enquirer).Blind d :=
  (Bridge.blind_create _).bind fun n => (r.blind_put name n).bind fun _ => blind_pure n

theorem blind_makeForeign (handle : ObjectId) : (r.makeForeign name handle).Blind d :=
  (Bridge.blind_create _).bind fun n => (r.blind_put name n).bind fun _ => blind_pure n

theorem blind_patch (n : NodeId) (loader : Option ImporterId) (enquirer : Option EnquirerId) :
    (r.patch n loader enquirer).Blind d := by
  refine blind_modify_bind (fun _ => rfl) (fun _ => .of_resolvers rfl) ?_
  refine blind_world_bind (fun _ => rfl) fun w => ?_
  exact (r.blind_put _ n).bind fun _ => blind_pure ()

theorem blind_registerForeign (handle : ObjectId) : (r.registerForeign name handle).Blind d := by
  unfold registerForeign
  split
  · exact blind_pure _
  · refine (blind_report rfl).bind fun _ => ?_
    exact (r.blind_makeForeign name handle).bind fun _ => blind_pure _

theorem blind_unregisterForeign : (r.unregisterForeign name).Blind d := by
  refine (blind_report rfl).bind fun _ => (r.blind_remove name).bind fun removed => ?_
  split
  · exact blind_pure _
  · exact blind_pure _

end RegistryId

theorem Host.blind_knowsModule (e : EnquirerId) (name : String) :
    (Host.knowsModule e name).Blind d := by
  refine (blind_ask _).bind fun loads => ?_
  split
  · exact blind_ask _
  · exact blind_pure _

theorem Value.blind_isTruthy (v : Value) : v.isTruthy.Blind d := by
  cases v with
  | foreign o => exact blind_ask _
  | _ => exact blind_pure _

namespace NodeId

variable (n : NodeId) (attr name : String)

theorem blind_setAttr (value : Value) : (n.setAttr attr value).Blind d :=
  blind_modify (fun _ => rfl) fun _ => .of_resolvers rfl

theorem blind_bindSubmodule : (n.bindSubmodule attr name).Blind d :=
  blind_modify (fun _ => rfl) fun _ => .of_resolvers rfl

theorem blind_delAttr : (n.delAttr attr).Blind d := by
  refine Blind.bind (blind_world_bind (fun _ => rfl) fun w => blind_pure _) fun bound => ?_
  exact blind_modify_bind (fun _ => rfl) (fun _ => .of_resolvers rfl) (blind_pure _)

theorem blind_cached : (n.cached? attr).Blind d := by
  refine blind_world_bind (fun w => ?_) fun w => ?_
  · simp only [World.registryOf?_muted]
    rfl
  split
  · exact blind_pure _
  · exact blind_pure _
  · split
    · exact blind_pure _
    · refine blind_modify_bind (fun _ => rfl) (fun _ => .of_resolvers rfl) ?_
      exact (blind_report rfl).bind fun _ => blind_pure _

theorem blind_delegate : (n.delegate attr).Blind d := by
  refine blind_world_bind (fun _ => rfl) fun w => ?_
  dsimp only
  split
  · exact blind_pure _
  · refine (blind_ask _).bind fun reply => ?_
    split
    · exact blind_pure _
    · exact blind_pure _
    · rename_i value
      refine value.blind_isTruthy.bind fun truth => ?_
      split
      · exact (n.blind_setAttr attr value).bind fun _ => blind_pure _
      · exact (blind_report rfl).bind fun _ => blind_pure _

theorem blind_native : (n.native attr).Blind d := by
  refine blind_world_bind (fun w => ?_) fun w => ?_
  · simp only [World.config_muted, Node.metadata?_muted]
    rfl
  dsimp only
  split
  · exact blind_pure _
  · exact blind_pure _

theorem blind_ensureLoaded (r : RegistryId) (e : EnquirerId) :
    (ensureLoaded r e name).Blind d := by
  refine (r.blind_contains name).bind fun there => ?_
  split
  · exact blind_pure _
  · refine (blind_ask _).bind fun reply => ?_
    split
    · exact blind_pure _
    · refine (r.blind_contains name).bind fun there => ?_
      split
      · exact (r.blind_makeForeign name _).bind fun _ => blind_pure _
      · exact blind_pure _

theorem blind_adopt (r : RegistryId) (e : EnquirerId) : (n.adopt r e attr name).Blind d := by
  refine (r.blind_get name).bind fun child => ?_
  split
  · exact blind_pure _
  · refine blind_world_bind (fun _ => rfl) fun w => (r.blind_patch _ _ _).bind fun _ => ?_
    exact (n.blind_bindSubmodule attr name).bind fun _ => blind_pure _

theorem blind_foreignModule : (n.foreignModule attr).Blind d := by
  refine blind_world_bind (fun _ => rfl) fun w => ?_
  dsimp only
  split
  · exact blind_pure _
  · refine (Host.blind_knowsModule _ _).bind fun known => ?_
    split
    · refine blind_world_bind (fun v => by rw [v.registryOf?_muted]) fun v => ?_
      split
      · exact blind_pure _
      · refine blind_holding _ ((blind_ensureLoaded _ _ _).bind fun loaded => ?_)
        split
        · exact blind_pure _
        · exact (n.blind_adopt attr _ _ _).bind fun _ => blind_pure _
    · exact blind_pure _

theorem blind_subPackage : (n.subPackage attr).Blind d := by
  refine blind_world_bind (fun _ => rfl) fun w => ?_
  dsimp only
  split
  · exact blind_pure _
  · refine (blind_ask _).bind fun subPackages => ?_
    split
    · refine blind_world_bind (fun v => ?_) fun v => ?_
      · rw [v.registryOf?_muted]
        rfl
      split
      · exact blind_pure _
      · have hbinds : ∀ child : NodeId, (do
            n.bindSubmodule attr (childName (w.node n).name attr)
            return .found (.node child) : Bridge Resolution).Blind d := fun child =>
          (n.blind_bindSubmodule attr _).bind fun _ => blind_pure _
        split
        · exact hbinds _
        · exact (RegistryId.blind_makeLoaded _ _ _ _).bind hbinds
    · exact blind_pure _

theorem blind_listNames : n.listNames.Blind d := by
  refine blind_world_bind (fun _ => rfl) fun w => ?_
  dsimp only
  split
  · exact blind_pure _
  · exact (blind_ask _).bind fun subPackages => (blind_ask _).bind fun classes => blind_pure _

theorem blind_exportMarker : (n.exportMarker attr).Blind d := by
  refine blind_world_bind (fun w => ?_) fun w => ?_
  · rw [w.config_muted]
    rfl
  split
  · exact n.blind_listNames.bind fun _ => blind_pure _
  · exact blind_pure _

theorem blind_terminal : (n.terminal attr).Blind d := by
  refine blind_world_bind (fun w => ?_) fun w => ?_
  · simp only [World.nodeClassResolver?_muted]
    rfl
  dsimp only
  split
  · exact blind_pure _
  · split
    · exact blind_pure _
    · refine (blind_ask _).bind fun reply => ?_
      split
      · exact blind_pure _
      · exact blind_pure _
      · exact (n.blind_setAttr attr _).bind fun _ => blind_pure _

theorem blind_apply (strategy : Strategy) : (strategy.apply n attr).Blind d := by
  cases strategy with
  | cache => exact (n.blind_cached attr).bind fun _ => blind_pure _
  | foreignDelegate => exact n.blind_delegate attr
  | native => exact (n.blind_native attr).bind fun _ => blind_pure _
  | foreignModule => exact n.blind_foreignModule attr
  | subPackage => exact (n.blind_subPackage attr).bind fun _ => blind_pure _
  | exportMarker => exact (n.blind_exportMarker attr).bind fun _ => blind_pure _
  | terminal => exact n.blind_terminal attr

theorem blind_resolveBy (strategies : List Strategy) : (n.resolveBy attr strategies).Blind d := by
  induction strategies with
  | nil =>
      refine blind_world_bind (fun _ => rfl) fun w => ?_
      exact (blind_report rfl).bind fun _ => blind_pure _
  | cons strategy others ih =>
      refine (n.blind_apply attr strategy).bind fun reply => ?_
      split
      · split
        · refine blind_world_bind (fun _ => rfl) fun w => ?_
          exact (blind_report rfl).bind fun _ => blind_pure _
        · exact blind_pure _
      · exact ih
      · split
        · exact blind_world_bind (fun _ => rfl) fun w => (blind_report rfl).bind fun _ => ih
        · exact blind_pure _

theorem blind_getAttr : (n.getAttr attr).Blind d := n.blind_resolveBy attr Strategy.chain

theorem blind_hasAttr : (n.hasAttr attr).Blind d := by
  refine (n.blind_getAttr attr).bind fun reply => ?_
  split
  · exact blind_pure _
  · exact blind_pure _

theorem blind_invoke (arguments : List Value) : (n.invoke arguments).Blind d := by
  refine blind_world_bind (fun _ => rfl) fun w => ?_
  dsimp only
  split
  · exact blind_pure _
  · exact (blind_ask _).bind fun reply => blind_pure _

end NodeId

namespace ImporterId

variable (i : ImporterId) (name : String)

/-- Here verbosity is read, and nothing but the level of the decision comes of it. -/
theorem blind_decide (decision : HookDecision) :
    (i.decide name decision).Blind (.importer i) := by
  have hlevel : ∀ w : World,
      (Event.hook name decision (w.importer i).config.isVerbose).level =
        if 0 < (w.importer i).config.verbose then .debug else .trace := by
    intro w
    simp only [Event.level, Config.isVerbose, decide_eq_true_eq]
  have hself : ∀ w : World, (Decider.importer i).Has w i := fun _ => rfl
  intro w w' same _
  refine .read (.emit ?_ (.pure same))
  exact .decision (hself w) (hself w') name decision (hlevel w) (hlevel w')

theorem blind_claims : (i.claims name).Blind (.importer i) := by
  refine blind_world_bind (fun w => by rw [w.importer_muted]; rfl) fun w => ?_
  refine (blind_ask _).bind fun package => ?_
  have hdecided : ∀ known, (do
      i.decide name (if known = true then .claimed else .declined)
      return known : Bridge Bool).Blind (.importer i) := fun known =>
    (i.blind_decide name _).bind fun _ => blind_pure known
  split
  · exact hdecided true
  · exact (Host.blind_knowsModule _ name).bind hdecided

theorem blind_load : (i.load name).Blind (.importer i) := by
  refine blind_world_bind (fun w => ?_) fun w => ?_
  · simp only [World.importer_muted]
    rfl
  dsimp only
  split
  · exact (i.blind_decide name _).bind fun _ => blind_pure _
  · refine (Host.blind_knowsModule _ name).bind fun known => ?_
    split
    · refine (i.blind_decide name _).bind fun _ => (blind_ask _).bind fun reply => ?_
      split
      · exact blind_pure _
      · have hpatched : ∀ n, (do
            (w.importer i).registry.patch n (some i) (some (w.importer i).enquirer)
            return .ok n : Bridge (Except ImportError NodeId)).Blind (.importer i) := fun n =>
          (RegistryId.blind_patch _ n _ _).bind fun _ => blind_pure _
        refine (RegistryId.blind_get _ name).bind fun registered => ?_
        split
        · exact hpatched _
        · exact (RegistryId.blind_makeForeign _ name _).bind hpatched
    · refine (i.blind_decide name _).bind fun _ => ?_
      exact (RegistryId.blind_makeLoaded _ name _ _).bind fun _ => blind_pure _

/-- Importers that are built differ in verbosity only if their plans do. -/
theorem alike_build {plan plan' : ImporterPlan} (r : RegistryId) {w w' : World}
    (same : w.muted = w'.muted) (enquirer : plan.enquirer = plan'.enquirer)
    (classes : plan.classes = plan'.classes) (config : plan.config.muted = plan'.config.muted) :
    (build r plan).Alike d w (build r plan') w' := by
  have hdefault : w.muted.defaultEnquirer = w'.muted.defaultEnquirer :=
    congrArg World.defaultEnquirer same
  have hnext : w.muted.importers.next = w'.muted.importers.next :=
    congrArg (fun w => w.importers.next) same
  refine alike_read ?_
  have hsame : plan.enquirer.or w.defaultEnquirer = plan'.enquirer.or w'.defaultEnquirer := by
    rw [enquirer]
    exact congrArg plan'.enquirer.or hdefault
  rw [hsame]
  split
  · exact .pure same
  · have hbuilt : (⟨w.importers.next⟩ : ImporterId) = ⟨w'.importers.next⟩ :=
      congrArg ImporterId.mk hnext
    rw [hbuilt]
    refine .read (.write (.of_resolvers rfl) (.of_resolvers rfl) (.pure ?_))
    simp only [World.addImporter_muted, same, Importer.muted, classes, config]

theorem blind_build (r : RegistryId) (plan : ImporterPlan) : (build r plan).Blind d :=
  fun _ _ same _ => alike_build r same rfl rfl rfl

end ImporterId

/-- What is done with a finder on the meta path of a resolver, where hooks decide by themselves. -/
theorem Finder.alike {α : Type} {s : ResolverId} {w w' : World} {p : Finder → Bridge α}
    (hooks : ∀ i, (p (.hook i)).Blind (.importer i))
    (hosts : ∀ f keeps, (p (.host f keeps)).Blind (.resolver s)) {f : Finder}
    (same : w.muted = w'.muted) (there : s.index < w.resolvers.next)
    (onPath : f ∈ (w.resolver s).metaPath) : (p f).Alike (.resolver s) w (p f) w' := by
  cases f with
  | hook i => exact (hooks i).onPath same there onPath
  | host f keeps => exact hosts f keeps w w' same there

namespace ResolverId

variable (s : ResolverId) (name : String)

theorem blind_create (r : RegistryId) : (create r).Blind d := by
  refine blind_world_bind (fun _ => rfl) fun w => ?_
  exact blind_modify_bind (fun _ => rfl) (fun w => .addResolver w _) (blind_pure _)

theorem blind_install (i : ImporterId) : (s.install i).Blind d := by
  refine blind_world_bind (fun _ => rfl) fun w => ?_
  dsimp only
  split
  · exact blind_pure _
  · refine blind_modify_bind (fun _ => rfl) (fun w => .updateResolver w s ?_) ?_
    · exact List.subset_cons_self _ _
    · exact (blind_report rfl).bind fun _ => blind_pure _

theorem blind_setup (enquirer : Option EnquirerId) : (s.setup enquirer).Blind d := by
  refine blind_world_bind (fun _ => rfl) fun w => ?_
  dsimp only
  split
  · exact (blind_report rfl).bind fun _ => blind_pure _
  · refine (ImporterId.blind_build _ _).bind fun built => ?_
    split
    · exact blind_pure _
    · exact (s.blind_install _).bind fun _ => blind_pure _

theorem blind_pushFinder (f : FinderId) (keeps : List RegistryId) :
    (s.pushFinder f keeps).Blind d :=
  blind_modify (fun _ => rfl) fun w => .updateResolver w s (List.subset_append_left _ _)

theorem blind_lookup : (s.lookup name).Blind d :=
  blind_world_bind (fun _ => rfl) fun _ => blind_pure _

theorem blind_bindOnParent (n : NodeId) : (s.bindOnParent name n).Blind d := by
  unfold bindOnParent
  split
  · exact blind_pure _
  · refine (s.blind_lookup _).bind fun parent => ?_
    split
    · exact blind_pure _
    · exact blind_world_bind (fun _ => rfl) fun w => NodeId.blind_bindSubmodule _ _ _

/-- The hooks that were on the meta path at the start are on it when they decide. -/
theorem alike_importBy {finders : List Finder} {w w' : World} (same : w.muted = w'.muted)
    (there : s.index < w.resolvers.next) (onPath : finders ⊆ (w.resolver s).metaPath) :
    (s.importBy name finders).Alike (.resolver s) w (s.importBy name finders) w' := by
  induction finders generalizing w w' with
  | nil => exact Blind.bind (blind_report rfl) (fun _ => blind_pure _) w w' same there
  | cons f others ih =>
      obtain ⟨hf, hothers⟩ := List.cons_subset.mp onPath
      have hclaims : (f.claims name).Alike (.resolver s) w (f.claims name) w' :=
        Finder.alike (fun i => i.blind_claims name) (fun _ _ => blind_ask _) same there hf
      refine hclaims.bind fun claimed v v' same' keeps => ?_
      have hthere := Nat.lt_of_lt_of_le there keeps.next
      split
      · have hloads : (f.load name).Alike (.resolver s) v (f.load name) v' :=
          Finder.alike (fun i => i.blind_load name) (fun _ _ => blind_ask _) same' hthere
            (keeps.path there hf)
        refine hloads.bind fun reply u u' same'' keeps' => ?_
        have hbinds : ∀ n, (do
            s.bindOnParent name n
            return .ok n : Bridge (Except ImportError NodeId)).Blind (.resolver s) := fun n =>
          (s.blind_bindOnParent name n).bind fun _ => blind_pure _
        split
        · exact .pure same''
        · exact hbinds _ u u' same'' (Nat.lt_of_lt_of_le hthere keeps'.next)
      · exact ih same' hthere (List.Subset.trans hothers (keeps.path there))

theorem blind_importOne : (s.importOne name).Blind (.resolver s) := by
  refine (s.blind_lookup name).bind fun registered => ?_
  split
  · exact blind_pure _
  · -- The meta path is read once; whoever is pushed during the import is not asked.
    intro w w' same there
    refine alike_world_bind (fun _ => rfl) same ?_
    exact s.alike_importBy name same there (List.Subset.refl _)

theorem blind_importAll (names : List String) : (s.importAll name names).Blind (.resolver s) := by
  induction names with
  | nil => exact s.blind_importOne name
  | cons first names ih =>
      refine (s.blind_importOne first).bind fun reply => ?_
      split
      · exact blind_pure _
      · exact ih

theorem blind_importName : (s.importName name).Blind (.resolver s) := by
  refine (s.blind_lookup name).bind fun registered => ?_
  split
  · exact blind_pure _
  · split
    · exact blind_pure _
    · exact s.blind_importAll _ _

theorem blind_importFrom (n : NodeId) : (s.importFrom n name).Blind (.resolver s) := by
  refine (n.blind_getAttr name).bind fun reply => ?_
  split
  · exact blind_pure _
  · split
    · refine blind_world_bind (fun _ => rfl) fun w => (s.blind_importName _).bind fun child => ?_
      split
      · exact blind_pure _
      · exact blind_pure _
    · exact blind_pure _

theorem blind_importEach (n : NodeId) (names : List String) :
    (s.importEach n names).Blind (.resolver s) := by
  induction names with
  | nil => exact blind_pure _
  | cons name names ih =>
      refine (s.blind_importFrom name n).bind fun reply => ?_
      split
      · exact blind_pure _
      · refine ih.bind fun rest => ?_
        split
        · exact blind_pure _
        · exact blind_pure _

/-- The marker is read from a configuration, which is the same but for its verbosity. -/
theorem blind_importStar (n : NodeId) : (s.importStar n).Blind (.resolver s) := by
  refine blind_world_bind (fun w => ?_) fun w => (n.blind_getAttr _).bind fun reply => ?_
  · rw [w.config_muted]
    rfl
  split
  · exact blind_pure _
  · split
    · exact blind_pure _
    · exact s.blind_importEach n _

end ResolverId

namespace ProcessWide

theorem blind_setDefaultEnquirer (e : EnquirerId) : (setDefaultEnquirer e).Blind d := by
  refine blind_world_bind (fun _ => rfl) fun w => ?_
  exact blind_modify_bind (fun _ => rfl) (fun _ => .of_resolvers rfl) (blind_pure _)

theorem blind_setDefaultClasses (c : ClassResolverId) : (setDefaultClasses c).Blind d := by
  refine blind_world_bind (fun _ => rfl) fun w => ?_
  exact blind_modify_bind (fun _ => rfl) (fun _ => .of_resolvers rfl) (blind_pure _)

end ProcessWide

namespace ScriptRunner

variable (runner : ScriptRunner) (project : ProjectId)

theorem blind_installLibrary (root : NodeId) (library : Library) :
    (runner.installLibrary root library).Blind d := by
  refine (blind_ask _).bind fun reply => ?_
  split
  · exact (blind_report rfl).bind fun _ => blind_pure _
  · refine (RegistryId.blind_registerForeign _ _ _).bind fun registered => ?_
    split
    · exact blind_pure _
    · refine (root.blind_setAttr _ _).bind fun _ => ?_
      exact (blind_report rfl).bind fun _ => blind_pure _

theorem blind_installLibraries (root : NodeId) (libraries : List Library) :
    (runner.installLibraries root libraries).Blind d := by
  induction libraries with
  | nil => exact blind_pure _
  | cons library libraries ih =>
      refine (runner.blind_installLibrary root library).bind fun reply => ?_
      split
      · exact blind_pure _
      · exact ih

theorem blind_record (failure : ScriptFailure) : (record project failure).Blind d := by
  refine (blind_report rfl).bind fun _ => (blind_ask _).bind fun reply => ?_
  split
  · exact blind_pure _
  · exact blind_report rfl

theorem blind_recordAll (failures : List ScriptFailure) : (recordAll project failures).Blind d := by
  induction failures with
  | nil => exact blind_pure _
  | cons failure failures ih => exact (blind_record project failure).bind fun _ => ih

theorem blind_loadScripts (scripts : List Script) : (loadScripts project scripts).Blind d := by
  induction scripts with
  | nil => exact blind_pure _
  | cons script scripts ih =>
      refine (blind_ask _).bind fun reply => ?_
      split
      · exact ih.bind fun rest => blind_pure _
      · exact (blind_record project _).bind fun _ => ih.bind fun rest => blind_pure _

theorem blind_judge (result : Value) : (judge project result).Blind d := by
  unfold judge
  split
  · exact blind_pure _
  · refine (blind_ask _).bind fun reply => ?_
    split
    · exact blind_pure _
    · exact blind_pure _
    · exact blind_pure _

theorem blind_callEntry (script : LoadedScript) : (runner.callEntry project script).Blind d := by
  refine (blind_report rfl).bind fun _ => (blind_ask _).bind fun reply => ?_
  split
  · exact blind_pure _
  · exact blind_pure _
  · refine (blind_ask _).bind fun argument => (blind_ask _).bind fun returned => ?_
    split
    · exact blind_pure _
    · refine (blind_report rfl).bind fun _ => ?_
      exact (blind_judge project _).bind fun _ => blind_pure _
  · exact blind_pure _

theorem blind_runScripts (report : RunReport) (scripts : List LoadedScript) :
    (runner.runScripts project report scripts).Blind d := by
  induction scripts generalizing report with
  | nil => exact blind_pure _
  | cons script scripts ih =>
      refine (runner.blind_callEntry project script).bind fun fate => ?_
      exact (blind_recordAll project _).bind fun _ => ih _

theorem blind_run : (runner.run project).Blind d := by
  refine (RegistryId.blind_makeLoaded _ _ _ _).bind fun root => ?_
  refine (runner.blind_installLibraries root _).bind fun reply => ?_
  split
  · exact blind_pure _
  · refine (blind_loadScripts project _).bind fun loaded => ?_
    refine (runner.blind_runScripts project _ _).bind fun report => ?_
    exact (blind_report rfl).bind fun _ => blind_pure _

end ScriptRunner

end ForeignNamespace
