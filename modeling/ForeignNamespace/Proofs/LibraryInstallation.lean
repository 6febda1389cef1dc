import ForeignNamespace.Proofs.CacheWrites
import ForeignNamespace.Proofs.DottedSegments
import ForeignNamespace.Proofs.ImportByPrefix
import ForeignNamespace.Proofs.ScriptAccounts
import ForeignNamespace.Proofs.SubmoduleBindings

namespace ForeignNamespace

namespace Bridge

variable {α β : Type}

@[simp] theorem does_report_bind_iff {turn : Turn} {event : Event} {f : Unit → Bridge β}
    {w w' : World} {deeds : List Deed} {result : β} :
    (report event >>= f).Does turn w deeds result w' ↔
      ∃ rest, deeds = .reported event :: rest ∧ (f ()).Does turn w rest result w' :=
  Iff.rfl

/-- What a computation does in its conversation with a host. -/
def deeds (host : QuietHost) : Bridge α → List Exchange → World → List Deed
  | .pure _, _, _ => []
  | .read next, said, w => (next w).deeds host said w
  | .write v next, said, w => .wrote w v :: next.deeds host said v
  | .emit event next, said, w => .reported event :: next.deeds host said w
  | .ask question next, said, w =>
    let answer := host said question
    .asked question w answer w :: (next answer).deeds host (said ++ [⟨question, answer⟩]) w

theorem does_deeds (host : QuietHost) (p : Bridge α) (said : List Exchange) (w : World) :
    p.Does Turn.quiet w (p.deeds host said w) (p.converse host said w).result
      (p.converse host said w).world := by
  induction p generalizing said w with
  | pure a => exact ⟨rfl, rfl, rfl⟩
  | read next ih => exact ih w said w
  | write v next ih => exact ⟨_, rfl, ih said v⟩
  | emit event next ih => exact ⟨_, rfl, ih said w⟩
  | ask question next ih => exact ⟨_, w, _, rfl, rfl, ih _ _ w⟩

end Bridge

def Deed.exchange? : Deed → Option Exchange
  | .asked question _ answer _ => some ⟨question, answer⟩
  | _ => none

/-- What is said to the host. -/
def talk (deeds : List Deed) : List Exchange := deeds.filterMap Deed.exchange?

@[simp] theorem talk_append (front back : List Deed) :
    talk (front ++ back) = talk front ++ talk back :=
  List.filterMap_append

/-- Whether a deed leaves a world as it is. -/
def Deed.Leaves (w : World) : Deed → Prop
  | .wrote .. => False
  | .reported _ => True
  | .asked _ before _ after => before = w ∧ after = w

theorem Bridge.Does.leaves {α : Type} {rule : Rule} {p : Bridge α} {w w' : World}
    {deeds : List Deed} {result : α} (never : ∀ w v, ¬rule.writes w v) (hp : p.ObeysFrom rule w)
    (h : p.Does Turn.quiet w deeds result w') : w' = w ∧ ∀ deed ∈ deeds, deed.Leaves w := by
  induction p generalizing deeds with
  | pure a =>
      obtain ⟨rfl, -, rfl⟩ := h
      exact ⟨rfl, by simp⟩
  | read next ih => exact ih w hp h
  | write v next ih => exact absurd hp.1 (never w v)
  | emit event next ih =>
      obtain ⟨rest, rfl, hrest⟩ := h
      obtain ⟨rfl, hleaves⟩ := ih hp.2 hrest
      exact ⟨rfl, List.forall_mem_cons.mpr ⟨trivial, hleaves⟩⟩
  | ask question next ih =>
      obtain ⟨answer, v, rest, rfl, rfl, hrest⟩ := h
      obtain ⟨rfl, hleaves⟩ := ih answer (hp.2 answer v) hrest
      exact ⟨rfl, List.forall_mem_cons.mpr ⟨⟨rfl, rfl⟩, hleaves⟩⟩

/-- A library that was loaded, and its module object. -/
structure Installed where
  library : Library
  handle : ObjectId

/-- The last library of a name. -/
def Installed.last? (xs : List Installed) (name : String) : Option Installed :=
  xs.reverse.find? (·.library.name == name)

def Installed.load (x : Installed) : Exchange := ⟨.loadScript x.library.script.id, .ok x.handle⟩

namespace ScriptRunner

variable (runner : ScriptRunner)

def fullName (library : Library) : String := childName runner.root library.name

/-- The node of the root. -/
def rootNode : Node := .bridge runner.root runner.registry none none

def nodeOf (x : Installed) : Node :=
  .foreignBacked (runner.fullName x.library) runner.registry x.handle

/-- The world after a library was installed. -/
def after (root : NodeId) (w : World) (x : Installed) : World :=
  (w.addRegistered (runner.nodeOf x)).bindSubmodule root x.library.name (runner.fullName x.library)

/-- The world after libraries were installed one after the other. -/
def afterAll (root : NodeId) (w : World) (xs : List Installed) : World :=
  xs.foldl (runner.after root) w

/-- Whether a library is refused with an error, if this is the answer to the request to load it. -/
inductive Refuses (library : Library) : Except ForeignError ObjectId → ImportError → Prop
  | raised (error : ForeignError) : Refuses library (.error error) (.foreign error)
  | malformed (handle : ObjectId) (h : DottedName.parse (runner.fullName library) = none) :
      Refuses library (.ok handle) (.invalidName (runner.fullName library))

/-- Whether a library can be reached through a node: from the registry by its full name, and from
the root by its own. -/
structure Serves (root : NodeId) (x : Installed) (m : NodeId) (w : World) : Prop where
  there : m.index < w.nodes.next
  apart : m ≠ root
  lookup : w.lookup runner.registry (runner.fullName x.library) = some m
  node : w.node m = runner.nodeOf x
  bound : (w.node root).cache[x.library.name]? = some (.submodule (runner.fullName x.library))

variable {runner}

namespace Serves

variable {root m : NodeId} {w : World} {x : Installed}

theorem of_after (hroot : root.index < w.nodes.next) :
    runner.Serves root x w.nextNode (runner.after root w x) := by
  have hapart : w.nextNode ≠ root := by
    rintro rfl
    exact Nat.lt_irrefl _ hroot
  constructor
  · exact Nat.lt_succ_self _
  · exact hapart
  · exact World.lookup_addRegistered_self w (runner.nodeOf x)
  · rw [after, World.bindSubmodule, World.node_updateNode_of_ne _ (Ne.symm hapart),
      World.node_addRegistered_self]
  · rw [after, World.node_bindSubmodule_self]
    exact Std.ExtTreeMap.getElem?_insert_self

/-- A library of another name is installed beside it. -/
theorem after (h : runner.Serves root x m w) (hroot : root.index < w.nodes.next) {y : Installed}
    (other : y.library.name ≠ x.library.name) :
    runner.Serves root x m (runner.after root w y) := by
  have hname : runner.fullName y.library ≠ runner.fullName x.library :=
    fun heq => other (childName_right_inj.mp heq)
  constructor
  · exact Nat.lt_succ_of_lt h.there
  · exact h.apart
  · change (w.addRegistered (runner.nodeOf y)).lookup _ _ = _
    rw [World.lookup_addRegistered, if_neg fun hkey => hname hkey.2, h.lookup]
  · rw [ScriptRunner.after, World.bindSubmodule,
      World.node_updateNode_of_ne _ (Ne.symm h.apart), World.node_addRegistered_of_lt _ h.there,
      h.node]
  · rw [ScriptRunner.after, World.node_bindSubmodule_self, World.node_addRegistered_of_lt _ hroot,
      Node.bind, Std.ExtTreeMap.getElem?_insert, if_neg (by simpa using other), h.bound]

theorem afterAll (h : runner.Serves root x m w) (hroot : root.index < w.nodes.next)
    {ys : List Installed} (others : ∀ y ∈ ys, y.library.name ≠ x.library.name) :
    runner.Serves root x m (runner.afterAll root w ys) := by
  induction ys generalizing w with
  | nil => exact h
  | cons y ys ih =>
      obtain ⟨hy, hys⟩ := List.forall_mem_cons.mp others
      exact ih (h.after hroot hy) (Nat.lt_succ_of_lt hroot) hys

theorem getAttr_run (h : runner.Serves root x m w)
    (home : w.registryOf? root = some runner.registry) (host : FixedHost) :
    (root.getAttr x.library.name).run host w = ⟨.ok (.node m), w, []⟩ := by
  have hthere : (w.registryOf? root).bind (w.lookup · (runner.fullName x.library)) = some m := by
    rw [home]
    exact h.lookup
  have hleads := getAttr_leads_registered h.bound hthere
  refine Bridge.runs_reaction_iff.mp (hleads.runs_iff.mpr ⟨[], rfl, ?_⟩)
  exact Bridge.Runs.pure _ _

theorem importName_run (h : runner.Serves root x m w) {s : ResolverId}
    (home : (w.resolver s).registry = runner.registry) (host : FixedHost) :
    (s.importName (runner.fullName x.library)).run host w = ⟨.ok m, w, []⟩ := by
  refine importName_run_of_some host ?_
  rw [home]
  exact h.lookup

end Serves

section After

variable (runner) (root : NodeId) (w : World) (xs : List Installed)

theorem isAlive_afterAll (h : Handle) : (runner.afterAll root w xs).isAlive h = w.isAlive h := by
  induction xs generalizing w with
  | nil => rfl
  | cons x xs ih => exact ih _

theorem node_afterAll_root (hroot : root.index < w.nodes.next) :
    ∃ cache, (runner.afterAll root w xs).node root = { w.node root with cache } := by
  induction xs generalizing w with
  | nil => exact ⟨_, rfl⟩
  | cons x xs ih =>
      obtain ⟨cache, hcache⟩ := ih (runner.after root w x) (Nat.lt_succ_of_lt hroot)
      refine ⟨cache, hcache.trans ?_⟩
      rw [after, World.node_bindSubmodule_self, World.node_addRegistered_of_lt _ hroot]
      rfl

theorem lookup_after (x : Installed) (r : RegistryId) (key : String) :
    (runner.after root w x).lookup r key =
      if runner.registry = r ∧ runner.fullName x.library = key then some w.nextNode
      else w.lookup r key :=
  World.lookup_addRegistered w r (runner.nodeOf x) key

theorem lookup_afterAll {r : RegistryId} {key : String}
    (h : r = runner.registry → ∀ x ∈ xs, runner.fullName x.library ≠ key) :
    (runner.afterAll root w xs).lookup r key = w.lookup r key := by
  induction xs generalizing w with
  | nil => rfl
  | cons x xs ih =>
      refine (ih _ fun hr y hy => h hr y (List.mem_cons_of_mem _ hy)).trans ?_
      rw [lookup_after, if_neg]
      rintro ⟨hr, hkey⟩
      exact h hr.symm x List.mem_cons_self hkey

theorem afterAll_append (ys : List Installed) :
    runner.afterAll root w (xs ++ ys) = runner.afterAll root (runner.afterAll root w xs) ys :=
  List.foldl_append

theorem next_le_afterAll : w.nodes.next ≤ (runner.afterAll root w xs).nodes.next := by
  induction xs generalizing w with
  | nil => exact Nat.le_refl _
  | cons x xs ih => exact Nat.le_trans (Nat.le_succ _) (ih (runner.after root w x))

/-- The last library of a name is the one that can be reached. -/
theorem serves_afterAll (hroot : root.index < w.nodes.next) {x : Installed} {name : String}
    (last : Installed.last? xs name = some x) :
    x.library.name = name ∧ ∃ m, runner.Serves root x m (runner.afterAll root w xs) := by
  -- Behind the last library of a name there are libraries of other names only.
  obtain ⟨hname, later, before, hsplit, hothers⟩ := List.find?_eq_some_iff_append.mp last
  obtain rfl : xs = before.reverse ++ x :: later.reverse := by
    rw [← List.reverse_inj, hsplit]
    simp
  have hx : x.library.name = name := by simpa using hname
  refine ⟨hx, ?_⟩
  have hmiddle := Nat.lt_of_lt_of_le hroot (next_le_afterAll runner root w before.reverse)
  refine ⟨(runner.afterAll root w before.reverse).nextNode, ?_⟩
  rw [afterAll_append]
  refine (Serves.of_after hmiddle).afterAll (Nat.lt_succ_of_lt hmiddle) fun y hy => ?_
  have hother := hothers y (List.mem_reverse.mp hy)
  rw [hx]
  simpa using hother

theorem exists_last {xs : List Installed} {y : Installed} (hy : y ∈ xs) :
    ∃ x, Installed.last? xs y.library.name = some x := by
  rw [← Option.isSome_iff_exists, Installed.last?, List.find?_isSome]
  exact ⟨y, List.mem_reverse.mpr hy, by simp⟩

end After

section Deeds

variable {turn : Turn} {root : NodeId} {w w' : World} {deeds : List Deed}

theorem registerForeign_does {r : RegistryId} {name : String} {handle : ObjectId}
    {result : Except ImportError NodeId}
    (h : (r.registerForeign name handle).Does turn w deeds result w') :
    (DottedName.parse name = none ∧ deeds = [] ∧ result = .error (.invalidName name) ∧ w' = w) ∨
      (DottedName.parse name ≠ none ∧ talk deeds = [] ∧ result = .ok w.nextNode ∧
        w' = w.addRegistered (.foreignBacked name r handle)) := by
  unfold RegistryId.registerForeign at h
  split at h
  · rename_i hmalformed
    obtain ⟨rfl, rfl, rfl⟩ := h
    exact .inl ⟨by simpa using hmalformed, rfl, rfl, rfl⟩
  · rename_i hparse
    obtain ⟨_, rfl, hrest⟩ := Bridge.does_report_bind_iff.mp h
    obtain ⟨_, _, n, v, rfl, hmakes, rfl, rfl, rfl⟩ := Bridge.does_bind_iff.mp hrest
    obtain ⟨rfl, rfl, rfl⟩ := makeForeign_does hmakes
    exact .inr ⟨by simpa using hparse, rfl, rfl, rfl⟩

/-- One library is loaded, and then it is refused, or installed. -/
theorem installLibrary_does {library : Library} {result : Except ImportError Unit}
    (h : (runner.installLibrary root library).Does Turn.quiet w deeds result w') :
    (∃ answer error, ∃ events : List Event, runner.Refuses library answer error ∧
        result = .error error ∧
        deeds = .asked (.loadScript library.script.id) w answer w :: events.map .reported ∧
        w' = w) ∨
      ∃ handle, DottedName.parse (runner.fullName library) ≠ none ∧ result = .ok () ∧
        talk deeds = [Installed.load ⟨library, handle⟩] ∧
        w' = runner.after root w ⟨library, handle⟩ := by
  obtain ⟨answer, v, rest, rfl, rfl, hrest⟩ := Bridge.does_ask_bind_iff.mp h
  rcases answer with error | handle
  · obtain ⟨last, rfl, rfl, rfl, rfl⟩ := hrest
    exact .inl ⟨_, _, [_], .raised error, rfl, rfl, rfl⟩
  obtain ⟨front, back, registered, u, rfl, hregister, hback⟩ := Bridge.does_bind_iff.mp hrest
  rcases registerForeign_does hregister with
    ⟨hmalformed, rfl, rfl, rfl⟩ | ⟨hparse, htalk, rfl, rfl⟩
  · obtain ⟨rfl, rfl, rfl⟩ := hback
    exact .inl ⟨_, _, [], .malformed handle hmalformed, rfl, rfl, rfl⟩
  · obtain ⟨_, rfl, _, rfl, rfl, rfl, rfl⟩ := hback
    refine .inr ⟨handle, hparse, rfl, ?_, ?_⟩
    · change _ :: talk (front ++ _) = _
      rw [talk_append, htalk]
      rfl
    · have hname : ((v.addRegistered (runner.nodeOf ⟨library, handle⟩)).node v.nextNode).name =
          runner.fullName library := by
        rw [World.node_addRegistered_self]
        rfl
      rw [after, World.bindSubmodule, ← hname]
      rfl

/-- How the installation of libraries ends: all of them are installed, or a first one is refused,
and then nothing is written any more. -/
theorem installLibraries_does {libraries : List Library} {result : Except ImportError Unit}
    (h : (runner.installLibraries root libraries).Does Turn.quiet w deeds result w') :
    ∃ xs, w' = runner.afterAll root w xs ∧
      (∀ x ∈ xs, DottedName.parse (runner.fullName x.library) ≠ none) ∧
      ((xs.map (·.library) = libraries ∧ result = .ok () ∧ talk deeds = xs.map Installed.load) ∨
        ∃ library later answer error front, ∃ events : List Event,
          libraries = xs.map (·.library) ++ library :: later ∧
          runner.Refuses library answer error ∧ result = .error error ∧
          deeds = front ++ .asked (.loadScript library.script.id) w' answer w' ::
            events.map .reported ∧
          talk front = xs.map Installed.load) := by
  induction libraries generalizing w deeds with
  | nil =>
      obtain ⟨rfl, rfl, rfl⟩ := h
      exact ⟨[], rfl, by simp, .inl ⟨rfl, rfl, rfl⟩⟩
  | cons library libraries ih =>
      obtain ⟨first, back, reply, v, rfl, hfirst, hback⟩ := Bridge.does_bind_iff.mp h
      rcases installLibrary_does hfirst with
        ⟨answer, error, events, hrefuses, rfl, rfl, rfl⟩ | ⟨handle, hparse, rfl, htalk, rfl⟩
      · obtain ⟨rfl, rfl, rfl⟩ := hback
        refine ⟨[], rfl, by simp, .inr ?_⟩
        exact ⟨library, libraries, answer, error, [], events, rfl, hrefuses, rfl, by simp, rfl⟩
      · obtain ⟨xs, hworld, hwellFormed, hend⟩ := ih hback
        refine ⟨⟨library, handle⟩ :: xs, hworld, List.forall_mem_cons.mpr ⟨hparse, hwellFormed⟩, ?_⟩
        rcases hend with ⟨rfl, hresult, hrest⟩ |
          ⟨refused, later, answer, error, front, events, rfl, hrefuses, hresult, rfl, hrest⟩
        · refine .inl ⟨rfl, hresult, ?_⟩
          rw [talk_append, htalk, hrest]
          rfl
        · refine .inr ⟨refused, later, answer, error, first ++ front, events, rfl, hrefuses,
            hresult, (List.append_assoc ..).symm, ?_⟩
          rw [talk_append, htalk, hrest]
          rfl

end Deeds

/-- Whether a world is what a run makes of another by installing libraries behind its root. -/
structure Installs (runner : ScriptRunner) (w : World) (xs : List Installed) (v : World) :
    Prop where
  root : v.lookup runner.registry runner.root = some w.nextNode
  rootNode : ∃ cache, v.node w.nextNode = { runner.rootNode with cache }
  serves : ∀ y ∈ xs, ∃ x m, Installed.last? xs y.library.name = some x ∧
    v.lookup runner.registry (runner.fullName y.library) = some m ∧ v.node m = runner.nodeOf x ∧
    (∀ host, (w.nextNode.getAttr y.library.name).run host v = ⟨.ok (.node m), v, []⟩) ∧
    ∀ s : ResolverId, (v.resolver s).registry = runner.registry → ∀ host,
      (s.importName (runner.fullName y.library)).run host v = ⟨.ok m, v, []⟩
  others : ∀ r key, v.lookup r key ≠ w.lookup r key →
    r = runner.registry ∧ (key = runner.root ∨ ∃ x ∈ xs, key = runner.fullName x.library)

/-- Whether a run installs all of its libraries: they are loaded in order, and from then on nothing
is written, so scripts find the world that the installation has left. -/
structure Completes (runner : ScriptRunner) (w : World) (deeds : List Deed)
    (result : Except ImportError RunReport) (v : World) (xs : List Installed) : Prop where
  libraries : xs.map (·.library) = runner.libraries
  wellFormed : ∀ x ∈ xs, DottedName.parse (runner.fullName x.library) ≠ none
  installs : runner.Installs w xs v
  reports : ∃ report, result = .ok report
  deeds : ∃ front back, deeds = front ++ back ∧ talk front = xs.map Installed.load ∧
    ∀ deed ∈ back, deed.Leaves v

/-- Whether a run is ended by a library that is refused: those in front of it are installed when it
is loaded, and that load is the last thing that the host is asked for. -/
structure Aborts (runner : ScriptRunner) (w : World) (deeds : List Deed)
    (result : Except ImportError RunReport) (v : World) (xs : List Installed) (refused : Library) :
    Prop where
  libraries : ∃ later, runner.libraries = xs.map (·.library) ++ refused :: later
  wellFormed : ∀ x ∈ xs, DottedName.parse (runner.fullName x.library) ≠ none
  installs : runner.Installs w xs v
  deeds : ∃ answer error front, ∃ events : List Event,
    runner.Refuses refused answer error ∧ result = .error error ∧
    deeds = front ++ .asked (.loadScript refused.script.id) v answer v :: events.map .reported ∧
    talk front = xs.map Installed.load

section Run

variable {project : ProjectId} {w : World}

theorem fullName_ne_root {library : Library}
    (wellFormed : DottedName.parse (runner.fullName library) ≠ none) :
    runner.fullName library ≠ runner.root := by
  intro heq
  by_cases hroot : runner.root = ""
  · rw [heq, hroot] at wellFormed
    exact wellFormed (by decide)
  · have hlength := congrArg (·.toList.length) heq
    simp [fullName, toList_childName hroot] at hlength

theorem Installs.of_afterAll (held : w.isAlive (.registry runner.registry)) {xs : List Installed}
    (wellFormed : ∀ x ∈ xs, DottedName.parse (runner.fullName x.library) ≠ none) :
    runner.Installs w xs
      (runner.afterAll w.nextNode (w.addRegistered runner.rootNode) xs) := by
  have hroot : w.nextNode.index < (w.addRegistered runner.rootNode).nodes.next :=
    Nat.lt_succ_self _
  obtain ⟨cache, hcache⟩ := node_afterAll_root runner _ _ xs hroot
  rw [World.node_addRegistered_self] at hcache
  constructor
  · rw [lookup_afterAll]
    · exact World.lookup_addRegistered_self w runner.rootNode
    · exact fun _ x hx => fullName_ne_root (wellFormed x hx)
  · exact ⟨cache, hcache⟩
  · intro y hy
    obtain ⟨x, hlast⟩ := exists_last hy
    obtain ⟨hname, m, hserves⟩ := serves_afterAll runner _ _ xs hroot hlast
    have hfull : runner.fullName y.library = runner.fullName x.library := by
      rw [fullName, fullName, hname]
    rw [hfull, ← hname]
    refine ⟨x, m, hname ▸ hlast, hserves.lookup, hserves.node, fun host => ?_,
      fun s home host => hserves.importName_run home host⟩
    refine hserves.getAttr_run ?_ host
    rw [World.registryOf?, hcache, isAlive_afterAll]
    exact if_pos held
  · intro r key hchanged
    by_contra hother
    refine hchanged ?_
    rw [lookup_afterAll]
    · rw [World.lookup_addRegistered, if_neg]
      rintro ⟨hr, hkey⟩
      exact hother ⟨hr.symm, .inl hkey.symm⟩
    · intro hr x hx hkey
      exact hother ⟨hr, .inr ⟨x, hx, hkey.symm⟩⟩

theorem passes_leaves {w' : World} {deeds : List Deed} {report : RunReport}
    (h : (runner.passes project).Does Turn.quiet w deeds report w') :
    w' = w ∧ ∀ deed ∈ deeds, deed.Leaves w := by
  let rule : Rule := { asks := fun _ => True, reports := fun _ => True, writes := fun _ _ => False }
  have allows : rule.AllowsTelling := ⟨fun _ _ => trivial, fun _ _ => trivial⟩
  have hobeys : (runner.passes project).Obeys rule := by
    refine (obeys_loadScripts project allows _).bind fun loaded => ?_
    refine (runner.obeys_runScripts project allows _ _).bind fun report => ?_
    exact (Bridge.obeys_report trivial).bind fun _ => Bridge.obeys_pure _
  exact h.leaves (fun _ _ => id) (hobeys w)

theorem run_does {deeds : List Deed} {result : Except ImportError RunReport} {v : World}
    (held : w.isAlive (.registry runner.registry))
    (h : (runner.run project).Does Turn.quiet w deeds result v) :
    ∃ rest, deeds = w.making runner.rootNode ++ rest ∧
      ((∃ xs, runner.Completes w rest result v xs) ∨
        ∃ xs refused, runner.Aborts w rest result v xs refused) := by
  rw [run_eq] at h
  obtain ⟨_, passing, installed, u, rfl, hinstall, hpass⟩ := Bridge.does_bind_iff.mp h
  obtain ⟨_, installing, root, _, rfl, hmakes, hinstalling⟩ := Bridge.does_bind_iff.mp hinstall
  obtain ⟨rfl, rfl, rfl⟩ := makeLoaded_does hmakes
  obtain ⟨xs, rfl, wellFormed, hend⟩ := installLibraries_does hinstalling
  have hinstalls := Installs.of_afterAll held wellFormed
  refine ⟨installing ++ passing, List.append_assoc .., ?_⟩
  rcases hend with ⟨hlibraries, rfl, htalk⟩ |
    ⟨refused, later, answer, error, front, events, hlibraries, hrefuses, rfl, rfl, htalk⟩
  · obtain ⟨_, _, report, _, rfl, hpasses, rfl, rfl, rfl⟩ := Bridge.does_bind_iff.mp hpass
    obtain ⟨rfl, hleaves⟩ := passes_leaves hpasses
    rw [List.append_nil]
    exact .inl ⟨xs, hlibraries, wellFormed, hinstalls, ⟨report, rfl⟩, _, _, rfl, htalk, hleaves⟩
  · obtain ⟨rfl, rfl, rfl⟩ := hpass
    rw [List.append_nil]
    exact .inr ⟨xs, refused, ⟨later, hlibraries⟩, wellFormed, hinstalls, answer, error, front,
      events, hrefuses, rfl, rfl, htalk⟩

/-- A run makes its root, whatever is registered under its name, and then installs its libraries in
order.  If all can be installed, the last library of each name is registered under its full name and
found on the root from then on, and nothing else is changed in any registry.  Otherwise the first
library that is refused ends the run with its error, and only those in front of it are installed. -/
theorem run_installs (runner : ScriptRunner) (project : ProjectId) (host : QuietHost) {w : World}
    (held : w.isAlive (.registry runner.registry)) :
    let c := (runner.run project).converse host [] w
    ∃ deeds, (runner.run project).deeds host [] w = w.making runner.rootNode ++ deeds ∧
      ((∃ xs, runner.Completes w deeds c.result c.world xs) ∨
        ∃ xs refused, runner.Aborts w deeds c.result c.world xs refused) :=
  run_does held (Bridge.does_deeds host (runner.run project) [] w)

/-- Two libraries of one name, from one script that is a new module object each time. -/
theorem run_installs_twice :
    let library : Library := { name := "lib", script := { id := ⟨0⟩, path := "lib.py" } }
    let runner : ScriptRunner :=
      { registry := .processWide, entry := .validate, libraries := [library, library] }
    let host : QuietHost := fun said question => match question with
      | .loadScript _ => .ok ⟨said.length⟩
      | other => FixedHost.ignorant other
    let c := (runner.run ⟨0⟩).converse host [] .fresh
    World.fresh.isAlive (.registry runner.registry) ∧
      ∃ deeds xs, runner.Completes .fresh deeds c.result c.world xs ∧
        c.world.lookup .processWide "validation.lib" = some ⟨2⟩ ∧
        (c.world.node ⟨2⟩).handle = some ⟨1⟩ := by
  intro library runner host c
  have held : World.fresh.isAlive (.registry runner.registry) := by decide +kernel
  have hok : c.result.isOk := by decide +kernel
  obtain ⟨deeds, -, ⟨xs, hcompletes⟩ | ⟨xs, refused, haborts⟩⟩ := run_installs runner ⟨0⟩ host held
  · exact ⟨held, deeds, xs, hcompletes, by decide +kernel, by decide +kernel⟩
  · obtain ⟨answer, error, front, events, -, hresult, -⟩ := haborts.deeds
    rw [hresult] at hok
    cases hok

end Run

end ScriptRunner
end ForeignNamespace
