import ForeignNamespace.Proofs.AccessEffects
import ForeignNamespace.Proofs.AttributeWalk
import ForeignNamespace.Proofs.CheckedCreation

namespace ForeignNamespace

/-- Whether an access can find a node as a foreign module, if the host knows the child's name as
one: nothing is kept that can be had, the node does not answer metadata, and there is someone to
ask. -/
structure World.Promotes (w : World) (n : NodeId) (attr : String) (m : NodeId) : Prop where
  unkept : w.kept? n attr = none
  plain : (w.node n).handle = none → attr ∉ Node.metadataNames
  asks : (w.node n).enquirer.isSome
  there : w.child? n attr = some m

/-- Whether registries differ in one name of one registry at most, and lose and replace nothing. -/
structure World.Frames (w : World) (r : RegistryId) (name : String) (v : World) : Prop where
  elsewhere : ∀ {r' key}, r' ≠ r ∨ key ≠ name → v.lookup r' key = w.lookup r' key
  keeps : w.KeepsRegistered v

theorem World.Frames.of_registries {w v : World} {r : RegistryId} {name : String}
    (h : v.registries = w.registries) : w.Frames r name v where
  elsewhere _ := lookup_of_registries h _ _
  keeps := .of_registries h

section Promotion

variable {w u v w' : World} {n m : NodeId} {attr : String} {talk : List Exchange}

/-- A node without a handle answers its metadata and changes nothing. -/
theorem metadata_talks (bridgeOnly : (w.node n).handle = none) (named : attr ∈ Node.metadataNames)
    {result : Except ImportError Value}
    (h : (n.resolveBy attr Strategy.chain.tail).Talks w talk result w') : w' = w := by
  obtain ⟨others, hchain⟩ :
      ∃ others, Strategy.chain.tail = .foreignDelegate :: .native :: others := ⟨_, rfl⟩
  obtain ⟨value, hmetadata⟩ :
      ∃ value, Node.metadata? (w.node n).name (w.config n) attr = some value := by
    simp only [Node.metadataNames, List.mem_cons, List.not_mem_nil, or_false] at named
    rcases named with rfl | rfl | rfl | rfl | rfl <;> exact ⟨_, rfl⟩
  simp only [hchain, NodeId.resolveBy, Strategy.apply, NodeId.delegate, NodeId.native, bind_assoc,
    pure_bind, Bridge.talks_world_bind_iff, bridgeOnly, Node.isForeignBacked, Option.isSome_none,
    Bool.false_eq_true, if_false, hmetadata, Resolution.ofOption, ne_eq, reduceCtorEq,
    not_false_eq_true, if_true, Bridge.talks_report_bind_iff, Bridge.talks_pure_iff] at h
  exact h.2.2

/-- Whether registries are as they were, or differ in what is registered under one name now. -/
inductive World.Registers (w : World) (n : NodeId) (attr : String) (v : World) : Prop
  | nothing (same : v.registries = w.registries)
  | made (absent : w.lookup (w.node n).registry (childName (w.node n).name attr) = none)
      (now : ∀ r key, v.lookup r key =
        if (w.node n).registry = r ∧ childName (w.node n).name attr = key then some w.nextNode
        else w.lookup r key)
  | promoted {m : NodeId} (may : w.Promotes n attr m)
      (now : ∀ r key, v.lookup r key =
        if (w.node n).registry = r ∧ (w.node m).name = key then some m else w.lookup r key)

/-- What an access registers that got behind the cache. -/
theorem registers_of_finds {value : Value} (hevicts : w.Evicts n attr u)
    (unkept : w.kept? n attr = none)
    (plain : (w.node n).handle = none → attr ∉ Node.metadataNames)
    (h : u.Finds n attr talk value v) : w.Registers n attr v := by
  have hlookup := World.lookup_of_registries hevicts.registries
  have hnext : u.nextNode = w.nextNode := congrArg NodeId.mk hevicts.next
  obtain ⟨cache, hnode⟩ := hevicts.node n
  cases h with
  | told | answered | resolved | listed => exact .nothing hevicts.registries
  | @promoted r e m live has there =>
      have hregistry : (w.node n).registry = r :=
        World.registry_of_registryOf (hevicts.registryOf?_eq n ▸ live)
      have hname : (u.node m).name = (w.node m).name := by
        obtain ⟨cache, hchild⟩ := hevicts.node m
        rw [hchild]
      have hchild : w.child? n attr = some m := by
        rw [← hevicts.child?_eq, World.child?, live, Option.bind_some, there]
      have hasks : (w.node n).enquirer.isSome := by
        rw [hnode] at has
        simp [show (w.node n).enquirer = some e from has]
      refine .promoted ⟨unkept, plain, hasks, hchild⟩ fun r' key => ?_
      rw [hregistry, ← hname, ← hlookup r' key]
      exact World.lookup_register (u.link m _ _) m r r' (u.node m).name key
  | @made node live named absent =>
      have hregistry : (w.node n).registry = node.registry :=
        World.registry_of_registryOf (hevicts.registryOf?_eq n ▸ live)
      have hname : childName (w.node n).name attr = node.name := by
        rw [named, hnode]
      rw [hlookup] at absent
      refine .made (by rw [hregistry, hname, absent]) fun r' key => ?_
      rw [hregistry, hname, ← hnext, ← hlookup r' key]
      exact u.lookup_addRegistered r' node key

theorem getAttr_registers (here : n.index < w.nodes.next) {result : Except ImportError Value}
    (h : (n.getAttr attr).Talks w talk result w') : w.Registers n attr w' := by
  rcases getAttr_talks_behind h with ⟨value, -, -, rfl⟩ | ⟨unkept, u, hevicts, htail⟩
  · exact .nothing rfl
  · obtain ⟨cache, hnode⟩ := hevicts.node n
    -- Metadata is told before a foreign module is looked for, so nothing is promoted then.
    by_cases plain : (w.node n).handle = none → attr ∉ Node.metadataNames
    · rcases finds_or_fails_behind here hevicts htail with ⟨value, -, hfinds⟩ | ⟨error, -, rfl⟩
      · exact registers_of_finds hevicts unkept plain hfinds
      · exact .nothing hevicts.registries
    · obtain ⟨bridgeOnly, named⟩ : (w.node n).handle = none ∧ attr ∈ Node.metadataNames := by
        simpa using plain
      have hbridge : (u.node n).handle = none := by rw [hnode]; exact bridgeOnly
      obtain rfl := metadata_talks hbridge named htail
      exact .nothing hevicts.registries

end Promotion

section Promoting

variable {host : FixedHost} {w u : World} {n m : NodeId} {attr : String}

theorem World.Evicts.cached_gives (h : w.Evicts n attr u) :
    (n.cached? attr).Gives host w [] none u := by
  cases h with
  | unbound free => exact cached_gives_none host free
  | stale bound gone =>
      refine (Bridge.gives_world w).then ?_
      simp only [bound, gone]
      exact (Bridge.gives_modify _ w).then ((Bridge.gives_report _ _).then (Bridge.gives_pure _ _))

theorem World.exists_evicts (unkept : w.kept? n attr = none) : ∃ u, w.Evicts n attr u := by
  rw [World.kept?] at unkept
  split at unkept
  · rename_i hfree
    exact ⟨w, .unbound hfree⟩
  · cases unkept
  · rename_i hbound
    exact ⟨_, .stale hbound (Option.map_eq_none_iff.mp unkept)⟩

theorem delegate_gives_missing
    (missing : ∀ o, (w.node n).handle = some o → host (.getAttr o attr) = .ok none) :
    ∃ asked, (n.delegate attr).Gives host w asked (.ok .notFound) w := by
  cases hhandle : (w.node n).handle with
  | none => exact ⟨[], delegate_gives_passed host attr hhandle⟩
  | some o =>
      refine ⟨[.getAttr o attr], (Bridge.gives_world w).then ?_⟩
      simp only [hhandle]
      exact (Bridge.gives_answer (missing o hhandle) w).before (Bridge.gives_pure _ w)

theorem native_gives_silent (plain : (w.node n).handle = none → attr ∉ Node.metadataNames) :
    (n.native attr).Gives host w [] .notFound w := by
  cases hhandle : (w.node n).handle with
  | none => exact native_gives_passed host (plain hhandle)
  | some o =>
      refine (Bridge.gives_world w).then ?_
      simp only [Node.isForeignBacked, hhandle, Option.isSome_some, if_true]
      exact Bridge.gives_pure _ w

theorem adopt_gives_registered {r : RegistryId} {e : EnquirerId} {name : String}
    (there : w.lookup r name = some m) :
    (n.adopt r e attr name).Gives host w [] (.found (.node m))
      (((w.link m (w.node n).loader (some e)).register r (w.node m).name m).bindSubmodule n attr
        name) := by
  have hname : ((w.link m (w.node n).loader (some e)).node m).name = (w.node m).name := by
    simp [World.link]
  refine ((Bridge.gives_world w).then (Bridge.gives_pure _ w)).then ?_
  simp only [there]
  refine (Bridge.gives_world w).then ?_
  refine ((Bridge.gives_modify _ w).then ((Bridge.gives_world _).then
    ((put_gives host r _ m _).then (Bridge.gives_pure () _)))).then ?_
  rw [← hname]
  exact (bindSubmodule_gives host n attr name _).then (Bridge.gives_pure _ _)

/-- A foreign module is found in the node that is registered under its name. -/
theorem foreignModule_gives_promoted {r : RegistryId} {e : EnquirerId}
    (live : w.registryOf? n = some r) (has : (w.node n).enquirer = some e)
    (known : host.knowsModule e (childName (w.node n).name attr) = true)
    (there : w.lookup r (childName (w.node n).name attr) = some m) :
    (n.foreignModule attr).Gives host w
      (host.moduleQuestions e (childName (w.node n).name attr)) (.ok (.found (.node m)))
      (((w.link m (w.node n).loader (some e)).register r (w.node m).name m).bindSubmodule n attr
        (childName (w.node n).name attr)) := by
  refine (Bridge.gives_world w).then ?_
  simp only [has]
  refine (knowsModule_gives host e _ w).before ?_
  rw [known]
  refine (Bridge.gives_world w).then ?_
  simp only [live]
  refine Bridge.Gives.holding ?_
  have hloaded : (NodeId.ensureLoaded r e (childName (w.node n).name attr)).Gives host
      (w.hold (.registry r)) [] (.ok ()) (w.hold (.registry r)) := by
    refine ((Bridge.gives_world _).then (Bridge.gives_pure _ _)).then ?_
    simp only [World.lookup_hold, there, Option.isSome_some, if_true]
    exact Bridge.gives_pure _ _
  have hthere : (w.hold (.registry r)).lookup r (childName (w.node n).name attr) = some m := there
  have hadopt : (n.adopt r e attr (childName (w.node n).name attr)).Gives host
      (w.hold (.registry r)) [] _ _ := adopt_gives_registered hthere
  exact hloaded.then (hadopt.then (Bridge.gives_pure _ _))

/-- An access finds a node that it can promote, if the host knows the child's name and the handle
has nothing. -/
theorem getAttr_gives_promoted (promotes : w.Promotes n attr m)
    (missing : ∀ o, (w.node n).handle = some o → host (.getAttr o attr) = .ok none)
    (known : ∀ e, host.knowsModule e (childName (w.node n).name attr) = true) :
    ∃ asked v, (n.getAttr attr).Gives host w asked (.ok (.node m)) v ∧
      v.lookup (w.node n).registry (w.node m).name = some m := by
  obtain ⟨u, hevicts⟩ := World.exists_evicts promotes.unkept
  obtain ⟨cache, hnode⟩ := hevicts.node n
  obtain ⟨e, hasks⟩ := Option.isSome_iff_exists.mp promotes.asks
  have hchild := promotes.there
  rw [← hevicts.child?_eq, World.child?] at hchild
  obtain ⟨r, live, there⟩ := Option.bind_eq_some_iff.mp hchild
  have hhandle : (u.node n).handle = (w.node n).handle := by rw [hnode]
  have hname : (u.node n).name = (w.node n).name := by rw [hnode]
  have hcache : (Strategy.cache.apply n attr).Gives host w [] (.ok .notFound) u :=
    hevicts.cached_gives.then (Bridge.gives_pure _ u)
  obtain ⟨asked, hdelegate⟩ :
      ∃ asked, (Strategy.foreignDelegate.apply n attr).Gives host u asked (.ok .notFound) u :=
    delegate_gives_missing (hhandle ▸ missing)
  have hnative : (Strategy.native.apply n attr).Gives host u [] (.ok .notFound) u :=
    (native_gives_silent (hhandle ▸ promotes.plain)).then (Bridge.gives_pure _ u)
  have hmodule : (Strategy.foreignModule.apply n attr).Gives host u _ _ _ :=
    foreignModule_gives_promoted live (by rw [hnode]; exact hasks) (hname ▸ known e) there
  refine ⟨_, _, hcache.then (resolveBy_gives_passed hdelegate
    (resolveBy_gives_skipped hnative (resolveBy_gives_found hmodule))), ?_⟩
  obtain ⟨cache, hchild⟩ := hevicts.node m
  have hregistry : (w.node n).registry = r :=
    World.registry_of_registryOf (hevicts.registryOf?_eq n ▸ live)
  have hmname : (u.node m).name = (w.node m).name := by rw [hchild]
  rw [hregistry, ← hmname]
  exact World.lookup_register_self (u.link m _ _) m r (u.node m).name

theorem FixedHost.knowing_knows (name : String) (o : ObjectId) (e : EnquirerId) :
    (knowing name o).knowsModule e name = true := by
  change (true && name == name) = true
  simp

end Promoting

section Framing

variable {w v : World} {n : NodeId} {attr : String}

/-- What is registered under a name afterwards: what was, a new node under the child's name, or a
promoted node under its own. -/
theorem World.Registers.lookup (h : w.Registers n attr v) (r : RegistryId) (key : String) :
    v.lookup r key = w.lookup r key ∨ r = (w.node n).registry ∧
      (key = childName (w.node n).name attr ∧ w.lookup r key = none ∧
          v.lookup r key = some w.nextNode ∨
        ∃ m, w.Promotes n attr m ∧ key = (w.node m).name ∧ v.lookup r key = some m) := by
  cases h with
  | nothing same => exact .inl (World.lookup_of_registries same r key)
  | made absent now =>
      by_cases hkey : (w.node n).registry = r ∧ childName (w.node n).name attr = key
      · obtain ⟨rfl, rfl⟩ := hkey
        exact .inr ⟨rfl, .inl ⟨rfl, absent, by rw [now, if_pos ⟨rfl, rfl⟩]⟩⟩
      · exact .inl (by rw [now, if_neg hkey])
  | @promoted m may now =>
      by_cases hkey : (w.node n).registry = r ∧ (w.node m).name = key
      · obtain ⟨rfl, rfl⟩ := hkey
        exact .inr ⟨rfl, .inr ⟨m, may, rfl, by rw [now, if_pos ⟨rfl, rfl⟩]⟩⟩
      · exact .inl (by rw [now, if_neg hkey])

theorem World.Registers.frames (h : w.Registers n attr v)
    (registered : ∀ m, w.Promotes n attr m →
      w.lookup (w.node n).registry (w.node m).name = some m) :
    w.Frames (w.node n).registry (childName (w.node n).name attr) v := by
  cases h with
  | nothing same => exact .of_registries same
  | made absent now =>
      refine ⟨fun {r key} hother => ?_, fun r key m hlookup => ?_⟩
      · rw [now, if_neg]
        rintro ⟨rfl, rfl⟩
        simp at hother
      · rw [now, if_neg, hlookup]
        rintro ⟨rfl, rfl⟩
        cases absent.symm.trans hlookup
  | @promoted m may now =>
      have hsame : ∀ r key, v.lookup r key = w.lookup r key := fun r key => by
        rw [now]
        split
        · rename_i hkey
          rw [← hkey.1, ← hkey.2]
          exact (registered m may).symm
        · rfl
      exact ⟨fun _ => hsame _ _, fun r key m' hlookup => by rw [hsame, hlookup]⟩

/-- A host that knows the child's name has the node registered under its own name. -/
theorem World.Promotes.registered {m : NodeId} (promotes : w.Promotes n attr m)
    (frames : ∀ host : QuietHost, w.Frames (w.node n).registry (childName (w.node n).name attr)
      ((n.getAttr attr).converse host [] w).world) :
    w.lookup (w.node n).registry (w.node m).name = some m := by
  let host := FixedHost.knowing (childName (w.node n).name attr) ⟨0⟩
  obtain ⟨asked, v, gives, hnow⟩ := getAttr_gives_promoted promotes (fun _ _ => rfl)
    (FixedHost.knowing_knows (childName (w.node n).name attr) ⟨0⟩)
  have hafter : ((n.getAttr attr).converse (fun _ => host) [] w).world = v :=
    (Bridge.converse_eq_run host _ [] w).2.trans gives.world
  have hframes := frames fun _ => host
  rw [hafter] at hframes
  -- Promotion has registered the node under its own name, where nothing else may have changed.
  by_cases hname : (w.node m).name = childName (w.node n).name attr
  · obtain ⟨r, live, there⟩ := Option.bind_eq_some_iff.mp promotes.there
    rw [hname, World.registry_of_registryOf live, there]
  · rw [← hframes.elsewhere (.inr hname), hnow]

end Framing

/-- An access registers nothing but a new node under the child's name, if that is free, or a node
that it promotes, under that node's own name.  So whatever the host answers, it leaves every other
name and every registered node in place exactly if all nodes that it can promote are registered
under their own names. -/
theorem getAttr_frames_iff {w : World} {n : NodeId} (attr : String)
    (here : n.index < w.nodes.next) :
    let registry := (w.node n).registry
    let name := childName (w.node n).name attr
    let after (host : QuietHost) := ((n.getAttr attr).converse host [] w).world
    (∀ host r key, (after host).lookup r key = w.lookup r key ∨ r = registry ∧
      (key = name ∧ w.lookup r key = none ∧ (after host).lookup r key = some w.nextNode ∨
        ∃ m, w.Promotes n attr m ∧ key = (w.node m).name ∧
          (after host).lookup r key = some m)) ∧
      ((∀ host, w.Frames registry name (after host)) ↔
        ∀ m, w.Promotes n attr m → w.lookup registry (w.node m).name = some m) := by
  intro registry name after
  have registers : ∀ host, w.Registers n attr (after host) := fun host =>
    getAttr_registers here (Bridge.talks_converse host _ [] w)
  exact ⟨fun host => (registers host).lookup, fun frames m promotes => promotes.registered frames,
    fun registered host => (registers host).frames registered⟩

/-- The start of a process with one package and one other node, which is registered under the name
of a child of the package as well. -/
def World.withAlias : World :=
  (Attribute.World.withPackage.addRegistered (.bridge "old" .processWide none none)).register
    .processWide "pkg.mod" ⟨1⟩

/-- An access brings back the name of a node that is registered under the child's name, and replaces
another node that is registered under it. -/
theorem getAttr_rebinds_alias :
    let gone := World.withAlias.unregister .processWide "old"
    let other := World.withAlias.addRegistered (.bridge "old" .processWide none none)
    let n : NodeId := ⟨0⟩
    let after (w : World) :=
      ((n.getAttr "mod").converse (fun _ => .knowing "pkg.mod" ⟨7⟩) [] w).world
    (gone.lookup .processWide "old" = none ∧
        (after gone).lookup .processWide "old" = some ⟨1⟩) ∧
      (other.lookup .processWide "old" = some ⟨2⟩ ∧
        (after other).lookup .processWide "old" = some ⟨1⟩) ∧
      ¬gone.Frames .processWide "pkg.mod" (after gone) ∧
      ¬other.Frames .processWide "pkg.mod" (after other) := by
  intro gone other n after
  have hgone : gone.lookup .processWide "old" = none ∧
      (after gone).lookup .processWide "old" = some ⟨1⟩ := by decide +kernel
  have hother : other.lookup .processWide "old" = some ⟨2⟩ ∧
      (after other).lookup .processWide "old" = some ⟨1⟩ := by decide +kernel
  refine ⟨hgone, hother, fun frames => ?_, fun frames => ?_⟩
  · have hsame : (after gone).lookup .processWide "old" = gone.lookup .processWide "old" :=
      frames.elsewhere (.inr (by decide))
    rw [hgone.1, hgone.2] at hsame
    cases hsame
  · have hkept := frames.keeps _ _ _ hother.1
    rw [hother.2] at hkept
    cases hkept

/-- With the node registered under its own name no host can disturb the registry; without it one
can. -/
theorem getAttr_frames_iff_old :
    let n : NodeId := ⟨0⟩
    let gone := World.withAlias.unregister .processWide "old"
    (n.index < World.withAlias.nodes.next ∧ n.index < gone.nodes.next) ∧
      (∀ host : QuietHost, World.withAlias.Frames .processWide "pkg.mod"
        ((n.getAttr "mod").converse host [] World.withAlias).world) ∧
      ¬∀ host : QuietHost, gone.Frames .processWide "pkg.mod"
        ((n.getAttr "mod").converse host [] gone).world := by
  intro n gone
  have here : n.index < World.withAlias.nodes.next := by decide
  have hgone : n.index < gone.nodes.next := by decide
  refine ⟨⟨here, hgone⟩, ?_, fun frames => ?_⟩
  · refine (getAttr_frames_iff "mod" here).2.mpr fun m promotes => ?_
    have hchild : World.withAlias.child? n "mod" = some ⟨1⟩ := by decide +kernel
    obtain rfl : (⟨1⟩ : NodeId) = m := Option.some.inj (hchild.symm.trans promotes.there)
    decide +kernel
  · have promotes : gone.Promotes n "mod" ⟨1⟩ := {
      unkept := by rfl
      plain := fun _ => by decide
      asks := by decide +kernel
      there := by decide +kernel }
    have hlookup := (getAttr_frames_iff "mod" hgone).2.mp frames _ promotes
    have hnone : gone.lookup .processWide "old" = none := by decide +kernel
    cases hnone.symm.trans hlookup

end ForeignNamespace
